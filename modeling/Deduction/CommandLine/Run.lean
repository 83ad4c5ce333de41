/-
What the command line answers: the catalogs that are asked for, the markup and the truth table of a
formula, and the proof of a goal with its moves and deletions.
-/
import Deduction.Catalog.Print
import Deduction.CommandLine.Move
import Deduction.CommandLine.Options
import Deduction.Proof.Print
import Deduction.TruthTable.Print

namespace Deduction.CommandLine

/-- The lines on a formula, its markup and its truth table, and the fault that ends the program on the way to them. -/
def formulaLines [CallStack] (text : String) (limit : Int) : List String × Option TruthTable.Fault :=
  match Formula.readMarkup text with
  | .error message => (["Error: " ++ message], none)
  | .ok markup =>
    let opening := "Markup: " ++ markup
    match TruthTable.read text limit with
    | .ok rows => (opening :: TruthTable.lines text rows, none)
    | .error (.formula .tooTall) => ([opening], some (.formula .tooTall))
    | .error (.formula e) => ([opening, "Error: " ++ e.message], none)
    | .error (.number e) => ([opening], some (.number e))

def stopLine (m : Move) : String :=
  "Could not apply " ++ m.rule.name ++ " to steps "
    ++ (if m.ids.isEmpty then "(none)" else Text.listed m.ids) ++ ". Stopping."

/-- Makes the moves up to the first that cannot be made. -/
def makeMoves [CallStack] (quiet : Bool) (p : Proof) : List Move → List String × Proof
  | [] => ([], p)
  | m :: ms =>
    let notes := if quiet then [] else p.extendNotes m.rule m.ids m.input
    match p.extend m.rule.id m.ids m.input with
    | .error _ => (notes ++ [stopLine m], p)
    | .ok p' =>
      let (lines, last) := makeMoves quiet p' ms
      (notes ++ lines, last)

def makeDeletions (quiet : Bool) (p : Proof) : List Int → List String × Proof
  | [] => ([], p)
  | id :: ids =>
    match p.delete id with
    | .error blocker =>
      let (lines, last) := makeDeletions quiet p ids
      (("Cannot delete step " ++ toString id ++ ": " ++ blocker.message) :: lines, last)
    | .ok p' =>
      let notes :=
        if quiet then [] else ["  [deleted] step " ++ toString id ++ " and everything after it"]
      let (lines, last) := makeDeletions quiet p' ids
      (notes ++ lines, last)

def proofLines [CallStack] (o : Options) (goal : String) (moves : List Move) : List String :=
  match Proof.startWith goal ((o.kb.map (·.premises)).getD []) with
  | .error e => ["Invalid goal: " ++ e.message]
  | .ok p =>
    let opening := "Proving " ++ goal ++ (match o.kb with
      | some kb => " from " ++ kb.id
      | none => "")
    let (made, p) := makeMoves o.quiet p moves
    let (deleted, p) := makeDeletions o.quiet p o.deletions
    (if o.quiet then [] else [opening]) ++ made ++ deleted ++ p.lines
      ++ (if o.rules || !o.quiet then p.ruleLines else [])

/-- The lines of the catalogs that a command line asks for. -/
def catalogLines (o : Options) : List String :=
  (if o.rules && o.goal.isNone then Rule.catalogLines else [])
    ++ (if o.kbs then knowledgeBaseLines else [])
    ++ (if o.goals then goalLines else [])
    ++ (if o.examples then exampleLines else [])

/-- The lines on the formula of a command line, and the fault that ends the program there. -/
def formulaPart [CallStack] (o : Options) : List String × Option TruthTable.Fault :=
  match o.formula with
  | some text => formulaLines text o.maxVars
  | none => ([], none)

/-- All lines that a command line asks for, up to the fault that ends the program. -/
def lines [CallStack] (o : Options) (moves : List Move) : List String :=
  let (table, fault) := formulaPart o
  catalogLines o ++ table
    ++ match fault, o.goal with
      | none, some goal => proofLines o goal moves
      | _, _ => []

/-- How the program ends: with the help that is asked for, with a complaint about the command line, or with the lines
that it prints and the fault behind them, if there is one. -/
inductive Outcome
  | help
  | refused (complaint : String)
  | ran (lines : List String) (fault : Option TruthTable.Fault)

def Outcome.exitCode : Outcome → UInt32
  | help => 0
  | refused _ => 2
  | ran _ none => 0
  | ran _ (some _) => 1

def answer [CallStack] (words : List String) : Outcome :=
  match Options.read words with
  | .error .help => .help
  | .error (.fault e) => .refused e.message
  | .ok o => match o.moves.mapM Move.read with
    | .error e => .refused e.message
    | .ok moves => .ran (lines o moves) (formulaPart o).2

end Deduction.CommandLine
