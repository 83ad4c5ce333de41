/-
Printed proofs and rules, and the notes that an attempt to apply a rule leaves.
-/
import Deduction.Proof.Applicability
import Deduction.Proof.Run

namespace Deduction

def doneLine : String := "  QED: goal reached with no open assumptions."

namespace Proof

def border : String := Text.ruler '=' 60

/-- A bar for each level of depth. -/
def bars (depth : Int) : String :=
  String.join (List.replicate depth.toNat "| ")

def stepLine (s : Step) : String :=
  "  " ++ Text.padStart 3 (toString s.id) ++ ". " ++ bars s.depth ++ Text.padEnd 30 s.formula ++ " "
    ++ s.justification

/-- The lines of a printed proof: goal and premises, the steps, and how far it is. -/
def lines (p : Proof) : List String :=
  ["", border, "Goal: " ++ p.goal]
    ++ (if p.premises.isEmpty then [] else ["Premises: " ++ Text.joinWith ", " p.premises])
    ++ [border]
    ++ (if p.steps.isEmpty then ["  (no steps)"] else p.steps.map stepLine)
    ++ [border,
        if p.complete then doneLine
        else "  Open assumption depth: " ++ toString p.depth ++ ". Proof not complete."]

/-- The note on a rule that gave no step: none if the selection just did not suit it. -/
def refusalNotes (rule : Rule) (e : Refusal) : List String :=
  match e.message? with
  | some message => ["  [not applicable] " ++ rule.name ++ ": " ++ message]
  | none => []

/-- The notes on a rule that was tried without extending the proof. -/
def deriveNotes [CallStack] (p : Proof) (rule : Rule) (selected : List Int) (input : Option String) :
    List String :=
  match p.derive rule.id selected input with
  | .ok _ => []
  | .error e => refusalNotes rule e

/-- The notes on an extension: the new step, and whether the proof is done. -/
def extensionNotes (p : Proof) : List String :=
  (match p.last? with
    | some s => ["  [new] " ++ s.name ++ "  (" ++ s.justification ++ ")"]
    | none => [])
    ++ (if p.complete then [doneLine] else [])

/-- The notes on an attempt to extend a proof. -/
def extendNotes [CallStack] (p : Proof) (rule : Rule) (selected : List Int) (input : Option String) :
    List String :=
  match p.extend rule.id selected input with
  | .ok p' => p'.extensionNotes
  | .error e => refusalNotes rule e

end Proof

/-! ## Catalogs -/

namespace Rule

def summary (rule : Rule) : String :=
  rule.name ++ ": " ++ rule.description

def catalogLines : List String :=
  ["", "Rules:"]
    ++ catalog.map fun rule => "  " ++ Text.padEnd 15 rule.id.name ++ " " ++ rule.summary

end Rule

/-- The lines of the catalog, each marked with whether the rule can be tried in a proof. -/
def Proof.ruleLines (p : Proof) : List String :=
  ["", "Rules:"]
    ++ p.obstacles.map fun (rule, obstacle) =>
      "  " ++ (if obstacle.isNone then "+" else "-") ++ " " ++ Text.padEnd 15 rule.id.name ++ " "
        ++ rule.summary
        ++ (match obstacle with
          | some o => "  [" ++ o.message ++ "]"
          | none => "")

end Deduction
