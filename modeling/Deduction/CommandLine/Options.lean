/-
The options of the command line. A word is an option by its name or by the beginning of a name that
no other option shares, alone or with a value behind an equals sign; a word that does not begin like
an option, a negative number, and a word with a space in it are values. All words behind a double
dash are left over, and so is the double dash. What the words are is judged before any is read.
-/
import Deduction.Catalog.KnowledgeBase
import Deduction.Text.Integer
import Deduction.TruthTable.Basic

namespace Deduction.CommandLine

/-- The options without a value. -/
inductive Flag
  | rules
  | kbs
  | goals
  | examples
  | quiet
  deriving DecidableEq

/-- The options with a value. -/
inductive Key
  | formula
  | maxVars
  | goal
  | kb
  | apply
  | delete
  deriving DecidableEq

def Flag.name : Flag → String
  | rules => "--rules"
  | kbs => "--kbs"
  | goals => "--goals"
  | examples => "--examples"
  | quiet => "--quiet"

def Flag.all : List Flag := [rules, kbs, goals, examples, quiet]

def Key.name : Key → String
  | formula => "--formula"
  | maxVars => "--max-vars"
  | goal => "--goal"
  | kb => "--kb"
  | apply => "--apply"
  | delete => "--delete"

def Key.all : List Key := [formula, maxVars, goal, kb, apply, delete]

/-- An option: that which asks for help, one without a value, or one with a value. -/
inductive Switch
  | help
  | flag (flag : Flag)
  | key (key : Key)
  deriving DecidableEq

/-- An option as messages name it. -/
def Switch.label : Switch → String
  | help => "-h/--help"
  | flag f => f.name
  | key k => k.name

/-- The options by their names. -/
def Switch.table : List (String × Switch) :=
  [("-h", help), ("--help", help)] ++ Key.all.map (fun k => (k.name, key k))
    ++ Flag.all.map fun f => (f.name, flag f)

/-- The options that a name may stand for: that of the name, or else those whose names begin with it. -/
def Switch.named (name : String) : List (String × Switch) :=
  match table.find? (·.1 == name) with
  | some entry => [entry]
  | none => table.filter fun (full, _) => name.toList.isPrefixOf full.toList

structure Options where
  formula : Option String
  maxVars : Int
  goal : Option String
  kb : Option KnowledgeBase
  moves : List String
  deletions : List Int
  rules : Bool
  kbs : Bool
  goals : Bool
  examples : Bool
  quiet : Bool
  deriving DecidableEq

/-- Why a command line is refused before its moves are read. -/
inductive UsageFault
  | ambiguous (word : String) (names : List String)
  | valueExpected (key : Key)
  | valueIgnored (switch : Switch) (value : String)
  | invalidInteger (key : Key) (value : String)
  | invalidChoice (key : Key) (value : String) (choices : List String)
  | unrecognized (words : List String)
  | goalNeeded
  deriving DecidableEq

def onArgument (name message : String) : String :=
  "argument " ++ name ++ ": " ++ message

def UsageFault.message : UsageFault → String
  | ambiguous word names => "ambiguous option: " ++ word ++ " could match " ++ Text.joinWith ", " names
  | valueExpected key => onArgument key.name "expected one argument"
  | valueIgnored switch value =>
    onArgument switch.label ("ignored explicit argument " ++ Text.quoted value)
  | invalidInteger key value => onArgument key.name ("invalid int value: " ++ Text.quoted value)
  | invalidChoice key value choices =>
    onArgument key.name
      ("invalid choice: " ++ Text.quoted value ++ " (choose from "
        ++ Text.joinWith ", " (choices.map Text.quoted) ++ ")")
  | unrecognized words => "unrecognized arguments: " ++ Text.joinWith " " words
  | goalNeeded => "--apply and --delete need --goal"

/-- What a word of the command line is. -/
inductive Word
  | switch (switch : Switch) (attached : Option String)
  | value
  | unknown
  deriving DecidableEq

/-- Whether a text is digits, or digits or none and a point and digits; one line end may follow. -/
def isUnsignedNumber (cs : List Char) : Bool :=
  let cs := if cs.getLast? = some '\n' then cs.dropLast else cs
  let isDecimal := fun c => (Text.digitValue? c).isSome
  match cs.dropWhile isDecimal with
  | [] => !cs.isEmpty
  | '.' :: fraction => !fraction.isEmpty && fraction.all isDecimal
  | _ => false

/-- What is attached to the letter that asks for help. The letter may be repeated; other letters are passed over. -/
def helpAttachment : List Char → Option String
  | '=' :: cs => some (String.ofList cs)
  | '-' :: cs => some (String.ofList ('-' :: cs))
  | 'h' :: cs => helpAttachment cs
  | _ => none

/-- What a word is that begins like an option and is none. -/
def Word.unnamed (w : String) : Word :=
  if isUnsignedNumber (w.toList.drop 1) || w.toList.contains ' ' then value else unknown

def Word.classify (w : String) : Except UsageFault Word :=
  match w.toList with
  | '-' :: 'h' :: cs => .ok (switch .help (helpAttachment cs))
  | '-' :: '-' :: _ =>
    let name := String.ofList (w.toList.takeWhile (· != '='))
    let attached := (w.toList.dropWhile (· != '=')).tail?.map String.ofList
    match Switch.named name with
    | [] => .ok (unnamed w)
    | [(_, s)] => .ok (switch s attached)
    | several => .error (.ambiguous w (several.map (·.1)))
  | '-' :: _ :: _ => .ok (unnamed w)
  | _ => .ok value

/-- What the words are, up to the first double dash, and the words from there on. -/
def classifyWords : List String → Except UsageFault (List (String × Word) × List String)
  | [] => .ok ([], [])
  | w :: ws =>
    if w = "--" then .ok ([], w :: ws)
    else match Word.classify w with
      | .error e => .error e
      | .ok word => match classifyWords ws with
        | .error e => .error e
        | .ok (classified, rest) => .ok ((w, word) :: classified, rest)

/-- What may end the reading of the options early. -/
inductive Halt
  | help
  | fault (e : UsageFault)
  deriving DecidableEq

namespace Options

def empty : Options :=
  ⟨none, TruthTable.defaultLimit, none, none, [], [], false, false, false, false, false⟩

def setFlag (o : Options) : Flag → Options
  | .rules => { o with rules := true }
  | .kbs => { o with kbs := true }
  | .goals => { o with goals := true }
  | .examples => { o with examples := true }
  | .quiet => { o with quiet := true }

def integer (key : Key) (value : String) : Except UsageFault Int :=
  match Text.readInteger value with
  | .ok n => .ok n
  | .error _ => .error (.invalidInteger key value)

/-- The options with a value set: the last of several values counts, but moves and deletions add
up. -/
def setValue (o : Options) (key : Key) (value : String) : Except UsageFault Options :=
  match key with
  | .formula => .ok { o with formula := some value }
  | .goal => .ok { o with goal := some value }
  | .apply => .ok { o with moves := o.moves ++ [value] }
  | .maxVars => match integer .maxVars value with
    | .ok n => .ok { o with maxVars := n }
    | .error e => .error e
  | .delete => match integer .delete value with
    | .ok n => .ok { o with deletions := o.deletions ++ [n] }
    | .error e => .error e
  | .kb => match KnowledgeBase.ofId? value with
    | some kb => .ok { o with kb := some kb }
    | none => .error (.invalidChoice .kb value KnowledgeBase.ids)

/-- Reads the words from left to right, and collects those that are left over. -/
def readWords (o : Options) (left : List String) : List (String × Word) → Except Halt (Options × List String)
  | [] => .ok (o, left)
  | (w, word) :: ws => match word with
    | .value => readWords o (left ++ [w]) ws
    | .unknown => readWords o (left ++ [w]) ws
    | .switch .help none => .error .help
    | .switch .help (some v) => .error (.fault (.valueIgnored .help v))
    | .switch (.flag flag) none => readWords (o.setFlag flag) left ws
    | .switch (.flag flag) (some v) => .error (.fault (.valueIgnored (.flag flag) v))
    | .switch (.key key) (some v) => match o.setValue key v with
      | .ok o' => readWords o' left ws
      | .error e => .error (.fault e)
    | .switch (.key key) none => match ws with
      | (v, .value) :: rest => match o.setValue key v with
        | .ok o' => readWords o' left rest
        | .error e => .error (.fault e)
      | _ => .error (.fault (.valueExpected key))

def read (words : List String) : Except Halt Options :=
  match classifyWords words with
  | .error e => .error (.fault e)
  | .ok (classified, rest) => match readWords empty [] classified with
    | .error halt => .error halt
    | .ok (o, left) => match left ++ rest with
      | w :: ws => .error (.fault (.unrecognized (w :: ws)))
      | [] =>
        if (!o.moves.isEmpty || !o.deletions.isEmpty) && o.goal.isNone then .error (.fault .goalNeeded)
        else .ok o

end Options

end Deduction.CommandLine
