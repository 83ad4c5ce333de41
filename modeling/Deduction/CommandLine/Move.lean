/-
Moves: a rule, the steps it is applied to and the formula it reads, in one line of text. The formula
stands behind a colon, or right behind the numbers of the steps.
-/
import Deduction.Proof.Rule
import Deduction.Text.Integer
import Deduction.Text.Layout

namespace Deduction

/-- The application of a rule to steps, and to a formula for the rules that read one. -/
structure Move where
  rule : Rule
  ids : List Int
  input : Option String
  deriving DecidableEq

inductive MoveFault
  | noRule (text : String)
  | rule (e : Rule.LookupFault)
  | number (e : Text.IntegerFault)
  | misplaced (words text : String)
  | noFormula (id : RuleId) (text : String)

namespace MoveFault

/-- The text of a move as messages show it. -/
def place (text : String) : String :=
  " in --apply " ++ Text.quoted text

def message : MoveFault → String
  | noRule text => "empty rule" ++ place text
  | rule e => e.message
  | number e => e.message
  | misplaced words text =>
    "unexpected " ++ Text.quoted words ++ " before ':'" ++ place text
  | noFormula id text => id.name ++ " needs a formula" ++ place text

end MoveFault

namespace Move

/-- A text up to its first colon, and what follows the colon if there is one. -/
def splitColon : List Char → List Char × Option (List Char)
  | [] => ([], none)
  | ':' :: cs => ([], some cs)
  | c :: cs =>
    let (head, tail) := splitColon cs
    (c :: head, tail)

/-- The numbers that the words begin with, and the words behind them. -/
def leadingIds : List String → Except Text.IntegerFault (List Int × List String)
  | [] => .ok ([], [])
  | w :: ws =>
    if w.toList.all Text.isDigit then
      match Text.readInteger w with
      | .error e => .error e
      | .ok n => match leadingIds ws with
        | .error e => .error e
        | .ok (ns, rest) => .ok (n :: ns, rest)
    else .ok ([], w :: ws)

def read (text : String) : Except MoveFault Move :=
  let (head, tail) := splitColon text.toList
  match Text.splitWords head |>.map String.ofList with
  | [] => .error (.noRule text)
  | word :: rest => match Rule.ofName word with
    | .error e => .error (.rule e)
    | .ok rule => match leadingIds rest with
      | .error e => .error (.number e)
      | .ok (ids, rest) =>
        if tail.isSome && !rest.isEmpty then .error (.misplaced (Text.joinWith " " rest) text)
        else
          let input := match tail with
            | some cs => Text.trim (String.ofList cs)
            | none => Text.joinWith " " rest
          if rule.id.readsFormula && input.isEmpty then .error (.noFormula rule.id text)
          else .ok ⟨rule, ids, if input.isEmpty then none else some input⟩

end Move

end Deduction
