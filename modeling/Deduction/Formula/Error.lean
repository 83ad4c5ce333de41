/-
What can be wrong with a formula: its text, its size, the number of its variables. Each cause has
one message.
-/
import Deduction.Token.Basic

namespace Deduction

inductive FormulaError
  | unexpectedCharacter (char : Char) (position : Nat)
  | unexpectedToken (token : Token) (expected : String)
  | nestedTooDeep (token : Token) (limit : Nat)
  | tooManyVariables (count : Nat) (limit : Int) (rows : String)
  | tooTall
  deriving DecidableEq

def FormulaError.message : FormulaError → String
  | unexpectedCharacter c pos =>
    "Unexpected character: " ++ Text.quoted c.toString ++ " at position " ++ toString pos
  | unexpectedToken t expected =>
    "Unexpected token: " ++ Text.quoted t.label ++ " at position " ++ toString t.position
      ++ (if expected.isEmpty then "" else " (expected " ++ expected ++ ")")
  | nestedTooDeep t limit =>
    "Formula is nested too deeply (more than " ++ toString limit ++ " levels) at position "
      ++ toString t.position
  | tooManyVariables count limit rows =>
    "Formula has " ++ toString count ++ " variables; truth tables are limited to "
      ++ toString limit ++ " (" ++ rows ++ " rows)"
  | tooTall => "maximum recursion depth exceeded in __instancecheck__"

/-- What a walk over the whole formula yields, if the tree is not too tall for it. -/
def Formula.walk [CallStack] {α : Type} (f : Formula) (g : Formula → α) : Except FormulaError α :=
  if f.height ≤ CallStack.levels then .ok (g f) else .error .tooTall

end Deduction
