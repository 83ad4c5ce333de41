/-
Formulas with a label and a description, as catalogs list them.
-/
import Deduction.Text.Layout

namespace Deduction

structure Labeled where
  label : String
  formula : String
  description : String
  deriving DecidableEq

/-- A labeled formula in three columns. -/
def Labeled.line (labelWidth formulaWidth : Nat) (l : Labeled) : String :=
  "  " ++ Text.padEnd labelWidth l.label ++ " " ++ Text.padEnd formulaWidth l.formula ++ " "
    ++ l.description

end Deduction
