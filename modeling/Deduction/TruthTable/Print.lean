/-
The printed truth table: the names of the variables and the formula, a ruler, a line for each row
with T or F under each name, and the verdict.
-/
import Deduction.Text.Layout
import Deduction.TruthTable.Basic

namespace Deduction

def letter (b : Bool) : String :=
  if b then "T" else "F"

namespace TruthTable

/-- The cell of a name: a letter, as wide as the name. -/
def cell (a : Assignment) (name : String) : String :=
  Text.padEnd name.length (letter (a.value name))

def rowLine (names : List String) (row : Row) : String :=
  let cells := Text.joinWith " " (names.map (cell row.assignment))
  if cells.isEmpty then letter row.result else cells ++ " | " ++ letter row.result

/-- The names of the columns: those of the first row. -/
def columns : List Row → List String
  | [] => []
  | row :: _ => row.assignment.names

/-- The first name of a column that a row gives no value, rows before columns. -/
def missingName? (rows : List Row) : Option String :=
  rows.findSome? fun row => (columns rows).find? fun n => !row.assignment.names.contains n

def lines (formula : String) (rows : List Row) : List String :=
  let names := columns rows
  let header := Text.joinWith " " names
  ["", if header.isEmpty then formula else header ++ " | " ++ formula,
   Text.ruler '-' (header.length + formula.length + 3)]
    ++ rows.map (rowLine names)
    ++ ["(" ++ (classify rows).name ++ ", " ++ toString rows.length ++ " rows)"]

end TruthTable

end Deduction
