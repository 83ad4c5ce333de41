/-
Truth tables. The rows of a table run through all assignments of the variables in counting order,
the first variable counting most and false coming first; the number of variables is limited.
-/
import Deduction.Decimal.Power
import Deduction.Formula.Parser

namespace Deduction

/-- Truth values by name. A name stands at most once; the order is the order of the columns. -/
abbrev Assignment := List (String × Bool)

namespace Assignment

/-- Gives a name a value: in its place if it has one, else at the end. -/
def set (name : String) (value : Bool) : Assignment → Assignment
  | [] => [(name, value)]
  | (n, v) :: rest => if n = name then (n, value) :: rest else (n, v) :: set name value rest

/-- The assignment of a list of pairs, of which the later win. -/
def ofPairs (pairs : List (String × Bool)) : Assignment :=
  pairs.foldl (fun a p => a.set p.1 p.2) []

/-- The value of a name; a name without one is false. -/
def value (a : Assignment) (name : String) : Bool :=
  (a.lookup name).getD false

def names (a : Assignment) : List String :=
  a.map Prod.fst

/-- All assignments of the names, in counting order. -/
def all : List String → List Assignment
  | [] => [[]]
  | n :: rest =>
    let tails := all rest
    tails.map ((n, false) :: ·) ++ tails.map ((n, true) :: ·)

end Assignment

namespace TruthTable

/-- A row: an assignment and the value of the formula under it. -/
structure Row where
  assignment : Assignment
  result : Bool
  deriving DecidableEq

inductive Verdict
  | tautology
  | contradiction
  | contingent
  deriving DecidableEq

def Verdict.name : Verdict → String
  | tautology => "tautology"
  | contradiction => "contradiction"
  | contingent => "contingent"

/-- The most variables of a table, unless another limit is given. -/
def defaultLimit : Int := 16

def rows (f : Formula) : List Row :=
  (Assignment.all f.vars).map fun a => ⟨a, f.eval a.value⟩

/-- Why there is no table: what is wrong with the formula, or with a number of the message that says so. -/
inductive Fault
  | formula (e : FormulaError)
  | number (e : Text.NumberFault)
  deriving DecidableEq

def Fault.message : Fault → String
  | formula e => e.message
  | number e => e.message

/-- What is said of more variables than the limit. The message shows the limit and the rows that it stands for, which
are written first. -/
def tooMany (count : Nat) (limit : Int) : Fault :=
  match Text.writeInteger limit with
  | .error e => .number e
  | .ok _ => match Decimal.powerOfTwo limit with
    | .error e => .number e
    | .ok rows => .formula (.tooManyVariables count limit rows)

section Tables

variable [CallStack]

/-- The table of a formula, if it has no more variables than the limit. -/
def ofFormula (f : Formula) (limit : Int) : Except Fault (List Row) :=
  match f.walk Formula.vars with
  | .error e => .error (.formula e)
  | .ok names => if limit < names.length then .error (tooMany names.length limit) else .ok (rows f)

/-- The table of the formula that a text writes. -/
def read (text : String) (limit : Int) : Except Fault (List Row) :=
  match Formula.read text with
  | .ok f => ofFormula f limit
  | .error e => .error (.formula e)

end Tables

/-- The verdict of a table: true throughout, false throughout, or neither. A table without rows is
contingent. -/
def classify (rows : List Row) : Verdict :=
  if rows.isEmpty then .contingent
  else if rows.all (·.result) then .tautology
  else if rows.all (!·.result) then .contradiction
  else .contingent

end TruthTable

end Deduction
