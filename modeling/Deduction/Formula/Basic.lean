/-
Formulas of propositional logic: their variables, their value under an assignment, and the number
of levels of their trees, of which the stack lets a walk go down so many.
-/

namespace Deduction

inductive Connective
  | and
  | or
  | implies
  | iff
  deriving DecidableEq

inductive Formula
  | var (name : String)
  | top
  | bottom
  | neg (operand : Formula)
  | binary (op : Connective) (left right : Formula)
  deriving DecidableEq

/-- The truth function of a connective. -/
def Connective.apply : Connective → Bool → Bool → Bool
  | .and, a, b => a && b
  | .or, a, b => a || b
  | .implies, a, b => !a || b
  | .iff, a, b => a == b

/-- Adds a name to a list in code point order, unless it is there. -/
def insertName (name : String) : List String → List String
  | [] => [name]
  | n :: rest =>
    if name < n then name :: n :: rest
    else if name = n then n :: rest
    else n :: insertName name rest

namespace Formula

/-- The value of a formula when each variable has the value that `v` gives it. -/
def eval (v : String → Bool) : Formula → Bool
  | var n => v n
  | top => true
  | bottom => false
  | neg a => !a.eval v
  | binary op a b => op.apply (a.eval v) (b.eval v)

/-- Adds the variables of a formula to a list of names in order. -/
def collectVars : Formula → List String → List String
  | var n, names => insertName n names
  | top, names => names
  | bottom, names => names
  | neg a, names => a.collectVars names
  | binary _ a b, names => b.collectVars (a.collectVars names)

/-- The variables of a formula, in code point order, each once. -/
def vars (f : Formula) : List String :=
  f.collectVars []

/-- The number of levels of the tree; an atom has one. -/
def height : Formula → Nat
  | neg a => a.height + 1
  | binary _ a b => max a.height b.height + 1
  | _ => 1

end Formula

/-- What is left of the stack when a tree is walked: how many levels the walk may go down. It is the caller's, as the
calls that are open take their part of it. -/
class CallStack where
  levels : Nat

/-- The stack of a program that has just been started. -/
@[reducible]
def CallStack.usual : CallStack :=
  ⟨950⟩

end Deduction
