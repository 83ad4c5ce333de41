/-
Drafts: formula trees as others hand them in, where something that is no formula may stand in the
place of a subtree. A draft is settled before it is used: read from left to right, it is a formula
or it has a first fault.
-/
import Deduction.Formula.Basic
import Deduction.Text.Quoted

namespace Deduction

/-- What may stand in the place of a formula without being one. -/
inductive Misfit
  | nothing
  | truth (value : Bool)
  | number (value : Int)
  | text (value : String)
  deriving Inhabited

inductive Draft
  | var (name : String)
  | top
  | bottom
  | neg (operand : Draft)
  | binary (op : Connective) (left right : Draft)
  | misfit (found : Misfit)
  deriving Inhabited

/-- Why a draft is no formula that can be walked. -/
inductive DraftFault
  | misfit (found : Misfit)
  | tooTall

def Misfit.shown : Misfit → String
  | nothing => "None"
  | truth b => if b then "True" else "False"
  | number n => toString n
  | text s => Text.quoted s

namespace Draft

/-- The formula that a draft is, or `none` if it holds a misfit. -/
def toFormula? : Draft → Option Formula
  | var n => some (.var n)
  | top => some .top
  | bottom => some .bottom
  | neg a => a.toFormula?.map .neg
  | binary op a b =>
    match a.toFormula?, b.toFormula? with
    | some f, some g => some (.binary op f g)
    | _, _ => none
  | misfit _ => none

/-- Reads a draft from left to right, no more than the given number of levels down. -/
def settleWithin : Nat → Draft → Except DraftFault Formula
  | 0, _ => .error .tooTall
  | _ + 1, misfit m => .error (.misfit m)
  | _ + 1, var n => .ok (.var n)
  | _ + 1, top => .ok .top
  | _ + 1, bottom => .ok .bottom
  | levels + 1, neg a =>
    match settleWithin levels a with
    | .error e => .error e
    | .ok f => .ok (.neg f)
  | levels + 1, binary op a b =>
    match settleWithin levels a with
    | .error e => .error e
    | .ok f => match settleWithin levels b with
      | .error e => .error e
      | .ok g => .ok (.binary op f g)

/-- The formula that a draft is, or the first fault that a walk over it meets. -/
def settle [CallStack] (d : Draft) : Except DraftFault Formula :=
  settleWithin CallStack.levels d

end Draft

end Deduction
