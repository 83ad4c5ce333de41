/-
Applicability: whether a rule can be tried at all in a proof, judged by the open assumptions and the
number of steps in the innermost scope. Whether a selection suits the rule shows when it is applied.
-/
import Deduction.Proof.Basic

namespace Deduction

inductive Obstacle
  | noOpenAssumption
  | tooFewSteps (needed : Int) (found : Nat)
  deriving DecidableEq

def Obstacle.message : Obstacle → String
  | noOpenAssumption => "no open assumption to close"
  | tooFewSteps needed found =>
    "Need at least " ++ toString needed ++ " step(s) at current depth (have " ++ toString found
      ++ ")"

namespace Proof

/-- What keeps a rule from being tried, if anything does. -/
def obstacle? (p : Proof) (rule : Rule) : Option Obstacle :=
  match rule.id with
  | .assume => none
  | .impliesIntro => if 0 < p.depth then none else some .noOpenAssumption
  | _ =>
    let found := (p.atDepth p.depth).length
    if found < rule.requiredSteps then some (.tooFewSteps rule.requiredSteps found) else none

/-- Every rule of the catalog with what keeps it from being tried. -/
def obstacles (p : Proof) : List (Rule × Option Obstacle) :=
  Rule.catalog.map fun rule => (rule, p.obstacle? rule)

end Proof

end Deduction
