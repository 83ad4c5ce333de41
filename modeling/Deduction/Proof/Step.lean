/-
Steps: the justified lines of a proof. A step has a positive number, depends on steps of smaller
numbers only, and stands at the depth of the assumptions that are open there.
-/
import Deduction.Proof.Rule
import Deduction.Text.Quoted

namespace Deduction

structure Step where
  id : Int
  formula : String
  rule : RuleId
  dependencies : List Int
  justification : String
  depth : Int
  id_pos : 1 ≤ id
  depth_nonneg : 0 ≤ depth
  dependencies_lt : ∀ d ∈ dependencies, d < id
  deriving DecidableEq

inductive StepFault
  | idNotPositive (id : Int)
  | depthNegative (depth : Int)
  | dependsOnLater (id dependency : Int)
  deriving DecidableEq

def StepFault.message : StepFault → String
  | idNotPositive id => "step id must be positive, got " ++ toString id
  | depthNegative depth => "step depth must be non-negative, got " ++ toString depth
  | dependsOnLater id d =>
    "step " ++ toString id ++ " cannot depend on later step " ++ toString d

namespace Step

/-- The first dependency that is no smaller than the number of the step. -/
def laterDependency? (id : Int) (dependencies : List Int) : Option Int :=
  dependencies.find? fun d => id ≤ d

/-- A step of the given parts, whose number is judged first, then its depth, then its dependencies
in order. -/
def make (id : Int) (formula : String) (rule : RuleId) (dependencies : List Int)
    (justification : String) (depth : Int) : Except StepFault Step :=
  if hid : 1 ≤ id then
    if hdepth : 0 ≤ depth then
      if hdeps : ∀ d ∈ dependencies, d < id then
        .ok ⟨id, formula, rule, dependencies, justification, depth, hid, hdepth, hdeps⟩
      else .error (.dependsOnLater id ((laterDependency? id dependencies).getD id))
    else .error (.depthNegative depth)
  else .error (.idNotPositive id)

/-- A step in short: its number and its formula. -/
def name (s : Step) : String :=
  toString s.id ++ ". " ++ s.formula

def shown (s : Step) : String :=
  "ProofStep(" ++ toString s.id ++ ": " ++ Text.quoted s.formula ++ " [" ++ s.justification
    ++ "] d=" ++ toString s.depth ++ ")"

end Step

end Deduction
