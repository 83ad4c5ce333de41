/-
Proofs in progress. A proof is a goal, the premises it starts from, and steps in order; every change
makes a new proof and leaves the old one as it was.
-/
import Deduction.Formula.LooseKey
import Deduction.Proof.Step

namespace Deduction

/-- A proof in progress. `depth` is the number of assumptions that are open at its end, and
`complete` records whether the goal was reached when that was last judged. -/
structure Proof where
  goal : String
  premises : List String
  steps : List Step
  depth : Int
  complete : Bool
  deriving DecidableEq

inductive AppendFault
  | unexpectedId (expected found : Int)
  | missingDependency (id dependency : Int)
  deriving DecidableEq

def AppendFault.message : AppendFault → String
  | unexpectedId expected found =>
    "expected step id " ++ toString expected ++ ", got " ++ toString found
  | missingDependency id d =>
    "step " ++ toString id ++ " depends on missing step " ++ toString d

namespace Proof

def last? (p : Proof) : Option Step :=
  p.steps.getLast?

def nextId (p : Proof) : Int :=
  p.steps.length + 1

/-- The first step with a number. -/
def step? (p : Proof) (id : Int) : Option Step :=
  p.steps.find? (·.id = id)

def atDepth (p : Proof) (depth : Int) : List Step :=
  p.steps.filter (·.depth = depth)

def dependents (p : Proof) (id : Int) : List Step :=
  p.steps.filter fun s => s.dependencies.contains id

/-- The proof with a step at its end, at the given depth, not yet judged. -/
def push (p : Proof) (s : Step) (depth : Int) : Proof :=
  { p with steps := p.steps ++ [s], depth := depth, complete := false }

/-- The proof with a step at its end, which must have the next number and depend on steps that are
there. -/
def append (p : Proof) (s : Step) (depth : Int) : Except AppendFault Proof :=
  if s.id ≠ p.nextId then .error (.unexpectedId p.nextId s.id)
  else match s.dependencies.find? fun d => (p.step? d).isNone with
    | some d => .error (.missingDependency s.id d)
    | none => .ok (p.push s depth)

/-- Whether the proof is done: no assumption is open and the last step is loosely the goal. -/
def reached (p : Proof) : Bool :=
  match p.last? with
  | none => false
  | some s => p.depth = 0 && sameLoosely s.formula p.goal

def judged (p : Proof) : Proof :=
  { p with complete := p.reached }

end Proof

end Deduction
