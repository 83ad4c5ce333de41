/-
The life of a proof: it starts from the premises of a knowledge base, grows by a step each time a
rule applies, and is cut back when a step is deleted. A step that others depend on stays, and so
does a premise.
-/
import Deduction.Catalog.KnowledgeBase
import Deduction.Proof.Derive

namespace Deduction

inductive StartFault
  | goal (e : FormulaError)
  | unknownKnowledgeBase (id : String)
  deriving DecidableEq

inductive Blocker
  | missing (id : Int)
  | premise
  | inUse (id : Int) (dependents : List Int)
  deriving DecidableEq

def Blocker.message : Blocker → String
  | missing id => "Step " ++ toString id ++ " does not exist"
  | premise => "Premises cannot be deleted"
  | inUse id dependents =>
    "Step " ++ toString id ++ " is used by step(s) "
      ++ Text.joinWith ", " (dependents.map toString)

namespace Proof

/-! ## Start -/

/-- The steps of premises, numbered from `n + 1` on. -/
def premiseSteps (n : Nat) : List String → List Step
  | [] => []
  | premise :: rest =>
    ⟨n + 1, premise, .premise, [], "Premise", 0, by omega, by omega, by simp⟩
      :: premiseSteps (n + 1) rest

/-- A proof of a goal from premises, with a step for each. -/
def ofPremises (goal : String) (premises : List String) : Proof :=
  judged ⟨goal, premises, premiseSteps 0 premises, 0, false⟩

/-- A proof of a goal, which must be a formula, from premises. -/
def startWith (goal : String) (premises : List String) : Except FormulaError Proof :=
  match Formula.read goal with
  | .ok _ => .ok (ofPremises goal premises)
  | .error e => .error e

/-- A proof of a goal from the premises of the knowledge base of a name, or from none. The goal is
judged first. -/
def start (goal : String) (kb : Option String) : Except StartFault Proof :=
  match Formula.read goal with
  | .error e => .error (.goal e)
  | .ok _ => match kb with
    | none => .ok (ofPremises goal [])
    | some id => match KnowledgeBase.ofId? id with
      | some kb => .ok (ofPremises goal kb.premises)
      | none => .error (.unknownKnowledgeBase id)

/-! ## Extension -/

/-- The depth behind a new step: that of the step if the rule opens or closes a scope. -/
def depthAfter (p : Proof) (rule : RuleId) (s : Step) : Int :=
  match rule with
  | .assume => s.depth
  | .impliesIntro => s.depth
  | _ => p.depth

def extend [CallStack] (p : Proof) (rule : RuleId) (selected : List Int) (input : Option String) :
    Except Refusal Proof :=
  match p.derive rule selected input with
  | .ok s => .ok (p.push s (p.depthAfter rule s)).judged
  | .error e => .error e

/-! ## Deletion -/

/-- What keeps a step from being deleted, if anything does. -/
def blocker? (p : Proof) (id : Int) : Option Blocker :=
  match p.step? id with
  | none => some (.missing id)
  | some s =>
    if s.rule = .premise then some .premise
    else match p.dependents id with
      | [] => none
      | users => some (.inUse id (users.map (·.id)))

/-- The proof up to the first step with a number. -/
def before (p : Proof) (id : Int) : Proof :=
  let kept := p.steps.takeWhile fun s => s.id ≠ id
  { p with steps := kept, depth := (kept.getLast?.map (·.depth)).getD 0, complete := false }

/-- The proof without a step and all steps behind it, unless something keeps the step. -/
def delete (p : Proof) (id : Int) : Except Blocker Proof :=
  match p.blocker? id with
  | some blocker => .error blocker
  | none => .ok (p.before id).judged

end Proof

end Deduction
