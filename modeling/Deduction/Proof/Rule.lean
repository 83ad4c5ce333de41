/-
The rules of natural deduction: every way in which a step can be justified, and the catalog of the
rules that can be chosen. A premise is a justification that cannot be chosen.
-/
import Deduction.Text.Quoted

namespace Deduction

inductive RuleId
  | premise
  | assume
  | modusPonens
  | modusTollens
  | andIntro
  | andElimLeft
  | andElimRight
  | orIntroLeft
  | orIntroRight
  | doubleNegation
  | impliesIntro
  deriving DecidableEq

namespace RuleId

def name : RuleId → String
  | premise => "premise"
  | assume => "assume"
  | modusPonens => "mp"
  | modusTollens => "mt"
  | andIntro => "and_intro"
  | andElimLeft => "and_elim_left"
  | andElimRight => "and_elim_right"
  | orIntroLeft => "or_intro_left"
  | orIntroRight => "or_intro_right"
  | doubleNegation => "double_neg"
  | impliesIntro => "impl_intro"

def all : List RuleId :=
  [premise, assume, modusPonens, modusTollens, andIntro, andElimLeft, andElimRight, orIntroLeft,
   orIntroRight, doubleNegation, impliesIntro]

def ofName? (name : String) : Option RuleId :=
  all.find? (·.name == name)

/-- Whether the rule reads a formula besides the steps it is applied to. -/
def readsFormula : RuleId → Bool
  | assume => true
  | orIntroLeft => true
  | orIntroRight => true
  | _ => false

end RuleId

/-- A rule with what its readers need to know of it. -/
structure Rule where
  id : RuleId
  name : String
  description : String
  category : String
  requiredSteps : Int
  deriving DecidableEq

namespace Rule

/-- The rules that can be chosen, in the order in which they are listed. -/
def catalog : List Rule :=
  [⟨.assume, "Assume", "Start an assumption (subproof)", "assumption", 0⟩,
   ⟨.modusPonens, "Modus Ponens", "From P and P→Q, derive Q", "basic", 2⟩,
   ⟨.modusTollens, "Modus Tollens", "From P→Q and ¬Q, derive ¬P", "basic", 2⟩,
   ⟨.andIntro, "∧ Introduction", "From P and Q, derive P∧Q", "introduction", 2⟩,
   ⟨.andElimLeft, "∧ Elimination (Left)", "From P∧Q, derive P", "elimination", 1⟩,
   ⟨.andElimRight, "∧ Elimination (Right)", "From P∧Q, derive Q", "elimination", 1⟩,
   ⟨.orIntroLeft, "∨ Introduction (Left)", "From P, derive P∨Q", "introduction", 1⟩,
   ⟨.orIntroRight, "∨ Introduction (Right)", "From Q, derive P∨Q", "introduction", 1⟩,
   ⟨.doubleNegation, "Double Negation", "From ¬¬P, derive P", "basic", 1⟩,
   ⟨.impliesIntro, "→ Introduction",
    "Close assumption: if you assumed P and derived Q, conclude P→Q", "introduction", 1⟩]

/-- Why a word names no rule of the catalog. -/
inductive LookupFault
  | unknown (word : String)
  | notSelectable (id : RuleId)
  deriving DecidableEq

def LookupFault.message : LookupFault → String
  | unknown word => Text.quoted word ++ " is not a valid RuleId"
  | notSelectable id => Text.quoted (id.name ++ " is not a selectable rule")

/-- The rule of the catalog with the given justification. -/
def ofId (id : RuleId) : Except LookupFault Rule :=
  match catalog.find? (·.id = id) with
  | some rule => .ok rule
  | none => .error (.notSelectable id)

/-- The rule of the catalog that a word names. -/
def ofName (word : String) : Except LookupFault Rule :=
  match RuleId.ofName? word with
  | some id => ofId id
  | none => .error (.unknown word)

def shown (rule : Rule) : String :=
  "Rule(" ++ rule.id.name ++ ")"

end Rule

end Deduction
