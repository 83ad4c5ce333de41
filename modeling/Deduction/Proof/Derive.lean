/-
The rules at work. Each rule takes the steps that are selected, and a formula where it reads one,
and writes the formula of a new step; where it finds nothing to work on, it refuses.
-/
import Deduction.Formula.Parser
import Deduction.Proof.Basic

namespace Deduction

/-- Why a rule gives no step: the selection does not suit it, a text is no formula that it can use,
or the step it would give cannot be. -/
inductive Refusal
  | unsuited
  | formula (e : FormulaError)
  | step (e : StepFault)
  deriving DecidableEq

namespace Refusal

/-- The message of a refusal, of which one for want of a suitable selection has none. -/
def message? : Refusal → Option String
  | unsuited => none
  | formula e => some e.message
  | step e => some e.message

end Refusal

namespace Formula

/-- The formula that a text writes, for a rule that cannot go on without. -/
def needed (text : String) : Except Refusal Formula :=
  match read text with
  | .ok f => .ok f
  | .error e => .error (.formula e)

/-- The display text of a formula, for a rule that writes it into a step. -/
def written [CallStack] (f : Formula) : Except Refusal String :=
  match f.walk display with
  | .ok s => .ok s
  | .error e => .error (.formula e)

end Formula

namespace Proof

def newStep (p : Proof) (formula : String) (rule : RuleId) (dependencies : List Int)
    (justification : String) (depth : Int) : Except Refusal Step :=
  match Step.make p.nextId formula rule dependencies justification depth with
  | .ok s => .ok s
  | .error e => .error (.step e)

def selectOne (p : Proof) : List Int → Except Refusal (Int × Step)
  | [i] => match p.step? i with
    | some s => .ok (i, s)
    | none => .error .unsuited
  | _ => .error .unsuited

def selectTwo (p : Proof) : List Int → Except Refusal ((Int × Step) × (Int × Step))
  | [i, j] => match p.step? i, p.step? j with
    | some s, some t => .ok ((i, s), (j, t))
    | _, _ => .error .unsuited
  | _ => .error .unsuited

/-- The formula text that the user gave, trimmed; it must be there and be a formula. -/
def givenFormula (input : Option String) : Except Refusal String :=
  match input.map Text.trim with
  | none => .error .unsuited
  | some text =>
    if text.isEmpty then .error .unsuited
    else match Formula.needed text with
      | .ok _ => .ok text
      | .error e => .error e

/-- What a text in parentheses, a connective, and another text in parentheses write. -/
def combined (left : String) (op : Connective) (right : String) : String :=
  "(" ++ left ++ ") " ++ op.text ++ " (" ++ right ++ ")"

/-- The numbers of two steps in a justification. -/
def pairText (tag : String) (i : Int) (separator : String) (j : Int) : String :=
  tag ++ " (" ++ toString i ++ separator ++ toString j ++ ")"

/-- The number of one step in a justification. -/
def oneText (tag : String) (i : Int) : String :=
  tag ++ " (" ++ toString i ++ ")"

/-- Opens a scope with the formula that the user gave. -/
def assume (p : Proof) (input : Option String) : Except Refusal Step := do
  let text ← givenFormula input
  p.newStep text .assume [] "Assumption" (p.depth + 1)

/-- The consequent of a conditional, if the fact is loosely its antecedent. -/
def detach [CallStack] (fact conditional : Step) : Except Refusal (Option String) :=
  match Formula.read conditional.formula with
  | .ok (.binary .implies a c) => do
    let antecedent ← a.written
    if sameLoosely fact.formula antecedent then return some (← c.written) else return none
  | _ => .ok none

/-- Detaches the consequent of one of two steps, the second being tried first. -/
def modusPonens [CallStack] (p : Proof) (selected : List Int) : Except Refusal Step := do
  let ((i, a), (j, b)) ← p.selectTwo selected
  let consequent ← match ← detach a b with
    | some c => pure c
    | none => match ← detach b a with
      | some c => pure c
      | none => throw .unsuited
  p.newStep consequent .modusPonens [i, j] (pairText "MP" i ", " j) p.depth

def andIntro (p : Proof) (selected : List Int) : Except Refusal Step := do
  let ((i, a), (j, b)) ← p.selectTwo selected
  p.newStep (combined a.formula .and b.formula) .andIntro [i, j] (pairText "∧I" i ", " j) p.depth

def andElim [CallStack] (p : Proof) (selected : List Int) (rule : RuleId) (tag : String)
    (side : Formula → Formula → Formula) : Except Refusal Step := do
  let (i, s) ← p.selectOne selected
  match ← Formula.needed s.formula with
  | .binary .and a b =>
    let text ← (side a b).written
    p.newStep text rule [i] (oneText tag i) p.depth
  | _ => throw .unsuited

/-- Puts the formula that the user gave beside a step, in a disjunction. -/
def orIntro (p : Proof) (selected : List Int) (input : Option String) (rule : RuleId)
    (tag : String) (join : String → String → String) : Except Refusal Step := do
  let (i, s) ← p.selectOne selected
  let other ← givenFormula input
  p.newStep (join s.formula other) rule [i] (oneText tag i) p.depth

def doubleNegation [CallStack] (p : Proof) (selected : List Int) : Except Refusal Step := do
  let (i, s) ← p.selectOne selected
  match ← Formula.needed s.formula with
  | .neg (.neg a) =>
    let text ← a.written
    p.newStep text .doubleNegation [i] (oneText "DN" i) p.depth
  | _ => throw .unsuited

/-- The last assumption that was made at a depth. -/
def lastAssumption? (p : Proof) (depth : Int) : Option Step :=
  p.steps.reverse.find? fun s => s.rule = .assume && s.depth = depth

/-- Closes the innermost scope: what was assumed there implies the last step. -/
def impliesIntro (p : Proof) : Except Refusal Step :=
  if p.depth = 0 then .error .unsuited
  else match p.lastAssumption? p.depth, p.last? with
    | some a, some c =>
      if c.depth = p.depth then
        p.newStep (combined a.formula .implies c.formula) .impliesIntro [a.id, c.id]
          (pairText "→I" a.id "-" c.id) (p.depth - 1)
      else .error .unsuited
    | _, _ => .error .unsuited

/-- The step that a rule gives. Modus tollens is in the catalog and never gives one; a premise is
given by no rule. -/
def derive [CallStack] (p : Proof) (rule : RuleId) (selected : List Int) (input : Option String) :
    Except Refusal Step :=
  match rule with
  | .premise => .error .unsuited
  | .assume => p.assume input
  | .modusPonens => p.modusPonens selected
  | .modusTollens => .error .unsuited
  | .andIntro => p.andIntro selected
  | .andElimLeft => p.andElim selected .andElimLeft "∧E-L" fun a _ => a
  | .andElimRight => p.andElim selected .andElimRight "∧E-R" fun _ b => b
  | .orIntroLeft =>
    p.orIntro selected input .orIntroLeft "∨I-L" fun known other => combined known .or other
  | .orIntroRight =>
    p.orIntro selected input .orIntroRight "∨I-R" fun known other => combined other .or known
  | .doubleNegation => p.doubleNegation selected
  | .impliesIntro => p.impliesIntro

end Proof

end Deduction
