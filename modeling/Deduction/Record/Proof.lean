/-
Proofs as plain records. Writing a proof and reading it back gives the same proof; reading fills in
what a record leaves out and stops at the first fault, in the order in which a record is read.
-/
import Deduction.Proof.Basic
import Deduction.Record.Value

namespace Deduction

open Record

inductive StepReadFault
  | shape (e : ShapeFault)
  | unknownRule (word : String)
  | step (e : StepFault)
  deriving DecidableEq

namespace Step

def toRecord (s : Step) : Value :=
  .dict
    [("id", .number s.id), ("formula", .text s.formula), ("rule_id", .text s.rule.name),
     ("dependencies", .list (s.dependencies.map .number)),
     ("justification", .text s.justification), ("depth", .number s.depth)]

def part {α : Type} (found : Except ShapeFault α) : Except StepReadFault α :=
  match found with
  | .ok a => .ok a
  | .error e => .error (.shape e)

/-- Reads a step: number, formula and rule must be there, the rule must be known, and the parts
must make a step. -/
def ofRecord (v : Value) : Except StepReadFault Step := do
  let id ← part (v.required "id" Value.asNumber?)
  let formula ← part (v.required "formula" Value.asText?)
  let word ← part (v.required "rule_id" Value.asText?)
  let rule ← match RuleId.ofName? word with
    | some rule => pure rule
    | none => throw (.unknownRule word)
  let dependencies ← part (v.optional "dependencies" Value.asNumbers? [])
  let justification ← part (v.optional "justification" Value.asText? "")
  let depth ← part (v.optional "depth" Value.asNumber? 0)
  match make id formula rule dependencies justification depth with
  | .ok s => pure s
  | .error e => throw (.step e)

end Step

namespace Proof

def toRecord (p : Proof) : Value :=
  .dict
    [("goal", .text p.goal), ("premises", .list (p.premises.map .text)),
     ("steps", .list (p.steps.map Step.toRecord)), ("current_depth", .number p.depth),
     ("is_complete", .truth p.complete)]

/-- Reads a proof: only the goal must be there. -/
def ofRecord (v : Value) : Except StepReadFault Proof := do
  let goal ← Step.part (v.required "goal" Value.asText?)
  let premises ← Step.part (v.optional "premises" Value.asTexts? [])
  let records ← Step.part (v.optional "steps" Value.asList? [])
  let steps ← records.mapM Step.ofRecord
  let depth ← Step.part (v.optional "current_depth" Value.asNumber? 0)
  let complete ← Step.part (v.optional "is_complete" Value.asTruth? false)
  return ⟨goal, premises, steps, depth, complete⟩

end Proof

end Deduction
