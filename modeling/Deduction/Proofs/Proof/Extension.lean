/-
Extension is total. In any proof, however it was made, a rule either gives no step, and then nothing is added,
or gives one that can be put behind the others (`extend_total`): the checks that `append` makes on a step before
it goes in never fail on a step that a rule gave (`append_of_derived`), even where several steps share a number
or the depth of the proof is not that of its steps.
-/
import Deduction.Proofs.Proof.Derivation

namespace Deduction

namespace Proof

/-- The proof is another one with a step more at its end. The step has the next number, cites steps that were
there before, by smaller numbers, and stands at the depth that the new proof has; whether that one is complete
is judged anew. -/
structure ExtendedBy (p : Proof) (s : Step) (q : Proof) : Prop where
  goal : q.goal = p.goal
  premises : q.premises = p.premises
  steps : q.steps = p.steps ++ [s]
  id : s.id = p.steps.length + 1
  cited : ∀ d ∈ s.dependencies, d < s.id ∧ ∃ a ∈ p.steps, a.id = d
  depth : q.depth = s.depth
  depth_nonneg : 0 ≤ q.depth
  complete : q.complete = q.reached

/-! ## The checks on a step -/

theorem step?_isSome_iff {p : Proof} {i : Int} : (p.step? i).isSome ↔ ∃ a ∈ p.steps, a.id = i := by
  unfold step?
  rw [List.find?_isSome]
  simp only [decide_eq_true_eq]

/-- A step is put at the end of a proof if it has the next number and cites steps of the proof. -/
theorem append_ok_iff {p : Proof} {s : Step} {depth : Int} {q : Proof} :
    p.append s depth = .ok q ↔
      s.id = p.nextId ∧ (∀ d ∈ s.dependencies, ∃ a ∈ p.steps, a.id = d) ∧ q = p.push s depth := by
  have hcited : s.dependencies.find? (fun d => (p.step? d).isNone) = none ↔
      ∀ d ∈ s.dependencies, ∃ a ∈ p.steps, a.id = d := by
    simp only [List.find?_eq_none, Bool.not_eq_true, Option.isNone_eq_false_iff, step?_isSome_iff]
  unfold append
  by_cases hid : s.id = p.nextId
  · rw [if_neg (fun h => h hid), ← hcited]
    rcases s.dependencies.find? (fun d => (p.step? d).isNone) with _ | d
    · constructor
      · intro h
        cases h
        exact ⟨hid, rfl, rfl⟩
      · rintro ⟨-, -, rfl⟩
        rfl
    · constructor
      · intro h
        cases h
      · rintro ⟨-, h, -⟩
        cases h
  · rw [if_pos hid]
    constructor
    · intro h
      cases h
    · intro h
      exact absurd h.1 hid

theorem append_of_derived [CallStack] {p : Proof} {s : Step} (h : p.Derived s) (depth : Int) :
    p.append s depth = .ok (p.push s depth) :=
  append_ok_iff.2 ⟨h.frame.1, h.frame.2.2, rfl⟩

/-! ## Extension -/

theorem Derived.extendedBy [CallStack] {p : Proof} {s : Step} (h : p.Derived s) :
    p.ExtendedBy s (p.push s s.depth).judged where
  goal := rfl
  premises := rfl
  steps := rfl
  id := h.frame.1
  cited d hd := ⟨s.dependencies_lt d hd, h.frame.2.2 d hd⟩
  depth := rfl
  depth_nonneg := s.depth_nonneg
  complete := rfl

/-- A rule that gives no step leaves nothing to add, and one that gives a step extends the proof by it: the step
passes the checks of `append`. -/
theorem extend_total [CallStack] (p : Proof) (rule : Rule) (selected : List Int) (input : Option String) :
    (∃ e, p.derive rule.id selected input = .error e ∧ p.extend rule.id selected input = .error e) ∨
      ∃ s q, p.derive rule.id selected input = .ok s ∧ p.append s (p.depthAfter rule.id s) = .ok q ∧
        p.extend rule.id selected input = .ok q.judged ∧ p.ExtendedBy s q.judged := by
  rcases hd : p.derive rule.id selected input with e | s
  · refine .inl ⟨e, rfl, ?_⟩
    unfold extend
    rw [hd]
  · obtain ⟨h, hrule⟩ := derived_of_derive hd
    have hdepth : p.depthAfter rule.id s = s.depth := hrule ▸ h.depthAfter_eq
    refine .inr ⟨s, p.push s s.depth, rfl, ?_, ?_, h.extendedBy⟩
    · rw [hdepth]
      exact append_of_derived h s.depth
    · unfold extend
      rw [hd, ← hdepth]

end Proof

end Deduction
