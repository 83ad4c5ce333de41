/-
Scopes of assumptions in a flat list of steps. A step is in an open scope as long as no step behind it
stands less deep (`InScope`), and then the assumptions that are open at it are, up to its depth, still the
last ones (`Grown.lastAssumption?_eq`), though the proof looks for an assumption by its depth only.
-/
import Deduction.Proofs.Proof.WellFormed

namespace Deduction

namespace Proof

/-! ## Open scopes -/

/-- The step of the number is in an open scope: no step behind it stands less deep. -/
def InScope (p : Proof) (i : Int) : Prop :=
  ∃ s ∈ p.step? i, ∀ t ∈ p.steps.dropWhile (·.id ≠ i), s.depth ≤ t.depth

instance (p : Proof) (i : Int) : Decidable (p.InScope i) :=
  inferInstanceAs (Decidable (∃ s ∈ p.step? i, ∀ t ∈ p.steps.dropWhile (·.id ≠ i), s.depth ≤ t.depth))

/-- A step in an open scope, with the steps in front of it and behind it. -/
theorem InScope.split {p : Proof} {i : Int} {s : Step} (h : p.InScope i) (hs : p.step? i = some s) :
    ∃ pre post, p.steps = pre ++ s :: post ∧ ∀ t ∈ post, s.depth ≤ t.depth := by
  obtain ⟨s', hs', hdeep⟩ := h
  cases hs.symm.trans hs'
  obtain ⟨hid, pre, post, hsteps, hpre⟩ := List.find?_eq_some_iff_append.1 hs
  refine ⟨pre, post, hsteps, fun t ht => hdeep t ?_⟩
  rw [hsteps, List.dropWhile_append_of_pos (by simpa using hpre), List.dropWhile_cons_of_neg (by simpa using hid)]
  exact List.mem_cons_of_mem s ht

/-! ## The last assumption of a depth -/

theorem lastAssumption?_concat (p : Proof) (steps : List Step) (s : Step) (k : Int) :
    (p.withSteps (steps ++ [s])).lastAssumption? k =
      if s.rule = .assume ∧ s.depth = k then some s else (p.withSteps steps).lastAssumption? k := by
  unfold lastAssumption?
  rw [withSteps_steps, withSteps_steps, List.reverse_concat, List.find?_cons]
  by_cases h : s.rule = .assume ∧ s.depth = k
  · rw [if_pos h]
    simp [h.1, h.2]
  · rw [if_neg h]
    have hno : (decide (s.rule = .assume) && decide (s.depth = k)) = false := by simpa using h
    rw [hno]

/-- A step that opens no scope of the depth leaves its last assumption. -/
theorem lastAssumption?_concat_of_not (p : Proof) (steps : List Step) {s : Step} {k : Int}
    (h : s.rule = .assume → s.depth ≠ k) :
    (p.withSteps (steps ++ [s])).lastAssumption? k = (p.withSteps steps).lastAssumption? k := by
  rw [lastAssumption?_concat, if_neg fun hs => h hs.1 hs.2]

theorem lastAssumption?_of_premises {p : Proof} (h : ∀ s ∈ p.steps, s.rule = .premise) (k : Int) :
    p.lastAssumption? k = none := by
  rw [Option.eq_none_iff_forall_ne_some]
  intro a ha
  obtain ⟨hmem, hrule, -⟩ := mem_of_lastAssumption? ha
  rw [h a hmem] at hrule
  cases hrule

/-- Where no step behind a step stands less deep than it, nor does the proof. -/
theorem le_withSteps_depth (p : Proof) (pre : List Step) {t : Step} {post : List Step}
    (h : ∀ u ∈ post, t.depth ≤ u.depth) : t.depth ≤ (p.withSteps (pre ++ t :: post)).depth := by
  rcases List.eq_nil_or_concat post with rfl | ⟨post, u, rfl⟩
  · exact Int.le_of_eq (withSteps_concat_depth p pre t).symm
  · rw [List.concat_eq_append, ← List.cons_append, ← List.append_assoc, withSteps_concat_depth]
    exact h u (by simp)

/-- While the scope of a step is open, the assumptions up to its depth stay the last ones: to make another
at such a depth, a proof would have to come up to a smaller depth first. -/
theorem Grown.lastAssumption?_eq [CallStack] {ok : Proof → Step → Prop} {p : Proof} {steps : List Step}
    (hg : Grown ok p steps) (hp : ∀ s ∈ p.steps, s.rule = .premise) {pre post : List Step} {t : Step}
    (hsteps : steps = pre ++ t :: post) (hpost : ∀ u ∈ post, t.depth ≤ u.depth) {k : Int} (hk : k ≤ t.depth) :
    (p.withSteps steps).lastAssumption? k = (p.withSteps (pre ++ [t])).lastAssumption? k := by
  induction hg generalizing post with
  | start =>
    have hpre : ∀ s ∈ pre ++ [t], s.rule = .premise := by
      intro s hs
      refine hp s ?_
      rw [hsteps]
      rcases List.mem_append.1 hs with hs | hs
      · exact List.mem_append_left _ hs
      · rw [List.mem_singleton.1 hs]
        simp
    rw [lastAssumption?_of_premises (p := p.withSteps p.steps) hp, lastAssumption?_of_premises hpre]
  | @step steps s hg hd hok ih =>
    rcases split_concat hsteps with ⟨rfl, rfl, rfl⟩ | ⟨post, rfl, hsteps'⟩
    · rfl
    · have hpost' : ∀ u ∈ post, t.depth ≤ u.depth := fun u hu => hpost u (by simp [hu])
      rw [lastAssumption?_concat_of_not p steps, ih hsteps' hpost']
      -- a new assumption stands below the proof, which stands no less deep than the step
      intro hs
      have hdeep := le_withSteps_depth p pre hpost'
      have hdepth := hd.depth_of_assume hs
      rw [← hsteps'] at hdeep
      omega

end Proof

end Deduction
