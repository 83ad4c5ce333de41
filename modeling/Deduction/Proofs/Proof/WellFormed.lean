/-
What holds of a proof at all times, however it was changed since it was started (`wellFormed_after`): its
steps are numbered from one, each rests on steps in front of it, the premises of the knowledge base come
first and nowhere else, and depth and completeness are those that the steps ask for.
-/
import Deduction.Proofs.Proof.Growth

namespace Deduction

/-- The premises that a proof starts from. -/
def KnowledgeBase.premisesOf (kb : Option String) : List String :=
  ((kb.bind ofId?).map (·.premises)).getD []

namespace Proof

/-! ## Start -/

theorem premiseSteps_length (n : Nat) (premises : List String) :
    (premiseSteps n premises).length = premises.length := by
  induction premises generalizing n with
  | nil => rfl
  | cons t rest ih =>
    show (premiseSteps (n + 1) rest).length + 1 = rest.length + 1
    rw [ih]

/-- The steps of premises are numbered in order, cite nothing and stand in no scope. -/
theorem premiseSteps_getElem? {n : Nat} {premises : List String} {i : Nat} {s : Step}
    (h : (premiseSteps n premises)[i]? = some s) :
    s.id = n + i + 1 ∧ premises[i]? = some s.formula ∧ s.rule = .premise ∧ s.dependencies = [] ∧ s.depth = 0 := by
  induction premises generalizing n i with
  | nil => cases h
  | cons t rest ih =>
    rcases i with _ | i
    · cases h
      exact ⟨by simp, rfl, rfl, rfl, rfl⟩
    · obtain ⟨hid, hrest⟩ := ih (n := n + 1) (i := i) h
      exact ⟨by rw [hid]; push_cast; omega, hrest⟩

theorem premiseSteps_mem {n : Nat} {premises : List String} {s : Step} (h : s ∈ premiseSteps n premises) :
    s.formula ∈ premises ∧ s.rule = .premise ∧ s.dependencies = [] ∧ s.depth = 0 := by
  obtain ⟨i, hi⟩ := List.mem_iff_getElem?.1 h
  obtain ⟨-, hformula, hrest⟩ := premiseSteps_getElem? hi
  exact ⟨List.mem_of_getElem? hformula, hrest⟩

@[simp] theorem ofPremises_steps (goal : String) (premises : List String) :
    (ofPremises goal premises).steps = premiseSteps 0 premises := rfl

/-- A start has the steps of its premises only, and stands at depth zero. -/
theorem ofPremises_withSteps (goal : String) (premises : List String) :
    (ofPremises goal premises).withSteps (ofPremises goal premises).steps = ofPremises goal premises := by
  have hdepth : ((premiseSteps 0 premises).getLast?.map (·.depth)).getD 0 = 0 := by
    rcases hlast : (premiseSteps 0 premises).getLast? with _ | s
    · rfl
    · exact (premiseSteps_mem (List.mem_of_getLast? hlast)).2.2.2
  unfold withSteps
  rw [ofPremises_steps, hdepth]
  rfl

/-- A proof that is started has the goal, which is a formula, and the premises of its knowledge base. -/
theorem start_ok {goal : String} {kb : Option String} {p : Proof} (h : start goal kb = .ok p) :
    (∃ g, Formula.read goal = .ok g) ∧ p = ofPremises goal (KnowledgeBase.premisesOf kb) := by
  unfold start at h
  split at h
  · cases h
  · rename_i g hg
    refine ⟨⟨g, hg⟩, ?_⟩
    unfold KnowledgeBase.premisesOf
    split at h
    · cases h; rfl
    · rename_i id
      split at h
      · rename_i kb hkb
        cases h
        rw [Option.bind_some, hkb]
        rfl
      · cases h

theorem start_steps {goal : String} {kb : Option String} {p : Proof} (h : start goal kb = .ok p) :
    ∀ s ∈ p.steps, s.formula ∈ p.premises ∧ s.rule = .premise ∧ s.dependencies = [] := by
  obtain ⟨-, rfl⟩ := start_ok h
  intro s hs
  obtain ⟨hformula, hrule, hdeps, -⟩ := premiseSteps_mem hs
  exact ⟨hformula, hrule, hdeps⟩

theorem start_numbered {goal : String} {kb : Option String} {p : Proof} (h : start goal kb = .ok p) :
    ∀ (i : Nat) (s : Step), p.steps[i]? = some s → s.id = i + 1 := by
  obtain ⟨-, rfl⟩ := start_ok h
  intro i s hs
  simpa using (premiseSteps_getElem? hs).1

/-- However a proof is changed since its start, it is the start grown by steps that rules give. -/
theorem grown_of_start [CallStack] {ok : Proof → Step → Prop} {goal : String} {kb : Option String} {p : Proof}
    (h : start goal kb = .ok p) {changes : List Change} (hok : Throughout ok p changes) :
    ∃ steps, p.after changes = p.withSteps steps ∧ Grown ok p steps := by
  obtain ⟨-, rfl⟩ := start_ok h
  have hgrown := grown_after (fun s hs => (premiseSteps_mem hs).2.1) .start
    (by rw [ofPremises_withSteps]; exact hok)
  rw [ofPremises_withSteps] at hgrown
  exact hgrown

/-! ## Numbers and dependencies -/

theorem getElem?_concat {α : Type} {l : List α} {a b : α} {i : Nat} (h : (l ++ [a])[i]? = some b) :
    l[i]? = some b ∨ i = l.length ∧ b = a := by
  rw [List.getElem?_append] at h
  split at h
  · exact .inl h
  · rw [List.getElem?_singleton] at h
    split at h
    · cases h
      exact .inr ⟨by omega, rfl⟩
    · cases h

section Numbered

variable {p : Proof} {pre post : List Step} {t : Step}

theorem id_of_numbered (hp : ∀ (i : Nat) (s : Step), p.steps[i]? = some s → s.id = i + 1)
    (hsteps : p.steps = pre ++ t :: post) : t.id = pre.length + 1 :=
  hp pre.length t (by rw [hsteps]; simp)

theorem id_lt_of_numbered (hp : ∀ (i : Nat) (s : Step), p.steps[i]? = some s → s.id = i + 1)
    (hsteps : p.steps = pre ++ t :: post) : ∀ u ∈ pre, u.id < t.id := by
  intro u hu
  obtain ⟨j, hj⟩ := List.mem_iff_getElem?.1 hu
  have hlt : j < pre.length := (List.getElem?_eq_some_iff.1 hj).1
  have hju : u.id = j + 1 := hp j u (by rw [hsteps, List.getElem?_append_left hlt, hj])
  rw [hju, id_of_numbered hp hsteps]
  omega

/-- With steps that are numbered in order, a number finds its step. -/
theorem step?_of_numbered (hp : ∀ (i : Nat) (s : Step), p.steps[i]? = some s → s.id = i + 1)
    (hsteps : p.steps = pre ++ t :: post) : p.step? t.id = some t := by
  unfold step?
  rw [List.find?_eq_some_iff_append]
  refine ⟨by simp, pre, post, hsteps, fun u hu => ?_⟩
  have hlt := id_lt_of_numbered hp hsteps u hu
  simp only [Bool.not_eq_true', decide_eq_false_iff_not]
  omega

theorem before_steps (hp : ∀ (i : Nat) (s : Step), p.steps[i]? = some s → s.id = i + 1)
    (hsteps : p.steps = pre ++ t :: post) : (p.before t.id).steps = pre := by
  have hpre : ∀ u ∈ pre, decide (u.id ≠ t.id) = true := fun u hu =>
    decide_eq_true (Int.ne_of_lt (id_lt_of_numbered hp hsteps u hu))
  show p.steps.takeWhile (fun u => u.id ≠ t.id) = pre
  rw [hsteps, List.takeWhile_append_of_pos hpre, List.takeWhile_cons_of_neg (by simp), List.append_nil]

end Numbered

namespace Grown

variable [CallStack] {ok : Proof → Step → Prop} {p : Proof} {steps : List Step}

/-- Steps that are added get the next number, so the numbers go on as they began. -/
theorem numbered (h : Grown ok p steps) (hp : ∀ (i : Nat) (s : Step), p.steps[i]? = some s → s.id = i + 1) :
    ∀ (i : Nat) (s : Step), steps[i]? = some s → s.id = i + 1 := by
  induction h with
  | start => exact hp
  | step hg hd hok ih =>
    intro i s hs
    rcases getElem?_concat hs with hs | ⟨rfl, rfl⟩
    · exact ih i s hs
    · exact hd.frame.1

theorem grounded (h : Grown ok p steps) (hp : ∀ s ∈ p.steps, s.dependencies = []) :
    ∀ (i : Nat) (s : Step), steps[i]? = some s → ∀ d ∈ s.dependencies,
      ∃ j t, j < i ∧ steps[j]? = some t ∧ t.id = d := by
  induction h with
  | start =>
    intro i s hs d hd
    rw [hp s (List.mem_of_getElem? hs)] at hd
    cases hd
  | @step steps s hg hd hok ih =>
    intro i t ht d hdt
    rcases getElem?_concat ht with ht | ⟨rfl, rfl⟩
    · obtain ⟨j, u, hj, hu, hid⟩ := ih i t ht d hdt
      exact ⟨j, u, hj, List.getElem?_append_left (List.getElem?_eq_some_iff.1 hu).1 ▸ hu, hid⟩
    -- the new step stands behind all steps that it can cite
    · obtain ⟨u, hu, hid⟩ := hd.frame.2.2 d hdt
      obtain ⟨j, hj⟩ := List.mem_iff_getElem?.1 hu
      have hlt : j < steps.length := (List.getElem?_eq_some_iff.1 hj).1
      exact ⟨j, u, hlt, List.getElem?_append_left hlt ▸ hj, hid⟩

theorem premises_first (h : Grown ok p steps) :
    ∃ more, steps = p.steps ++ more ∧ ∀ s ∈ more, s.rule ≠ .premise := by
  induction h with
  | start => exact ⟨[], (List.append_nil _).symm, by simp⟩
  | @step steps s hg hd hok ih =>
    obtain ⟨more, rfl, hmore⟩ := ih
    refine ⟨more ++ [s], List.append_assoc .., fun t ht => ?_⟩
    rcases List.mem_append.1 ht with ht | ht
    · exact hmore t ht
    · obtain rfl := List.mem_singleton.1 ht
      exact hd.frame.2.1

end Grown

/-! ## Well-formed proofs -/

/-- What holds of a proof of a goal from premises at all times. -/
structure WellFormed (goal : String) (premises : List String) (p : Proof) : Prop where
  numbered : ∀ (i : Nat) (s : Step), p.steps[i]? = some s → s.id = i + 1
  grounded : ∀ (i : Nat) (s : Step), p.steps[i]? = some s → ∀ d ∈ s.dependencies,
    ∃ j t, j < i ∧ p.steps[j]? = some t ∧ t.id = d
  premises_first : (p.steps.take premises.length).map (fun s => (s.formula, s.rule, s.depth)) =
    premises.map fun t => (t, .premise, 0)
  premises_only : ∀ s ∈ p.steps.drop premises.length, s.rule ≠ .premise
  depth_eq : p.depth = (p.last?.map (·.depth)).getD 0
  complete_eq : p.complete = p.reached
  goal_eq : p.goal = goal
  premises_eq : p.premises = premises

namespace WellFormed

variable {goal : String} {premises : List String} {p : Proof}

/-- The number of a step finds it, and is smaller than the next one. -/
theorem found (h : p.WellFormed goal premises) {s : Step} (hs : s ∈ p.steps) :
    p.step? s.id = some s ∧ s.id < p.nextId := by
  obtain ⟨pre, post, hsteps⟩ := List.append_of_mem hs
  refine ⟨step?_of_numbered h.numbered hsteps, ?_⟩
  rw [id_of_numbered h.numbered hsteps, nextId, hsteps, List.length_append, List.length_cons]
  omega

theorem depth_nonneg (h : p.WellFormed goal premises) : 0 ≤ p.depth := by
  rw [h.depth_eq]
  rcases p.last? with _ | s
  · exact Int.le_refl 0
  · exact s.depth_nonneg

end WellFormed

theorem premiseSteps_map (n : Nat) (premises : List String) :
    (premiseSteps n premises).map (fun s => (s.formula, s.rule, s.depth)) =
      premises.map fun t => (t, .premise, 0) := by
  induction premises generalizing n with
  | nil => rfl
  | cons t rest ih =>
    rw [List.map_cons, ← ih (n + 1)]
    rfl

/-- What a proof of premises can grow to is well formed. -/
theorem Grown.wellFormed [CallStack] {ok : Proof → Step → Prop} {goal : String} {premises : List String}
    {steps : List Step} (h : Grown ok (ofPremises goal premises) steps) :
    ((ofPremises goal premises).withSteps steps).WellFormed goal premises where
  numbered := h.numbered fun i s hs => by simpa using (premiseSteps_getElem? hs).1
  grounded := h.grounded fun s hs => (premiseSteps_mem hs).2.2.1
  premises_first := by
    obtain ⟨more, hmore, -⟩ := h.premises_first
    rw [withSteps_steps, hmore, ofPremises_steps, List.take_left' (premiseSteps_length ..)]
    exact premiseSteps_map ..
  premises_only := by
    obtain ⟨more, hmore, hrules⟩ := h.premises_first
    rw [withSteps_steps, hmore, ofPremises_steps, List.drop_left' (premiseSteps_length ..)]
    exact hrules
  depth_eq := rfl
  complete_eq := rfl
  goal_eq := rfl
  premises_eq := rfl

/-- However a proof was changed since it was started, it is well formed, and its goal and premises are those
of its start. -/
theorem wellFormed_after [CallStack] (goal : String) (kb : Option String) (p : Proof)
    (h : start goal kb = .ok p) (changes : List Change) :
    (p.after changes).WellFormed goal (KnowledgeBase.premisesOf kb) := by
  obtain ⟨steps, hq, hg⟩ := grown_of_start h (throughout_true p changes)
  obtain ⟨-, rfl⟩ := start_ok h
  rw [hq]
  exact hg.wellFormed

attribute [local instance] CallStack.usual

/-- An assumption is deleted while the scope around it stays open, and the proof goes on from there. -/
theorem wellFormed_after_deletion :
    ∃ p, start "r -> q" (some "modus-ponens") = .ok p ∧
      (p.after [.extend .assume [] (some "r"), .extend .assume [] (some "s"), .delete 4,
        .extend .modusPonens [1, 2] none, .extend .impliesIntro [] none]).steps.map (·.id) = [1, 2, 3, 4, 5] ∧
      (p.after [.extend .assume [] (some "r"), .extend .assume [] (some "s"), .delete 4,
        .extend .modusPonens [1, 2] none, .extend .impliesIntro [] none]).WellFormed "r -> q" ["p", "p -> q"] :=
  ⟨_, rfl, by decide +kernel, wellFormed_after "r -> q" (some "modus-ponens") _ rfl _⟩

end Proof

end Deduction
