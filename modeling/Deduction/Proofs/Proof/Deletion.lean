/-
Deletion undoes extension. How deep a proof is and whether it is complete is at all times read off from its
steps, so a proof that is cut back to the steps that it had before one was added is the proof that it was then,
whatever happened behind that step (`delete_undoes_extend`). The step can be deleted unless another one cites
it.
-/
import Deduction.Proofs.Proof.WellFormed

namespace Deduction

namespace Proof

/-! ## Deletion by number -/

/-- With steps that are numbered in order, one that is no premise is deleted, together with all steps behind it,
exactly when no step cites it. -/
theorem delete_of_numbered {p : Proof} {pre post : List Step} {t : Step}
    (hp : ∀ (i : Nat) (s : Step), (pre ++ t :: post)[i]? = some s → s.id = i + 1) (ht : t.rule ≠ .premise)
    (q : Proof) :
    (p.withSteps (pre ++ t :: post)).delete t.id = .ok q ↔
      (∀ s ∈ pre ++ t :: post, t.id ∉ s.dependencies) ∧ q = p.withSteps pre := by
  have hfind : (p.withSteps (pre ++ t :: post)).step? t.id = some t := step?_of_numbered hp rfl
  have hcut : ((p.withSteps (pre ++ t :: post)).before t.id).judged = p.withSteps pre := by
    rw [before_judged]
    exact congrArg p.withSteps (before_steps (p := p.withSteps (pre ++ t :: post)) hp rfl)
  have hfree : (p.withSteps (pre ++ t :: post)).dependents t.id = [] ↔
      ∀ s ∈ pre ++ t :: post, t.id ∉ s.dependencies := by
    rw [dependents, List.filter_eq_nil_iff, withSteps_steps]
    simp only [List.contains_iff_mem]
  rw [← hfree]
  unfold delete blocker?
  rw [hfind]
  dsimp only
  rw [if_neg ht, hcut]
  rcases (p.withSteps (pre ++ t :: post)).dependents t.id with _ | ⟨u, users⟩
  · constructor
    · intro h
      cases h
      exact ⟨rfl, rfl⟩
    · rintro ⟨-, rfl⟩
      rfl
  · constructor
    · intro h
      cases h
    · rintro ⟨h, -⟩
      cases h

/-! ## Changes that spare a step -/

/-- The change deletes no step with a number up to `k`: if it asks for that, it is refused. -/
def SparedBy (k : Int) (p : Proof) : Change → Prop
  | .extend _ _ _ => True
  | .delete id => id ≤ k → (p.delete id).isOk = false

instance (k : Int) (p : Proof) : ∀ c : Change, Decidable (p.SparedBy k c)
  | .extend _ _ _ => .isTrue trivial
  | .delete id => inferInstanceAs (Decidable (id ≤ k → (p.delete id).isOk = false))

/-- None of the changes deletes a step with a number up to `k`. -/
def Spares [CallStack] (k : Int) (p : Proof) : List Change → Prop
  | [] => True
  | c :: rest => p.SparedBy k c ∧ Spares k (p.change c) rest

instance decidableSpares [CallStack] (k : Int) : ∀ (p : Proof) (changes : List Change), Decidable (Spares k p changes)
  | _, [] => .isTrue trivial
  | p, c :: rest => have := decidableSpares k (p.change c) rest
    inferInstanceAs (Decidable (p.SparedBy k c ∧ Spares k (p.change c) rest))

section Spared

variable [CallStack] {p : Proof} {pre post : List Step} {t : Step}

/-- A change that spares a step adds a step behind it, or takes some away from behind it. -/
theorem Grown.change_spared (hp : ∀ s ∈ p.steps, s.rule = .premise)
    (hnum : ∀ (i : Nat) (s : Step), p.steps[i]? = some s → s.id = i + 1)
    (hg : Grown (fun _ _ => True) p (pre ++ t :: post)) {c : Change}
    (h : (p.withSteps (pre ++ t :: post)).SparedBy t.id c) :
    ∃ post', (p.withSteps (pre ++ t :: post)).change c = p.withSteps (pre ++ t :: post') ∧
      Grown (fun _ _ => True) p (pre ++ t :: post') := by
  cases c with
  | extend rule selected input =>
    unfold change
    dsimp only
    rcases hq : (p.withSteps (pre ++ t :: post)).extend rule selected input with e | q
    · exact ⟨post, rfl, hg⟩
    · obtain ⟨s, -, hd, rfl⟩ := extend_ok hq
      have hmore : pre ++ t :: post ++ [s] = pre ++ t :: (post ++ [s]) := by simp
      exact ⟨post ++ [s], by rw [← hmore]; rfl, hmore ▸ hg.step hd trivial⟩
  | delete id =>
    unfold change
    dsimp only
    rcases hq : (p.withSteps (pre ++ t :: post)).delete id with e | q
    · exact ⟨post, rfl, hg⟩
    · obtain ⟨kept, s, rest, hsteps, rfl, hrule, rfl⟩ := delete_ok hq
      -- the step that is deleted has a greater number, so it stands behind the one that is spared
      have hlater : t.id < s.id := Int.not_le.1 fun hle => by
        have hrefused := h hle
        rw [hq] at hrefused
        cases hrefused
      have hnum' := hg.numbered hnum
      have hs : s.id = kept.length + 1 := hnum' kept.length s (by rw [hsteps]; simp)
      have ht : t.id = pre.length + 1 := hnum' pre.length t (by simp)
      have hkept : ∃ post', kept = pre ++ t :: post' := by
        rcases List.append_eq_append_iff.1 hsteps with ⟨middle, rfl, hmiddle⟩ | ⟨more, rfl, -⟩
        · rcases middle with _ | ⟨u, post'⟩
          · simp only [List.append_nil] at hs
            omega
          · obtain ⟨rfl, -⟩ := List.cons.inj hmiddle
            exact ⟨post', rfl⟩
        · rw [List.length_append] at ht
          omega
      obtain ⟨post', rfl⟩ := hkept
      exact ⟨post', rfl, hg.cut hsteps fun hmem => hrule (hp s hmem)⟩

/-- A proof keeps a step, and the steps in front of it, through changes that spare it. -/
theorem Grown.after_spared (hp : ∀ s ∈ p.steps, s.rule = .premise)
    (hnum : ∀ (i : Nat) (s : Step), p.steps[i]? = some s → s.id = i + 1)
    (hg : Grown (fun _ _ => True) p (pre ++ t :: post)) {changes : List Change}
    (h : Spares t.id (p.withSteps (pre ++ t :: post)) changes) :
    ∃ post', (p.withSteps (pre ++ t :: post)).after changes = p.withSteps (pre ++ t :: post') ∧
      Grown (fun _ _ => True) p (pre ++ t :: post') := by
  induction changes generalizing post with
  | nil => exact ⟨post, rfl, hg⟩
  | cons c rest ih =>
    obtain ⟨hc, hrest⟩ := h
    obtain ⟨post', hq, hg'⟩ := hg.change_spared hp hnum hc
    unfold after
    rw [List.foldl_cons, hq]
    rw [hq] at hrest
    exact ih hg' hrest

end Spared

/-! ## Undoing an extension -/

/-- Let a proof be extended and then changed in any way that deletes neither the new step nor one in front of
it. Deleting the new step then gives back the proof as it was before the extension, and is accepted exactly when
no step cites the new one, so at once behind the extension. -/
theorem delete_undoes_extend [CallStack] (goal : String) (kb : Option String) (p : Proof)
    (h : start goal kb = .ok p) (changes : List Change) (rule : RuleId) (selected : List Int)
    (input : Option String) (q : Proof) (hq : (p.after changes).extend rule selected input = .ok q)
    (further : List Change)
    (hspared : Spares (p.after changes).nextId q further) :
    (∀ r, (q.after further).delete (p.after changes).nextId = .ok r → r = p.after changes) ∧
    ((∃ r, (q.after further).delete (p.after changes).nextId = .ok r) ↔
      ∀ s ∈ (q.after further).steps, (p.after changes).nextId ∉ s.dependencies) ∧
    q.delete (p.after changes).nextId = .ok (p.after changes) := by
  obtain ⟨pre, hpre, hg⟩ := grown_of_start h (throughout_true p changes)
  have hpremises := fun s hs => (start_steps h s hs).2.1
  have hnum := start_numbered h
  rw [hpre] at hq hspared ⊢
  obtain ⟨t, -, hd, rfl⟩ := extend_ok hq
  have hid : (p.withSteps pre).nextId = t.id := hd.frame.1.symm
  rw [hid] at hspared ⊢
  have hgt := hg.step hd trivial
  obtain ⟨post, hafter, hgpost⟩ := hgt.after_spared hpremises hnum hspared
  have hdelete := delete_of_numbered (p := p) (hgpost.numbered hnum) hd.frame.2.1
  rw [hafter]
  refine ⟨fun r hr => ((hdelete r).1 hr).2, ⟨fun ⟨r, hr⟩ => ((hdelete r).1 hr).1, fun hfree => ?_⟩, ?_⟩
  · exact ⟨_, (hdelete _).2 ⟨hfree, rfl⟩⟩
  -- at once behind the extension, every step has a number that is no greater, and cites only smaller ones
  · refine (delete_of_numbered (hgt.numbered hnum) hd.frame.2.1 _).2 ⟨fun s hs hcited => ?_, rfl⟩
    have hlt := s.dependencies_lt t.id hcited
    rcases List.mem_append.1 hs with hs | hs
    · have := id_lt_of_numbered (p := p.withSteps (pre ++ [t])) (hgt.numbered hnum) rfl s hs
      omega
    · obtain rfl := List.mem_singleton.1 hs
      omega

attribute [local instance] CallStack.usual

/-- An assumption is made and its scope closed; a step behind it is deleted on the way, and it is refused that
the step in front of it be. -/
theorem delete_undoes_extend_reopened :
    ∃ p, start "r -> q" (some "modus-ponens") = .ok p ∧
      ∃ s q, s = p.after [.extend .modusPonens [1, 2] none] ∧ s.extend .assume [] (some "r") = .ok q ∧
        Spares s.nextId q [.extend .andIntro [1, 2] none, .extend .impliesIntro [] none, .delete 6, .delete 1,
          .delete 5] ∧
        (q.after [.extend .andIntro [1, 2] none, .extend .impliesIntro [] none, .delete 6, .delete 1,
          .delete 5]).delete s.nextId = .ok s ∧ s.nextId = 4 := by
  have hproof : ∃ p q, start "r -> q" (some "modus-ponens") = .ok p ∧
      (p.after [.extend .modusPonens [1, 2] none]).extend .assume [] (some "r") = .ok q ∧
      Spares (p.after [.extend .modusPonens [1, 2] none]).nextId q
        [.extend .andIntro [1, 2] none, .extend .impliesIntro [] none, .delete 6, .delete 1, .delete 5] ∧
      (∀ t ∈ (q.after [.extend .andIntro [1, 2] none, .extend .impliesIntro [] none, .delete 6, .delete 1,
          .delete 5]).steps, (p.after [.extend .modusPonens [1, 2] none]).nextId ∉ t.dependencies) ∧
      (p.after [.extend .modusPonens [1, 2] none]).nextId = 4 :=
    ⟨_, _, rfl, rfl, by decide +kernel, by decide +kernel, rfl⟩
  obtain ⟨p, q, hp, hq, hspared, hfree, hfour⟩ := hproof
  obtain ⟨hback, haccepted, -⟩ := delete_undoes_extend "r -> q" (some "modus-ponens") p hp
    [.extend .modusPonens [1, 2] none] .assume [] (some "r") q hq _ hspared
  obtain ⟨r, hr⟩ := haccepted.2 hfree
  exact ⟨p, hp, _, q, rfl, hq, hspared, hr.trans (congrArg Except.ok (hback r hr)), hfour⟩

end Proof

end Deduction
