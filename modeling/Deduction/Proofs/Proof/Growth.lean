/-
How proofs grow and are cut back. A proof that is started and then changed in any way is at all times the
start with some steps behind the premises, each of which a rule gave in the proof as it stood before that
step (`grown_after`): an extension puts one more step there, and a deletion goes back to an earlier point.
Whatever was true of every step when it was added is true of the steps that are left.
-/
import Deduction.Proofs.Proof.Derivation

namespace Deduction

namespace Proof

/-! ## Changes -/

/-- A change of a proof: a rule is applied to selected steps, or a step is deleted. -/
inductive Change
  | extend (rule : RuleId) (selected : List Int) (input : Option String)
  | delete (id : Int)
  deriving DecidableEq

section Changes

variable [CallStack]

/-- The proof after a change. A change that is refused leaves it as it was. -/
def change (p : Proof) : Change → Proof
  | .extend rule selected input => (p.extend rule selected input).toOption.getD p
  | .delete id => (p.delete id).toOption.getD p

def after (p : Proof) (changes : List Change) : Proof :=
  changes.foldl change p

/-- The step that a change puts at the end of the proof, if it does. -/
def added? (p : Proof) : Change → Option Step
  | .extend rule selected input => (p.derive rule selected input).toOption
  | .delete _ => none

/-- Every step that the changes add satisfies a condition in the proof to which it is added. -/
def Throughout (ok : Proof → Step → Prop) (p : Proof) : List Change → Prop
  | [] => True
  | c :: rest => (∀ s ∈ p.added? c, ok p s) ∧ Throughout ok (p.change c) rest

instance decidableThroughout (ok : Proof → Step → Prop) [∀ p s, Decidable (ok p s)] :
    ∀ (p : Proof) (changes : List Change), Decidable (Throughout ok p changes)
  | _, [] => .isTrue trivial
  | p, c :: rest => have := decidableThroughout ok (p.change c) rest
    inferInstanceAs (Decidable ((∀ s ∈ p.added? c, ok p s) ∧ Throughout ok (p.change c) rest))

theorem throughout_true (p : Proof) (changes : List Change) : Throughout (fun _ _ => True) p changes := by
  induction changes generalizing p with
  | nil => trivial
  | cons c rest ih => exact ⟨fun _ _ => trivial, ih _⟩

/-- The change is one of those that are made, and added the step to the proof as the changes in front of it left it. -/
def AddedBy (p : Proof) (changes : List Change) (c : Change) (s : Step) : Prop :=
  ∃ done rest, changes = done ++ c :: rest ∧ s ∈ (p.after done).added? c

theorem throughout_addedBy (p : Proof) (changes : List Change) :
    Throughout (fun q s => ∃ c, p.AddedBy changes c s ∧ s ∈ q.added? c) p changes := by
  -- on the changes that are still to be made, from the proof that the others left
  have further : ∀ rest done : List Change, changes = done ++ rest →
      Throughout (fun q s => ∃ c, p.AddedBy changes c s ∧ s ∈ q.added? c) (p.after done) rest := by
    intro rest
    induction rest with
    | nil => exact fun _ _ => trivial
    | cons c rest ih =>
      intro done hchanges
      refine ⟨fun s hs => ⟨c, ⟨done, rest, hchanges, hs⟩, hs⟩, ?_⟩
      have hafter : (p.after done).change c = p.after (done ++ [c]) := by
        simp only [after, List.foldl_append, List.foldl_cons, List.foldl_nil]
      rw [hafter]
      exact ih (done ++ [c]) (by simp [hchanges])
  exact further changes [] rfl

end Changes

/-! ## Proofs as their steps -/

/-- The proof as it stands with other steps: as deep as the last of them, and judged. -/
def withSteps (p : Proof) (steps : List Step) : Proof :=
  judged { p with steps := steps, depth := (steps.getLast?.map (·.depth)).getD 0, complete := false }

@[simp] theorem withSteps_steps (p : Proof) (steps : List Step) : (p.withSteps steps).steps = steps := rfl

@[simp] theorem withSteps_goal (p : Proof) (steps : List Step) : (p.withSteps steps).goal = p.goal := rfl

@[simp] theorem withSteps_premises (p : Proof) (steps : List Step) :
    (p.withSteps steps).premises = p.premises := rfl

@[simp] theorem withSteps_withSteps (p : Proof) (steps steps' : List Step) :
    (p.withSteps steps).withSteps steps' = p.withSteps steps' := rfl

theorem withSteps_depth (p : Proof) (steps : List Step) :
    (p.withSteps steps).depth = (steps.getLast?.map (·.depth)).getD 0 := rfl

@[simp] theorem withSteps_concat_depth (p : Proof) (steps : List Step) (s : Step) :
    (p.withSteps (steps ++ [s])).depth = s.depth := by
  simp [withSteps_depth]

theorem withSteps_depth_nonneg (p : Proof) (steps : List Step) : 0 ≤ (p.withSteps steps).depth := by
  rw [withSteps_depth]
  rcases steps.getLast? with _ | s
  · exact Int.le_refl 0
  · exact s.depth_nonneg

@[simp] theorem withSteps_nextId (p : Proof) (steps : List Step) :
    (p.withSteps steps).nextId = steps.length + 1 := rfl

@[simp] theorem withSteps_last? (p : Proof) (steps : List Step) :
    (p.withSteps steps).last? = steps.getLast? := rfl

@[simp] theorem withSteps_complete (p : Proof) (steps : List Step) :
    (p.withSteps steps).complete = (p.withSteps steps).reached := rfl

/-! ## What a change does -/

theorem extend_ok [CallStack] {p : Proof} {steps : List Step} {rule : RuleId} {selected : List Int}
    {input : Option String} {q : Proof} (h : (p.withSteps steps).extend rule selected input = .ok q) :
    ∃ s, (p.withSteps steps).derive rule selected input = .ok s ∧ (p.withSteps steps).Derived s ∧
      q = p.withSteps (steps ++ [s]) := by
  unfold extend at h
  split at h
  · rename_i s hs
    obtain ⟨hd, rfl⟩ := derived_of_derive hs
    -- whatever the rule, the proof ends up as deep as its last step
    rw [hd.depthAfter_eq] at h
    cases h
    refine ⟨s, hs, hd, ?_⟩
    unfold withSteps push
    rw [List.getLast?_concat]
    rfl
  · cases h

theorem blocker?_eq_none {p : Proof} {id : Int} (h : p.blocker? id = none) :
    ∃ s, p.step? id = some s ∧ s.rule ≠ .premise := by
  unfold blocker? at h
  split at h
  · cases h
  · rename_i s hs
    split at h
    · cases h
    · rename_i hrule
      exact ⟨s, hs, hrule⟩

theorem before_judged (p : Proof) (steps : List Step) (id : Int) :
    ((p.withSteps steps).before id).judged = p.withSteps (steps.takeWhile fun s => s.id ≠ id) := rfl

/-- A deletion keeps the steps in front of the one of the number, which is no premise. -/
theorem delete_ok {p : Proof} {steps : List Step} {id : Int} {q : Proof}
    (h : (p.withSteps steps).delete id = .ok q) :
    ∃ kept s rest, steps = kept ++ s :: rest ∧ s.id = id ∧ s.rule ≠ .premise ∧ q = p.withSteps kept := by
  unfold delete at h
  split at h
  · cases h
  · rename_i hfree
    cases h
    -- that nothing cites the step does not matter: all behind it go as well
    obtain ⟨s, hs, hrule⟩ := blocker?_eq_none hfree
    unfold step? at hs
    rw [withSteps_steps, List.find?_eq_some_iff_append] at hs
    obtain ⟨hid, kept, rest, rfl, hkept⟩ := hs
    refine ⟨kept, s, rest, rfl, by simpa using hid, hrule, ?_⟩
    rw [before_judged, List.takeWhile_append_of_pos (by simpa using hkept),
      List.takeWhile_cons_of_neg (by simpa using hid), List.append_nil]

/-- A change is refused, or puts at the end a step that a rule gives, or goes back to the steps in front of
one that is no premise. -/
theorem change_cases [CallStack] (p : Proof) (steps : List Step) (c : Change) :
    (p.withSteps steps).change c = p.withSteps steps ∨
    (∃ s, s ∈ (p.withSteps steps).added? c ∧ (p.withSteps steps).Derived s ∧
      (p.withSteps steps).change c = p.withSteps (steps ++ [s])) ∨
    (∃ kept s rest, steps = kept ++ s :: rest ∧ s.rule ≠ .premise ∧
      (p.withSteps steps).change c = p.withSteps kept) := by
  cases c with
  | extend rule selected input =>
    unfold change added?
    dsimp only
    rcases hq : (p.withSteps steps).extend rule selected input with e | q
    · exact .inl rfl
    · obtain ⟨s, hs, hd, rfl⟩ := extend_ok hq
      exact .inr (.inl ⟨s, by rw [hs]; rfl, hd, rfl⟩)
  | delete id =>
    unfold change
    dsimp only
    rcases hq : (p.withSteps steps).delete id with e | q
    · exact .inl rfl
    · obtain ⟨kept, s, rest, hsteps, -, hrule, rfl⟩ := delete_ok hq
      exact .inr (.inr ⟨kept, s, rest, hsteps, hrule, rfl⟩)

/-! ## Grown proofs -/

/-- The steps to which a proof can grow by one step at a time, each of which a rule gives and satisfies a
condition in the proof as it stood before. -/
inductive Grown [CallStack] (ok : Proof → Step → Prop) (p : Proof) : List Step → Prop
  | start : Grown ok p p.steps
  | step {steps : List Step} {s : Step} : Grown ok p steps → (p.withSteps steps).Derived s →
      ok (p.withSteps steps) s → Grown ok p (steps ++ [s])

/-- Steps with one more at the end are taken apart at that one, or in front of it. -/
theorem split_concat {steps pre post : List Step} {s t : Step} (h : steps ++ [s] = pre ++ t :: post) :
    steps = pre ∧ s = t ∧ post = [] ∨ ∃ post', post = post' ++ [s] ∧ steps = pre ++ t :: post' := by
  rcases List.eq_nil_or_concat post with rfl | ⟨post', u, rfl⟩
  · obtain ⟨hpre, hlast⟩ := List.append_inj' h rfl
    exact .inl ⟨hpre, List.singleton_inj.1 hlast, rfl⟩
  · rw [List.concat_eq_append, ← List.cons_append, ← List.append_assoc] at h
    obtain ⟨hsteps, hlast⟩ := List.append_inj' h rfl
    rw [List.singleton_inj.1 hlast]
    exact .inr ⟨post', List.concat_eq_append, hsteps⟩

namespace Grown

variable [CallStack] {ok : Proof → Step → Prop} {p : Proof} {steps : List Step}

theorem mono {ok' : Proof → Step → Prop} (hok : ∀ q s, ok q s → ok' q s) (h : Grown ok p steps) :
    Grown ok' p steps := by
  induction h with
  | start => exact .start
  | step hg hd hs ih => exact .step ih hd (hok _ _ hs)

/-- What holds of the steps of the start, and of a step that a rule gives once it holds of those in front of
it, holds of every step. -/
theorem forall_mem {P : Step → Prop} (h : Grown ok p steps) (hp : ∀ s ∈ p.steps, P s)
    (hnext : ∀ (steps : List Step) (s : Step), (∀ t ∈ steps, P t) → (p.withSteps steps).Derived s → P s) :
    ∀ s ∈ steps, P s := by
  induction h with
  | start => exact hp
  | @step steps s hg hd hok ih =>
    intro t ht
    rcases List.mem_append.1 ht with ht | ht
    · exact ih t ht
    · obtain rfl := List.mem_singleton.1 ht
      exact hnext steps t ih hd

/-- A step behind those of the start was given by a rule in the proof of the steps in front of it. -/
theorem split (h : Grown ok p steps) {pre post : List Step} {s : Step} (hsteps : steps = pre ++ s :: post) :
    s ∈ p.steps ∨ Grown ok p pre ∧ (p.withSteps pre).Derived s ∧ ok (p.withSteps pre) s := by
  induction h generalizing post with
  | start => exact .inl (by rw [hsteps]; simp)
  | @step steps t hg hd hok ih =>
    rcases split_concat hsteps with ⟨rfl, rfl, -⟩ | ⟨post', -, hsteps'⟩
    · exact .inr ⟨hg, hd, hok⟩
    · exact ih hsteps'

theorem cut (h : Grown ok p steps) {kept rest : List Step} {s : Step} (hsteps : steps = kept ++ s :: rest)
    (hs : s ∉ p.steps) : Grown ok p kept := by
  rcases h.split hsteps with hmem | ⟨hg, -, -⟩
  · exact absurd hmem hs
  · exact hg

end Grown

/-- Changes keep a proof that has only premises to begin with among those that it can grow to. -/
theorem grown_after [CallStack] {ok : Proof → Step → Prop} {p : Proof} (hp : ∀ s ∈ p.steps, s.rule = .premise)
    {steps : List Step} (hg : Grown ok p steps) {changes : List Change}
    (hok : Throughout ok (p.withSteps steps) changes) :
    ∃ steps', (p.withSteps steps).after changes = p.withSteps steps' ∧ Grown ok p steps' := by
  -- on the changes, from any point that the proof can grow to
  induction changes generalizing steps with
  | nil => exact ⟨steps, rfl, hg⟩
  | cons c rest ih =>
    obtain ⟨hc, hrest⟩ := hok
    unfold after
    rw [List.foldl_cons]
    rcases change_cases p steps c with hq | ⟨s, hs, hd, hq⟩ | ⟨kept, s, tail, hsteps, hrule, hq⟩
    · rw [hq] at hrest ⊢
      exact ih hg hrest
    · rw [hq] at hrest ⊢
      exact ih (.step hg hd (hc s hs)) hrest
    · rw [hq] at hrest ⊢
      exact ih (hg.cut hsteps fun hmem => hrule (hp s hmem)) hrest

end Proof

end Deduction
