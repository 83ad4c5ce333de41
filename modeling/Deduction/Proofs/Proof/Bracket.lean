/-
Assumptions as brackets: an assumption opens a scope, and the end of a scope closes the innermost one
(`openScopes`). A proof keeps no record of its open scopes and finds the assumption that it closes by its
depth; that is the innermost open one all the same, because at all times the last assumption of each depth up
to that of the proof is the one that is open there (`ScopesOf`). So however a proof was changed, its steps are
nested well, each stands as deep as there are open scopes behind it, and the end of a scope joins the
assumption that it closes to the line in front of it (`bracketed_after`).
-/
import Deduction.Proofs.Proof.Scope
import Mathlib.Data.List.Induction

namespace Deduction

namespace Proof

/-! ## Brackets -/

/-- The assumptions that are open behind a step, the innermost first, when `scopes` are open in front of it.
There is no answer where a scope is closed and none is open. -/
def openBehind (scopes : List Step) (s : Step) : Option (List Step) :=
  if s.rule = .assume then some (s :: scopes)
  else if s.rule = .impliesIntro then scopes.tail?
  else some scopes

/-- The assumptions that are open behind steps, the innermost first, if the steps are nested well. -/
def openScopes (steps : List Step) : Option (List Step) :=
  steps.foldlM openBehind []

theorem openBehind_assume {s : Step} (h : s.rule = .assume) (scopes : List Step) :
    openBehind scopes s = some (s :: scopes) := if_pos h

theorem openBehind_impliesIntro {s : Step} (h : s.rule = .impliesIntro) (a : Step) (scopes : List Step) :
    openBehind (a :: scopes) s = some scopes := by
  rw [openBehind, if_neg (by simp [h]), if_pos h]
  rfl

theorem openBehind_other {s : Step} (hassume : s.rule ≠ .assume) (hclose : s.rule ≠ .impliesIntro)
    (scopes : List Step) : openBehind scopes s = some scopes := by
  rw [openBehind, if_neg hassume, if_neg hclose]

/-- A step opens a scope, closes the innermost one, or leaves the scopes as they are. -/
theorem openBehind_cases {s : Step} {scopes scopes' : List Step} (h : openBehind scopes s = some scopes') :
    (s.rule = .assume ∧ scopes' = s :: scopes) ∨
      (s.rule = .impliesIntro ∧ ∃ a, scopes = a :: scopes') ∨
      (s.rule ≠ .assume ∧ s.rule ≠ .impliesIntro ∧ scopes' = scopes) := by
  unfold openBehind at h
  split at h
  · rename_i hassume
    cases h
    exact .inl ⟨hassume, rfl⟩
  · rename_i hassume
    split at h
    · rename_i hclose
      rcases scopes with _ | ⟨a, scopes⟩
      · cases h
      · cases h
        exact .inr (.inl ⟨hclose, a, rfl⟩)
    · rename_i hclose
      cases h
      exact .inr (.inr ⟨hassume, hclose, rfl⟩)

theorem openScopes_concat (steps : List Step) (s : Step) :
    openScopes (steps ++ [s]) = (openScopes steps).bind (openBehind · s) := by
  simp [openScopes, List.foldlM_append]

theorem openScopes_of_forall {steps : List Step}
    (h : ∀ s ∈ steps, s.rule ≠ .assume ∧ s.rule ≠ .impliesIntro) : openScopes steps = some [] := by
  induction steps with
  | nil => rfl
  | cons s steps ih =>
    obtain ⟨hassume, hclose⟩ := h s (by simp)
    rw [openScopes, List.foldlM_cons, openBehind_other hassume hclose]
    exact ih fun t ht => h t (by simp [ht])

/-- The open scopes are those of assumptions, and the scopes inside one of them are those that the steps
behind its assumption open. -/
theorem openScopes_split {steps outer : List Step} {a : Step} (inner : List Step)
    (h : openScopes steps = some (inner ++ a :: outer)) :
    ∃ before inside, steps = before ++ a :: inside ∧ a.rule = .assume ∧ openScopes inside = some inner := by
  induction steps using List.reverseRecOn generalizing inner with
  | nil => simp [openScopes] at h
  | append_singleton steps s ih =>
    rw [openScopes_concat] at h
    obtain ⟨scopes, hscopes, hs⟩ := Option.bind_eq_some_iff.1 h
    have further : ∀ inner', scopes = inner' ++ a :: outer → openBehind inner' s = some inner →
        ∃ before inside, steps ++ [s] = before ++ a :: inside ∧ a.rule = .assume ∧
          openScopes inside = some inner := by
      intro inner' hinner hs'
      obtain ⟨before, inside, rfl, ha, hinside⟩ := ih inner' (hinner ▸ hscopes)
      refine ⟨before, inside ++ [s], by simp, ha, ?_⟩
      rw [openScopes_concat, hinside]
      exact hs'
    rcases openBehind_cases hs with ⟨hassume, heq⟩ | ⟨hclose, b, heq⟩ | ⟨hassume, hclose, heq⟩
    · rcases inner with _ | ⟨b, inner⟩
      -- the scope is the one that the last step opens
      · obtain ⟨rfl, rfl⟩ := List.cons.inj heq
        exact ⟨steps, [], rfl, hassume, rfl⟩
      · obtain ⟨rfl, hinner⟩ := List.cons.inj heq
        exact further inner hinner.symm (openBehind_assume hassume inner)
    · exact further (b :: inner) heq (openBehind_impliesIntro hclose b inner)
    · exact further inner heq.symm (openBehind_other hassume hclose inner)

/-! ## The open scopes of a proof -/

/-- The scopes are those that the steps leave open, the proof stands as deep as they are many, and the last
assumption of the depth of each is its own. -/
structure ScopesOf (p : Proof) (steps scopes : List Step) : Prop where
  opened : openScopes steps = some scopes
  depth : (p.withSteps steps).depth = scopes.length
  last : ∀ inner a outer, scopes = inner ++ a :: outer →
    (p.withSteps steps).lastAssumption? (outer.length + 1) = some a

namespace ScopesOf

variable {p : Proof} {steps scopes : List Step} {s : Step}

theorem assume (h : ScopesOf p steps scopes) (hs : s.rule = .assume)
    (hdepth : s.depth = (p.withSteps steps).depth + 1) : ScopesOf p (steps ++ [s]) (s :: scopes) where
  opened := by
    rw [openScopes_concat, h.opened]
    exact openBehind_assume hs scopes
  depth := by
    rw [withSteps_concat_depth, hdepth, h.depth]
    simp
  last := by
    intro inner a outer heq
    rw [h.depth] at hdepth
    rcases inner with _ | ⟨b, inner⟩
    · obtain ⟨rfl, rfl⟩ := List.cons.inj heq
      rw [lastAssumption?_concat, if_pos ⟨hs, hdepth⟩]
    · rw [List.cons_append] at heq
      obtain ⟨-, rfl⟩ := List.cons.inj heq
      -- the new assumption stands deeper than all that are open around it
      have hdeeper : s.depth ≠ outer.length + 1 := by
        simp only [List.length_append, List.length_cons] at hdepth
        omega
      rw [lastAssumption?_concat_of_not p steps fun _ => hdeeper]
      exact h.last inner a outer rfl

theorem close {b : Step} (h : ScopesOf p steps (b :: scopes)) (hs : s.rule = .impliesIntro)
    (hdepth : s.depth = (p.withSteps steps).depth - 1) : ScopesOf p (steps ++ [s]) scopes where
  opened := by
    rw [openScopes_concat, h.opened]
    exact openBehind_impliesIntro hs b scopes
  depth := by
    rw [withSteps_concat_depth, hdepth, h.depth]
    simp
  last := by
    intro inner a outer heq
    rw [lastAssumption?_concat_of_not p steps fun hassume => by simp [hassume] at hs]
    exact h.last (b :: inner) a outer (by rw [heq, List.cons_append])

theorem stay (h : ScopesOf p steps scopes) (hassume : s.rule ≠ .assume) (hclose : s.rule ≠ .impliesIntro)
    (hdepth : s.depth = (p.withSteps steps).depth) : ScopesOf p (steps ++ [s]) scopes where
  opened := by
    rw [openScopes_concat, h.opened]
    exact openBehind_other hassume hclose scopes
  depth := by rw [withSteps_concat_depth, hdepth, h.depth]
  last := by
    intro inner a outer heq
    rw [lastAssumption?_concat_of_not p steps fun hs => absurd hs hassume]
    exact h.last inner a outer heq

theorem lastAssumption?_depth {a : Step} (h : ScopesOf p steps (a :: scopes)) :
    (p.withSteps steps).lastAssumption? (p.withSteps steps).depth = some a := by
  rw [h.depth, List.length_cons, Int.natCast_add, Int.natCast_one]
  exact h.last [] a scopes rfl

/-- The last assumption of the depth of the proof is the innermost open one. -/
theorem innermost {a : Step} (h : ScopesOf p steps scopes)
    (ha : (p.withSteps steps).lastAssumption? (p.withSteps steps).depth = some a)
    (hdepth : (p.withSteps steps).depth ≠ 0) : ∃ outer, scopes = a :: outer := by
  rcases scopes with _ | ⟨b, outer⟩
  · exact absurd h.depth hdepth
  · cases h.lastAssumption?_depth.symm.trans ha
    exact ⟨outer, rfl⟩

end ScopesOf

/-- At the start all is premises, and every step that a rule gives keeps a record of the open scopes. -/
theorem Grown.scopesOf [CallStack] {ok : Proof → Step → Prop} {p : Proof} {steps : List Step}
    (h : Grown ok p steps) (hp : ∀ s ∈ p.steps, s.rule = .premise ∧ s.depth = 0) :
    ∃ scopes, ScopesOf p steps scopes := by
  induction h with
  | start =>
    refine ⟨[], openScopes_of_forall fun s hs => by simp [(hp s hs).1], ?_, by simp⟩
    rw [withSteps_depth]
    rcases hlast : p.steps.getLast? with _ | s
    · rfl
    · exact (hp s (List.mem_of_getLast? hlast)).2
  | @step steps s hg hd hok ih =>
    obtain ⟨scopes, hscopes⟩ := ih
    rcases hd.depth_eq with ⟨hrule, hdepth⟩ | ⟨hrule, hdepth⟩ | ⟨hassume, hclose, hdepth⟩
    · exact ⟨s :: scopes, hscopes.assume hrule hdepth⟩
    · obtain ⟨a, c, ha, -⟩ := hd.closed_of_impliesIntro hrule
      obtain ⟨outer, rfl⟩ := hscopes.innermost ha (hd.depth_ne_zero hrule)
      exact ⟨outer, hscopes.close hrule hdepth⟩
    · exact ⟨scopes, hscopes.stay hassume hclose hdepth⟩

/-! ## Bracketed steps -/

/-- The steps are nested well, each as deep as there are open scopes behind it, and each end of a scope joins
the assumption of the innermost open scope, behind which all scopes are closed, to the step in front of it. -/
structure Bracketed (steps : List Step) : Prop where
  nested : ∀ pre s post, steps = pre ++ s :: post →
    ∃ scopes, openScopes (pre ++ [s]) = some scopes ∧ s.depth = (scopes.length : Int)
  closed : ∀ pre s post, steps = pre ++ s :: post → s.rule = .impliesIntro →
    ∃ before a inside outer c, pre = before ++ a :: inside ∧ a.rule = .assume ∧ openScopes inside = some [] ∧
      openScopes pre = some (a :: outer) ∧ pre.getLast? = some c ∧ s.dependencies = [a.id, c.id] ∧
      s.formula = "(" ++ a.formula ++ ") -> (" ++ c.formula ++ ")"

theorem combined_implies (s t : String) : combined s .implies t = "(" ++ s ++ ") -> (" ++ t ++ ")" := by
  simp only [combined, Connective.text, String.append_assoc]
  rfl

theorem Grown.bracketed [CallStack] {ok : Proof → Step → Prop} {p : Proof} {steps : List Step}
    (h : Grown ok p steps) (hp : ∀ s ∈ p.steps, s.rule = .premise ∧ s.depth = 0) : Bracketed steps := by
  induction h with
  | start =>
    constructor
    · intro pre s post hsteps
      have hmem : ∀ t ∈ pre ++ [s], t ∈ p.steps := by
        intro t ht
        rw [hsteps]
        rcases List.mem_append.1 ht with ht | ht
        · exact List.mem_append_left _ ht
        · simp [List.mem_singleton.1 ht]
      refine ⟨[], openScopes_of_forall fun t ht => ?_, (hp s (hmem s (by simp))).2⟩
      simp [(hp t (hmem t ht)).1]
    · intro pre s post hsteps hrule
      cases hrule.symm.trans (hp s (by simp [hsteps])).1
  | @step steps s hg hd hok ih =>
    constructor
    · intro pre t post hsteps
      rcases split_concat hsteps with ⟨rfl, rfl, -⟩ | ⟨post', -, hsteps'⟩
      · obtain ⟨scopes, hscopes⟩ := (hg.step hd hok).scopesOf hp
        exact ⟨scopes, hscopes.opened, by rw [← hscopes.depth, withSteps_concat_depth]⟩
      · exact ih.nested pre t post' hsteps'
    · intro pre t post hsteps hrule
      rcases split_concat hsteps with ⟨rfl, rfl, -⟩ | ⟨post', -, hsteps'⟩
      · obtain ⟨scopes, hscopes⟩ := hg.scopesOf hp
        obtain ⟨a, c, ha, hc, -, hnext⟩ := hd.closed_of_impliesIntro hrule
        obtain ⟨outer, rfl⟩ := hscopes.innermost ha (hd.depth_ne_zero hrule)
        obtain ⟨before, inside, hsplit, hassume, hinside⟩ := openScopes_split [] hscopes.opened
        exact ⟨before, a, inside, outer, c, hsplit, hassume, hinside, hscopes.opened, hc, hnext.dependencies,
          hnext.formula.trans (combined_implies a.formula c.formula)⟩
      · exact ih.closed pre t post' hsteps' hrule

/-- However a proof was changed since it was started, its steps are bracketed. -/
theorem bracketed_after [CallStack] (goal : String) (kb : Option String) (p : Proof)
    (h : start goal kb = .ok p) (changes : List Change) : Bracketed (p.after changes).steps := by
  obtain ⟨steps, hq, hg⟩ := grown_of_start h (throughout_true p changes)
  rw [hq]
  refine hg.bracketed fun s hs => ?_
  obtain ⟨-, rfl⟩ := start_ok h
  obtain ⟨-, hrule, -, hdepth⟩ := premiseSteps_mem hs
  exact ⟨hrule, hdepth⟩

attribute [local instance] CallStack.usual

/-- A scope is closed, opened again by a deletion and closed anew, and then the one around it. -/
theorem bracketed_after_reopening :
    ∃ p, start "p -> q -> p" none = .ok p ∧
      (p.after [.extend .assume [] (some "p"), .extend .assume [] (some "q"), .extend .impliesIntro [] none,
        .delete 3, .extend .andIntro [2, 1] none, .extend .andElimRight [3] none,
        .extend .impliesIntro [] none, .extend .impliesIntro [] none]).steps.map
          (fun s => (s.formula, s.dependencies, s.depth)) =
        [("p", [], 1), ("q", [], 2), ("(q) ^ (p)", [2, 1], 2), ("p", [3], 2), ("(q) -> (p)", [2, 4], 1),
          ("(p) -> ((q) -> (p))", [1, 5], 0)] ∧
      Bracketed (p.after [.extend .assume [] (some "p"), .extend .assume [] (some "q"),
        .extend .impliesIntro [] none, .delete 3, .extend .andIntro [2, 1] none,
        .extend .andElimRight [3] none, .extend .impliesIntro [] none, .extend .impliesIntro [] none]).steps :=
  ⟨_, rfl, by decide +kernel, bracketed_after "p -> q -> p" none _ rfl _⟩

end Proof

end Deduction
