/-
What a proof proves. As long as every step cites only steps in open scopes, and modus ponens matches a fact
with a conditional whose antecedent it is, each step is true wherever the premises and the assumptions that
are open at it are true (`sound_after`). What carries this is `LinesTrue`, which a new step keeps
(`LinesTrue.next`) and so every grown proof has (`Grown.linesTrue`), for any set of steps that were added with
that care and that has with a step all that the step cites.
-/
import Deduction.Proofs.Formula.Truth
import Deduction.Proofs.Proof.Legible
import Deduction.Proofs.Proof.Scope

namespace Deduction

/-! ## Care -/

/-- The fact is read as the very antecedent of the conditional. -/
def Step.isAntecedentOf (fact conditional : Step) : Bool :=
  match Formula.read fact.formula, Formula.read conditional.formula with
  | .ok f, .ok (.binary .implies a _) => f = a
  | _, _ => false

/-- The fact entails the antecedent of the conditional. -/
def Step.EntailsAntecedentOf (fact conditional : Step) : Prop :=
  ∀ a c, Formula.read conditional.formula = .ok (.binary .implies a c) → Entails fact.formula a.display

theorem Step.EntailsAntecedentOf.of_isAntecedentOf {fact conditional : Step}
    (h : fact.isAntecedentOf conditional = true) : fact.EntailsAntecedentOf conditional := by
  intro a c hac v hfact
  unfold isAntecedentOf at h
  split at h
  · rename_i f a' c' hf hac'
    obtain rfl : f = a' := by simpa using h
    cases hac.symm.trans hac'
    obtain ⟨m, hm⟩ := Formula.writes_of_read hac
    exact .display hm.named.1 (hfact.eval hf)
  · cases h

namespace Proof

section Care

variable [CallStack]

/-- The step cites only steps in open scopes, and where it detaches the consequent of a conditional, the
matched fact fits the conditional. -/
def Careful (fits : Step → Step → Prop) (p : Proof) (s : Step) : Prop :=
  (∀ i ∈ s.dependencies, p.InScope i) ∧ (s.rule = .modusPonens → ∀ m ∈ p.matched? s, fits m.1 m.2)

instance (fits : Step → Step → Prop) [∀ a b, Decidable (fits a b)] (p : Proof) (s : Step) :
    Decidable (p.Careful fits s) :=
  inferInstanceAs (Decidable
    ((∀ i ∈ s.dependencies, p.InScope i) ∧ (s.rule = .modusPonens → ∀ m ∈ p.matched? s, fits m.1 m.2)))

theorem Careful.mono {fits fits' : Step → Step → Prop} (hfits : ∀ a b, fits a b → fits' a b) {p : Proof}
    {s : Step} (h : p.Careful fits s) : p.Careful fits' s :=
  ⟨h.1, fun hs m hm => hfits _ _ (h.2 hs m hm)⟩

theorem Careful.of_not_citing {fits : Step → Step → Prop} {p : Proof} {s : Step} (h : s.dependencies = []) :
    p.Careful fits s := by
  refine ⟨by simp [h], fun _ m hm => ?_⟩
  unfold matched? at hm
  rw [h] at hm
  cases hm

/-! ## Soundness of the rules -/

/-- A step that stays in its scope is true where the steps that it cites are. -/
theorem Derived.true_of_cited {v : String → Bool} {p : Proof} {s : Step} (h : p.Derived s)
    (hassume : s.rule ≠ .assume) (hclose : s.rule ≠ .impliesIntro) (hcare : p.Careful Step.EntailsAntecedentOf s)
    (hcited : ∀ i ∈ s.dependencies, ∀ t ∈ p.step? i, WritesTrue v t.formula) : WritesTrue v s.formula := by
  cases h with
  | assume _ hs => exact absurd hs.rule hassume
  | impliesIntro _ _ _ _ hs => exact absurd hs.rule hclose
  | @modusPonens i j a b fact conditional x y ha hb hmatched hboth hread _ hs =>
    rw [hs.dependencies] at hcited
    have hva := hcited i (by simp) a ha
    have hvb := hcited j (by simp) b hb
    have hv : WritesTrue v fact.formula ∧ WritesTrue v conditional.formula := by
      -- the two may have been matched in either order
      rcases hboth with ⟨rfl, rfl⟩ | ⟨rfl, rfl⟩
      · exact ⟨hva, hvb⟩
      · exact ⟨hvb, hva⟩
    obtain ⟨m, hm⟩ := Formula.writes_of_read hread
    have hx : x.eval v = true :=
      (hcare.2 hs.rule _ hmatched x y hread v hv.1).eval_of_writes (Formula.display_writes hm.named.1)
    have hy : y.eval v = true := by
      have hxy := hv.2.eval hread
      simpa [Formula.eval, Connective.apply, hx] using hxy
    rw [hs.formula]
    exact .display hm.named.2 hy
  | @andIntro i j a b ha hb hs =>
    rw [hs.dependencies] at hcited
    obtain ⟨f, m, hf, hvf⟩ := hcited i (by simp) a ha
    obtain ⟨g, n, hg, hvg⟩ := hcited j (by simp) b hb
    rw [hs.formula]
    exact ⟨_, _, hf.combined hg .and, by simp [Formula.eval, Connective.apply, hvf, hvg]⟩
  | @andElim i a x y ha hread hs =>
    have hdeps : s.dependencies = [i] := by rcases hs with hs | hs <;> exact hs.dependencies
    have hxy := (hcited i (by simp [hdeps]) a ha).eval hread
    obtain ⟨hx, hy⟩ : x.eval v = true ∧ y.eval v = true := by simpa [Formula.eval, Connective.apply] using hxy
    obtain ⟨m, hm⟩ := Formula.writes_of_read hread
    rcases hs with hs | hs
    · rw [hs.formula]
      exact .display hm.named.1 hx
    · rw [hs.formula]
      exact .display hm.named.2 hy
  | @orIntro i a text f ha ht hs =>
    have hdeps : s.dependencies = [i] := by rcases hs with hs | hs <;> exact hs.dependencies
    obtain ⟨g, m, hg, hv⟩ := hcited i (by simp [hdeps]) a ha
    obtain ⟨n, hn⟩ := Formula.writes_of_read ht
    rcases hs with hs | hs
    · rw [hs.formula]
      exact ⟨_, _, hg.combined hn .or, by simp [Formula.eval, Connective.apply, hv]⟩
    · rw [hs.formula]
      exact ⟨_, _, hn.combined hg .or, by simp [Formula.eval, Connective.apply, hv]⟩
  | @doubleNegation i a x ha hread hs =>
    rw [hs.dependencies] at hcited
    have hnn := (hcited i (by simp) a ha).eval hread
    obtain ⟨m, hm⟩ := Formula.writes_of_read hread
    rw [hs.formula]
    exact .display hm.named (by simpa [Formula.eval] using hnn)

end Care

/-! ## Soundness of a proof -/

/-- The assumptions that are open up to a depth are true. -/
def AssumptionsHold (v : String → Bool) (p : Proof) (depth : Int) : Prop :=
  ∀ k ≤ depth, ∀ a ∈ p.lastAssumption? k, Holds v a.formula

theorem reached_iff {q : Proof} :
    q.reached = true ↔ ∃ s, q.last? = some s ∧ q.depth = 0 ∧ sameLoosely s.formula q.goal = true := by
  unfold reached
  rcases q.last? with _ | s <;> simp

section Sound

variable {v : String → Bool} {p : Proof} {steps : List Step}

theorem AssumptionsHold.assumed {s : Step} (h : (p.withSteps (steps ++ [s])).AssumptionsHold v s.depth)
    (hs : s.rule = .assume) : WritesTrue v s.formula := by
  refine .of_holds (h s.depth (Int.le_refl _) s ?_)
  rw [lastAssumption?_concat, if_pos ⟨hs, rfl⟩]
  rfl

variable [CallStack]

/-- Where the assumptions that are open at a new step are true, so are those that were open at a step in an
open scope, unless the new step closes that scope. -/
theorem AssumptionsHold.cited {ok : Proof → Step → Prop} (hg : Grown ok p steps)
    (hp : ∀ t ∈ p.steps, t.rule = .premise) {s t : Step} {pre post : List Step}
    (hsteps : steps = pre ++ t :: post)
    (hpost : ∀ u ∈ post, t.depth ≤ u.depth) (hs : s.rule ≠ .assume) (hdepth : t.depth ≤ s.depth)
    (h : (p.withSteps (steps ++ [s])).AssumptionsHold v s.depth) :
    (p.withSteps (pre ++ [t])).AssumptionsHold v t.depth := by
  intro k hk a ha
  refine h k (Int.le_trans hk hdepth) a ?_
  rw [lastAssumption?_concat_of_not p steps fun hassume => absurd hassume hs,
    hg.lastAssumption?_eq hp hsteps hpost hk]
  exact ha

theorem Grown.read_of_assume {ok : Proof → Step → Prop} (hg : Grown ok p steps)
    (hp : ∀ t ∈ p.steps, t.rule = .premise) :
    ∀ t ∈ steps, t.rule = .assume → ∃ f, Formula.read t.formula = .ok f := by
  refine hg.forall_mem (fun t ht hassume => ?_) fun _ _ _ hd => hd.read_of_assume
  cases (hp t ht).symm.trans hassume

/-- The end of a scope is true where the assumptions outside are: its last line is true once the assumption
that it closes is true as well. -/
theorem Derived.true_of_closed {s : Step} (hd : (p.withSteps steps).Derived s) (hs : s.rule = .impliesIntro)
    (hwrites : ∀ t ∈ steps, ∃ f m, Writes t.formula f m)
    (hread : ∀ t ∈ steps, t.rule = .assume → ∃ f, Formula.read t.formula = .ok f)
    (hlast : ∀ t ∈ steps.getLast?, t.id ∈ s.dependencies →
      (p.withSteps steps).AssumptionsHold v t.depth → WritesTrue v t.formula)
    (hopen : (p.withSteps (steps ++ [s])).AssumptionsHold v s.depth) : WritesTrue v s.formula := by
  obtain ⟨a, c, ha, hc, hdepth, hnext⟩ := hd.closed_of_impliesIntro hs
  obtain ⟨hmem, hassume, -⟩ := mem_of_lastAssumption? ha
  obtain ⟨f, hf⟩ := hread a hmem hassume
  obtain ⟨m, hm⟩ := Formula.writes_of_read hf
  obtain ⟨g, n, hg⟩ := hwrites c (List.mem_of_getLast? hc)
  have hfg : f.eval v = true → g.eval v = true := by
    intro hv
    refine (hlast c hc (by simp [hnext.dependencies]) fun k hk b hb => ?_).eval_of_writes hg
    -- the assumption that is closed is the last one of the innermost level; the others stay open
    by_cases hinner : k = (p.withSteps steps).depth
    · rw [hinner] at hb
      cases ha.symm.trans hb
      exact ⟨f, hf, hv⟩
    · refine hopen k (by rw [hnext.depth]; omega) b ?_
      rw [lastAssumption?_concat_of_not p steps fun h => absurd (h.symm.trans hs) (by decide)]
      exact hb
  rw [hnext.formula]
  refine ⟨_, _, hm.combined hg .implies, ?_⟩
  cases hv : f.eval v with
  | false => simp [Formula.eval, Connective.apply, hv]
  | true => simp [Formula.eval, Connective.apply, hfg hv]

/-- A set of steps that were added with care and that has with a step all that the step cites. -/
structure Supported (p : Proof) (steps : List Step) (used : Int → Prop) : Prop where
  careful : ∀ pre t post, steps = pre ++ t :: post → used t.id →
    (p.withSteps pre).Careful Step.EntailsAntecedentOf t
  cited : ∀ t ∈ steps, used t.id → ∀ d ∈ t.dependencies, used d

/-- The steps of a set are true where the assumptions are that are open at them. -/
def LinesTrue (v : String → Bool) (p : Proof) (steps : List Step) (used : Int → Prop) : Prop :=
  ∀ pre t post, steps = pre ++ t :: post → used t.id → (p.withSteps (pre ++ [t])).AssumptionsHold v t.depth →
    WritesTrue v t.formula

theorem Supported.front {used : Int → Prop} {s : Step} (h : Supported p (steps ++ [s]) used) :
    Supported p steps used := by
  constructor
  · intro pre t post hsteps
    exact h.careful pre t (post ++ [s]) (by rw [hsteps]; simp)
  · intro t ht
    exact h.cited t (List.mem_append_left _ ht)

/-- The next step is true where the assumptions are that are open at it, if the lines in front of it are. -/
theorem LinesTrue.next {used : Int → Prop} {s : Step} (h : LinesTrue v p steps used)
    (hg : Grown (fun _ _ => True) p steps) (hp : ∀ t ∈ p.steps, t.rule = .premise)
    (hv : ∀ t ∈ p.steps, Holds v t.formula) (hd : (p.withSteps steps).Derived s)
    (hsupp : Supported p (steps ++ [s]) used) (hs : used s.id)
    (hopen : (p.withSteps (steps ++ [s])).AssumptionsHold v s.depth) : WritesTrue v s.formula := by
  have hcare := hsupp.careful steps s [] rfl hs
  have hcited := hsupp.cited s (by simp) hs
  by_cases hassume : s.rule = .assume
  · exact hopen.assumed hassume
  by_cases hclose : s.rule = .impliesIntro
  · have hwrites := hg.writes fun t ht => by
      obtain ⟨f, m, hf, -⟩ := WritesTrue.of_holds (hv t ht)
      exact ⟨f, m, hf⟩
    refine hd.true_of_closed hclose hwrites (hg.read_of_assume hp) (fun c hc hcs hopen' => ?_) hopen
    obtain ⟨pre, rfl⟩ := List.getLast?_eq_some_iff.1 hc
    exact h pre c [] rfl (hcited c.id hcs) hopen'
  · -- every other rule stays at the depth of the last step, which is no smaller than that of a cited one
    refine hd.true_of_cited hassume hclose hcare fun i hi u hu => ?_
    obtain ⟨pre, post, hsplit, hpost⟩ := (hcare.1 i hi).split hu
    have hdepth : u.depth ≤ s.depth := by
      rw [hd.depth_of_stays hassume hclose, show steps = pre ++ u :: post from hsplit]
      exact le_withSteps_depth p pre hpost
    have hid : u.id = i := (mem_of_step? hu).2
    exact h pre u post hsplit (hid ▸ hcited i hi) (hopen.cited hg hp hsplit hpost hassume hdepth)

/-- However far a proof has grown, the lines of a supported set are true where the premises and the assumptions
that are open at them are. -/
theorem Grown.linesTrue (hg : Grown (fun _ _ => True) p steps) (hp : ∀ t ∈ p.steps, t.rule = .premise)
    (hv : ∀ t ∈ p.steps, Holds v t.formula) {used : Int → Prop} (hsupp : Supported p steps used) :
    LinesTrue v p steps used := by
  induction hg with
  | start =>
    intro pre t post hsteps _ _
    exact .of_holds (hv t (by rw [hsteps]; simp))
  | @step steps s hg hd hok ih =>
    intro pre t post hsteps ht hopen
    rcases split_concat hsteps with ⟨rfl, rfl, -⟩ | ⟨post', -, hsteps'⟩
    · exact (ih hsupp.front).next hg hp hv hd hsupp ht hopen
    · exact ih hsupp.front pre t post' hsteps' ht hopen

/-- Every assumption opens a scope, so none is open at depth zero. -/
theorem Grown.assumptionsHold_zero {ok : Proof → Step → Prop} (hg : Grown ok p steps)
    (hp : ∀ t ∈ p.steps, t.rule = .premise) : (p.withSteps steps).AssumptionsHold v 0 := by
  intro k hk a ha
  obtain ⟨hmem, hassume, rfl⟩ := mem_of_lastAssumption? ha
  obtain ⟨pre, post, hsteps⟩ := List.append_of_mem hmem
  -- the assumption went one below the depth of the proof that it was added to
  rcases hg.split hsteps with hstart | ⟨-, hd, -⟩
  · cases (hp a hstart).symm.trans hassume
  · have hnonneg := withSteps_depth_nonneg p pre
    have hdepth := hd.depth_of_assume hassume
    omega

/-- The last line of a complete proof is true where the premises are, if all that it rests on was added with
care. -/
theorem Grown.true_of_complete (hg : Grown (fun _ _ => True) p steps) (hp : ∀ t ∈ p.steps, t.rule = .premise)
    (hv : ∀ t ∈ p.steps, Holds v t.formula) {used : Int → Prop} (hsupp : Supported p steps used)
    (hc : (p.withSteps steps).complete = true) {s : Step} (hs : (p.withSteps steps).last? = some s)
    (hlast : used s.id) : WritesTrue v s.formula := by
  rw [withSteps_complete] at hc
  obtain ⟨-, -, hdepth, -⟩ := reached_iff.1 hc
  obtain ⟨pre, rfl⟩ := List.getLast?_eq_some_iff.1 hs
  rw [withSteps_concat_depth] at hdepth
  refine hg.linesTrue hp hv hsupp pre s [] rfl hlast ?_
  rw [hdepth]
  exact hg.assumptionsHold_zero hp

end Sound

/-- As long as every step that is added cites only steps in open scopes, and modus ponens matches a fact with
a conditional whose very antecedent it is, every step is true where the premises and the assumptions that
are open at it are, and so is the goal once a last line that is read as the goal completes the proof. -/
theorem sound_after [CallStack] (goal : String) (kb : Option String) (p : Proof) (h : start goal kb = .ok p)
    (changes : List Change)
    (hcare : Throughout (Careful fun fact conditional => fact.isAntecedentOf conditional) p changes)
    (v : String → Bool) (hv : ∀ t ∈ p.premises, Holds v t) :
    (∀ pre s post f, (p.after changes).steps = pre ++ s :: post → Formula.read s.formula = .ok f →
      ((p.after changes).withSteps (pre ++ [s])).AssumptionsHold v s.depth → f.eval v = true) ∧
    ((p.after changes).complete = true → ∀ s g, (p.after changes).last? = some s →
      Formula.read s.formula = .ok g → Formula.read goal = .ok g → g.eval v = true) := by
  obtain ⟨steps, hq, hg⟩ := grown_of_start h hcare
  have hg' : Grown (fun _ _ => True) p steps := hg.mono fun _ _ _ => trivial
  have hp := fun t ht => (start_steps h t ht).2.1
  have hstart := fun t ht => hv t.formula (start_steps h t ht).1
  have hsupp : Supported p steps fun _ => True := by
    refine ⟨fun pre t post hsteps _ => ?_, fun _ _ _ _ _ => trivial⟩
    rcases hg.split hsteps with ht | ⟨-, -, ht⟩
    · exact .of_not_citing (start_steps h t ht).2.2
    · exact ht.mono fun _ _ => .of_isAntecedentOf
  rw [hq]
  constructor
  · intro pre s post f hsteps hf hopen
    exact (hg'.linesTrue hp hstart hsupp pre s post hsteps trivial hopen).eval hf
  · intro hc s g hs hf _
    exact (hg'.true_of_complete hp hstart hsupp hc hs trivial).eval hf

attribute [local instance] CallStack.usual

/-- A proof that discharges an assumption, with a deletion on the way. -/
theorem sound_after_discharge :
    ∃ p, start "r -> q" (some "modus-ponens") = .ok p ∧
      Throughout (Careful fun fact conditional => fact.isAntecedentOf conditional) p
        [.extend .assume [] (some "r"), .extend .assume [] (some "s"), .delete 4,
          .extend .modusPonens [1, 2] none, .extend .impliesIntro [] none] ∧
      (∀ t ∈ p.premises, Holds (fun n => n != "s") t) ∧
      (Formula.binary .implies (.var "r") (.var "q")).eval (fun n => n != "s") = true := by
  refine ⟨_, rfl, by decide +kernel, by decide +kernel, ?_⟩
  exact (sound_after "r -> q" (some "modus-ponens") _ rfl
    [.extend .assume [] (some "r"), .extend .assume [] (some "s"), .delete 4,
      .extend .modusPonens [1, 2] none, .extend .impliesIntro [] none]
    (by decide +kernel) (fun n => n != "s") (by decide +kernel)).2 (by decide +kernel) _ _ rfl rfl rfl

end Proof

end Deduction
