/-
What a rule can give: `Derived p s` lists, rule by rule, what a new step of a proof is made of, and
every step that `Proof.derive` gives is one of these (`Proof.derived_of_derive`). The steps that it
cites are in the proof, it gets the next number, and its depth is the one that the proof goes on at.
-/
import Deduction.Proof.Run

namespace Deduction

theorem bind_ok {ε α β : Type} {x : Except ε α} {f : α → Except ε β} {b : β} (h : (x >>= f) = .ok b) :
    ∃ a, x = .ok a ∧ f a = .ok b := by
  rcases x with e | a
  · cases h
  · exact ⟨a, rfl, h⟩

namespace Formula

theorem needed_ok {s : String} {f : Formula} (h : needed s = .ok f) : read s = .ok f := by
  unfold needed at h
  split at h
  · rename_i hs; cases h; exact hs
  · cases h

theorem written_ok [CallStack] {f : Formula} {s : String} (h : f.written = .ok s) : s = f.display := by
  unfold written at h
  split at h
  · rename_i hs
    cases h
    unfold walk at hs
    split at hs
    · cases hs; rfl
    · cases hs
  · cases h

end Formula

namespace Proof

/-- The step has the next number of the proof and the given parts. -/
structure IsNext (p : Proof) (s : Step) (formula : String) (rule : RuleId) (dependencies : List Int)
    (depth : Int) : Prop where
  id : s.id = p.nextId
  formula : s.formula = formula
  rule : s.rule = rule
  dependencies : s.dependencies = dependencies
  depth : s.depth = depth

theorem newStep_ok {p : Proof} {formula : String} {rule : RuleId} {deps : List Int} {justification : String}
    {depth : Int} {s : Step} (h : p.newStep formula rule deps justification depth = .ok s) :
    p.IsNext s formula rule deps depth := by
  unfold newStep at h
  split at h
  · rename_i t ht
    cases h
    unfold Step.make at ht
    split at ht
    · split at ht
      · split at ht
        · cases ht; exact ⟨rfl, rfl, rfl, rfl, rfl⟩
        · cases ht
      · cases ht
    · cases ht
  · cases h

/-- A new step may have any formula, at a depth that is not negative, from steps with smaller numbers. -/
theorem newStep_isOk_iff {p : Proof} {formula : String} {rule : RuleId} {deps : List Int}
    {justification : String} {depth : Int} :
    (∃ s, p.newStep formula rule deps justification depth = .ok s) ↔ 0 ≤ depth ∧ ∀ d ∈ deps, d < p.nextId := by
  constructor
  · rintro ⟨s, hs⟩
    have hnext := newStep_ok hs
    rw [← hnext.id, ← hnext.depth, ← hnext.dependencies]
    exact ⟨s.depth_nonneg, s.dependencies_lt⟩
  · rintro ⟨hdepth, hdeps⟩
    have hid : 1 ≤ p.nextId := by
      unfold nextId
      omega
    unfold newStep Step.make
    rw [dif_pos hid, dif_pos hdepth, dif_pos hdeps]
    exact ⟨_, rfl⟩

theorem mem_of_step? {p : Proof} {i : Int} {a : Step} (h : p.step? i = some a) : a ∈ p.steps ∧ a.id = i := by
  unfold Proof.step? at h
  exact ⟨List.mem_of_find?_eq_some h, by simpa using List.find?_some h⟩

theorem mem_of_lastAssumption? {p : Proof} {depth : Int} {a : Step} (h : p.lastAssumption? depth = some a) :
    a ∈ p.steps ∧ a.rule = .assume ∧ a.depth = depth := by
  unfold Proof.lastAssumption? at h
  exact ⟨List.mem_reverse.1 (List.mem_of_find?_eq_some h), by simpa using List.find?_some h⟩

theorem selectOne_ok {p : Proof} {selected : List Int} {i : Int} {s : Step}
    (h : p.selectOne selected = .ok (i, s)) : selected = [i] ∧ p.step? i = some s := by
  unfold selectOne at h
  split at h
  · split at h
    · rename_i hs; cases h; exact ⟨rfl, hs⟩
    · cases h
  · cases h

theorem selectTwo_ok {p : Proof} {selected : List Int} {i j : Int} {a b : Step}
    (h : p.selectTwo selected = .ok ((i, a), (j, b))) :
    selected = [i, j] ∧ p.step? i = some a ∧ p.step? j = some b := by
  unfold selectTwo at h
  split at h
  · split at h
    · rename_i ha hb; cases h; exact ⟨rfl, ha, hb⟩
    · cases h
  · cases h

theorem givenFormula_ok {input : Option String} {text : String} (h : givenFormula input = .ok text) :
    ∃ given f, input = some given ∧ text = Text.trim given ∧ Formula.read text = .ok f := by
  unfold givenFormula at h
  split at h
  · cases h
  · rename_i hinput
    obtain ⟨given, rfl, rfl⟩ := Option.map_eq_some_iff.1 hinput
    split at h
    · cases h
    · split at h
      · rename_i hf; cases h; exact ⟨given, _, rfl, rfl, Formula.needed_ok hf⟩
      · cases h

theorem detach_ok [CallStack] {fact conditional : Step} {text : String}
    (h : detach fact conditional = .ok (some text)) :
    ∃ a c, Formula.read conditional.formula = .ok (.binary .implies a c) ∧
      sameLoosely fact.formula a.display = true ∧ text = c.display := by
  unfold detach at h
  split at h
  · rename_i a c hr
    obtain ⟨antecedent, ha, h⟩ := bind_ok h
    split at h
    · rename_i hsame
      obtain ⟨consequent, hc, h⟩ := bind_ok h
      cases h
      exact ⟨a, c, hr, Formula.written_ok ha ▸ hsame, Formula.written_ok hc⟩
    · cases h
  · cases h

/-- The fact and the conditional that modus ponens matched when it gave a step: the steps that it cites,
in the first of the two orders that works. -/
def matched? [CallStack] (p : Proof) (s : Step) : Option (Step × Step) :=
  match p.selectTwo s.dependencies with
  | .ok ((_, a), (_, b)) =>
    match detach a b with
    | .ok (some _) => some (a, b)
    | _ => some (b, a)
  | .error _ => none

/-- What a new step of a proof is, rule by rule. -/
inductive Derived [CallStack] (p : Proof) (s : Step) : Prop
  | assume {text : String} {f : Formula} : Formula.read text = .ok f →
      p.IsNext s text .assume [] (p.depth + 1) → Derived p s
  | modusPonens {i j : Int} {a b fact conditional : Step} {x y : Formula} :
      p.step? i = some a → p.step? j = some b →
      p.matched? s = some (fact, conditional) → (fact = a ∧ conditional = b ∨ fact = b ∧ conditional = a) →
      Formula.read conditional.formula = .ok (.binary .implies x y) → sameLoosely fact.formula x.display = true →
      p.IsNext s y.display .modusPonens [i, j] p.depth → Derived p s
  | andIntro {i j : Int} {a b : Step} : p.step? i = some a → p.step? j = some b →
      p.IsNext s (combined a.formula .and b.formula) .andIntro [i, j] p.depth → Derived p s
  | andElim {i : Int} {a : Step} {x y : Formula} : p.step? i = some a →
      Formula.read a.formula = .ok (.binary .and x y) →
      (p.IsNext s x.display .andElimLeft [i] p.depth ∨ p.IsNext s y.display .andElimRight [i] p.depth) →
      Derived p s
  | orIntro {i : Int} {a : Step} {text : String} {f : Formula} : p.step? i = some a → Formula.read text = .ok f →
      (p.IsNext s (combined a.formula .or text) .orIntroLeft [i] p.depth ∨
        p.IsNext s (combined text .or a.formula) .orIntroRight [i] p.depth) → Derived p s
  | doubleNegation {i : Int} {a : Step} {x : Formula} : p.step? i = some a →
      Formula.read a.formula = .ok (.neg (.neg x)) → p.IsNext s x.display .doubleNegation [i] p.depth →
      Derived p s
  | impliesIntro {a c : Step} : p.depth ≠ 0 → p.lastAssumption? p.depth = some a → p.last? = some c →
      c.depth = p.depth →
      p.IsNext s (combined a.formula .implies c.formula) .impliesIntro [a.id, c.id] (p.depth - 1) → Derived p s

/-! ## What each rule works on and gives -/

theorem assume_ok {p : Proof} {input : Option String} {s : Step} (h : p.assume input = .ok s) :
    ∃ given f, input = some given ∧ Formula.read (Text.trim given) = .ok f ∧
      p.IsNext s (Text.trim given) .assume [] (p.depth + 1) := by
  unfold assume at h
  obtain ⟨text, htext, h1⟩ := bind_ok h
  obtain ⟨given, f, hgiven, rfl, hf⟩ := givenFormula_ok htext
  exact ⟨given, f, hgiven, hf, newStep_ok h1⟩

theorem modusPonens_ok [CallStack] {p : Proof} {selected : List Int} {s : Step}
    (h : p.modusPonens selected = .ok s) :
    ∃ i j a b fact conditional x y, selected = [i, j] ∧ p.step? i = some a ∧ p.step? j = some b ∧
      p.matched? s = some (fact, conditional) ∧ (fact = a ∧ conditional = b ∨ fact = b ∧ conditional = a) ∧
      Formula.read conditional.formula = .ok (.binary .implies x y) ∧
      sameLoosely fact.formula x.display = true ∧ p.IsNext s y.display .modusPonens [i, j] p.depth := by
  unfold modusPonens at h
  obtain ⟨⟨⟨i, a⟩, ⟨j, b⟩⟩, hsel, h1⟩ := bind_ok h
  obtain ⟨first, hfirst, h2⟩ := bind_ok h1
  obtain ⟨hselected, ha, hb⟩ := selectTwo_ok hsel
  -- the second step is tried as the conditional first, then the first one
  rcases first with _ | text
  · obtain ⟨second, hsecond, h3⟩ := bind_ok h2
    rcases second with _ | text
    · cases h3
    · have hs := newStep_ok h3
      obtain ⟨x, y, hread, hsame, rfl⟩ := detach_ok hsecond
      refine ⟨i, j, a, b, b, a, x, y, hselected, ha, hb, ?_, .inr ⟨rfl, rfl⟩, hread, hsame, hs⟩
      simp only [matched?, hs.dependencies, ← hselected, hsel, hfirst]
  · have hs := newStep_ok h2
    obtain ⟨x, y, hread, hsame, rfl⟩ := detach_ok hfirst
    refine ⟨i, j, a, b, a, b, x, y, hselected, ha, hb, ?_, .inl ⟨rfl, rfl⟩, hread, hsame, hs⟩
    simp only [matched?, hs.dependencies, ← hselected, hsel, hfirst]

theorem andIntro_ok {p : Proof} {selected : List Int} {s : Step} (h : p.andIntro selected = .ok s) :
    ∃ i j a b, selected = [i, j] ∧ p.step? i = some a ∧ p.step? j = some b ∧
      p.IsNext s (combined a.formula .and b.formula) .andIntro [i, j] p.depth := by
  unfold andIntro at h
  obtain ⟨⟨⟨i, a⟩, ⟨j, b⟩⟩, hsel, h1⟩ := bind_ok h
  obtain ⟨hselected, ha, hb⟩ := selectTwo_ok hsel
  exact ⟨i, j, a, b, hselected, ha, hb, newStep_ok h1⟩

theorem andElim_ok [CallStack] {p : Proof} {selected : List Int} {rule : RuleId} {tag : String}
    {side : Formula → Formula → Formula} {s : Step} (h : p.andElim selected rule tag side = .ok s) :
    ∃ i a x y, selected = [i] ∧ p.step? i = some a ∧ Formula.read a.formula = .ok (.binary .and x y) ∧
      p.IsNext s (side x y).display rule [i] p.depth := by
  unfold andElim at h
  obtain ⟨⟨i, a⟩, hsel, h1⟩ := bind_ok h
  obtain ⟨f, hf, h2⟩ := bind_ok h1
  split at h2
  · rename_i x y
    obtain ⟨text, htext, h3⟩ := bind_ok h2
    obtain ⟨hselected, ha⟩ := selectOne_ok hsel
    refine ⟨i, a, x, y, hselected, ha, Formula.needed_ok hf, ?_⟩
    rw [← Formula.written_ok htext]
    exact newStep_ok h3
  · cases h2

theorem orIntro_ok {p : Proof} {selected : List Int} {input : Option String} {rule : RuleId} {tag : String}
    {join : String → String → String} {s : Step} (h : p.orIntro selected input rule tag join = .ok s) :
    ∃ i a given f, selected = [i] ∧ p.step? i = some a ∧ input = some given ∧
      Formula.read (Text.trim given) = .ok f ∧
      p.IsNext s (join a.formula (Text.trim given)) rule [i] p.depth := by
  unfold orIntro at h
  obtain ⟨⟨i, a⟩, hsel, h1⟩ := bind_ok h
  obtain ⟨text, htext, h2⟩ := bind_ok h1
  obtain ⟨hselected, ha⟩ := selectOne_ok hsel
  obtain ⟨given, f, hgiven, rfl, hf⟩ := givenFormula_ok htext
  exact ⟨i, a, given, f, hselected, ha, hgiven, hf, newStep_ok h2⟩

theorem doubleNegation_ok [CallStack] {p : Proof} {selected : List Int} {s : Step}
    (h : p.doubleNegation selected = .ok s) :
    ∃ i a x, selected = [i] ∧ p.step? i = some a ∧ Formula.read a.formula = .ok (.neg (.neg x)) ∧
      p.IsNext s x.display .doubleNegation [i] p.depth := by
  unfold doubleNegation at h
  obtain ⟨⟨i, a⟩, hsel, h1⟩ := bind_ok h
  obtain ⟨f, hf, h2⟩ := bind_ok h1
  split at h2
  · rename_i x
    obtain ⟨text, htext, h3⟩ := bind_ok h2
    obtain ⟨hselected, ha⟩ := selectOne_ok hsel
    refine ⟨i, a, x, hselected, ha, Formula.needed_ok hf, ?_⟩
    rw [← Formula.written_ok htext]
    exact newStep_ok h3
  · cases h2

theorem impliesIntro_ok {p : Proof} {s : Step} (h : p.impliesIntro = .ok s) :
    p.depth ≠ 0 ∧ ∃ a c, p.lastAssumption? p.depth = some a ∧ p.last? = some c ∧ c.depth = p.depth ∧
      p.IsNext s (combined a.formula .implies c.formula) .impliesIntro [a.id, c.id] (p.depth - 1) := by
  unfold impliesIntro at h
  split at h
  · cases h
  · rename_i hdepth
    split at h
    · rename_i a c ha hc
      split at h
      · rename_i hcd
        exact ⟨hdepth, a, c, ha, hc, hcd, newStep_ok h⟩
      · cases h
    · cases h

/-- What a rule gives is a new step of the proof, as the rule makes it. -/
theorem derived_of_derive [CallStack] {p : Proof} {rule : RuleId} {selected : List Int} {input : Option String}
    {s : Step} (h : p.derive rule selected input = .ok s) : p.Derived s ∧ s.rule = rule := by
  unfold derive at h
  cases rule with
  | premise => cases h
  | assume =>
    obtain ⟨given, f, -, hf, hs⟩ := assume_ok h
    exact ⟨.assume hf hs, hs.rule⟩
  | modusPonens =>
    obtain ⟨i, j, a, b, fact, conditional, x, y, -, ha, hb, hmatched, hboth, hread, hsame, hs⟩ := modusPonens_ok h
    exact ⟨.modusPonens ha hb hmatched hboth hread hsame hs, hs.rule⟩
  | modusTollens => cases h
  | andIntro =>
    obtain ⟨i, j, a, b, -, ha, hb, hs⟩ := andIntro_ok h
    exact ⟨.andIntro ha hb hs, hs.rule⟩
  | andElimLeft =>
    obtain ⟨i, a, x, y, -, ha, hread, hs⟩ := andElim_ok h
    exact ⟨.andElim ha hread (.inl hs), hs.rule⟩
  | andElimRight =>
    obtain ⟨i, a, x, y, -, ha, hread, hs⟩ := andElim_ok h
    exact ⟨.andElim ha hread (.inr hs), hs.rule⟩
  | orIntroLeft =>
    obtain ⟨i, a, given, f, -, ha, -, hf, hs⟩ := orIntro_ok h
    exact ⟨.orIntro ha hf (.inl hs), hs.rule⟩
  | orIntroRight =>
    obtain ⟨i, a, given, f, -, ha, -, hf, hs⟩ := orIntro_ok h
    exact ⟨.orIntro ha hf (.inr hs), hs.rule⟩
  | doubleNegation =>
    obtain ⟨i, a, x, -, ha, hread, hs⟩ := doubleNegation_ok h
    exact ⟨.doubleNegation ha hread hs, hs.rule⟩
  | impliesIntro =>
    obtain ⟨hdepth, a, c, ha, hc, hcd, hs⟩ := impliesIntro_ok h
    exact ⟨.impliesIntro hdepth ha hc hcd hs, hs.rule⟩

namespace Derived

variable [CallStack] {p : Proof} {s : Step}

/-- How the depth of a new step comes from that of the proof: an assumption goes one level down, the end
of a scope one up, and every other step stays. -/
theorem depth_eq (h : p.Derived s) :
    (s.rule = .assume ∧ s.depth = p.depth + 1) ∨ (s.rule = .impliesIntro ∧ s.depth = p.depth - 1) ∨
      (s.rule ≠ .assume ∧ s.rule ≠ .impliesIntro ∧ s.depth = p.depth) := by
  cases h with
  | assume _ hs => exact .inl ⟨hs.rule, hs.depth⟩
  | modusPonens _ _ _ _ _ _ hs => exact .inr (.inr ⟨by simp [hs.rule], by simp [hs.rule], hs.depth⟩)
  | andIntro _ _ hs => exact .inr (.inr ⟨by simp [hs.rule], by simp [hs.rule], hs.depth⟩)
  | andElim _ _ hs =>
    rcases hs with hs | hs <;> exact .inr (.inr ⟨by simp [hs.rule], by simp [hs.rule], hs.depth⟩)
  | orIntro _ _ hs =>
    rcases hs with hs | hs <;> exact .inr (.inr ⟨by simp [hs.rule], by simp [hs.rule], hs.depth⟩)
  | doubleNegation _ _ hs => exact .inr (.inr ⟨by simp [hs.rule], by simp [hs.rule], hs.depth⟩)
  | impliesIntro _ _ _ _ hs => exact .inr (.inl ⟨hs.rule, hs.depth⟩)

theorem depth_of_assume (h : p.Derived s) (hs : s.rule = .assume) : s.depth = p.depth + 1 := by
  rcases h.depth_eq with ⟨-, hdepth⟩ | ⟨hrule, -⟩ | ⟨hrule, -⟩
  · exact hdepth
  · cases hrule.symm.trans hs
  · exact absurd hs hrule

theorem depth_of_stays (h : p.Derived s) (hassume : s.rule ≠ .assume) (hclose : s.rule ≠ .impliesIntro) :
    s.depth = p.depth := by
  rcases h.depth_eq with ⟨hrule, -⟩ | ⟨hrule, -⟩ | ⟨-, -, hdepth⟩
  · exact absurd hrule hassume
  · exact absurd hrule hclose
  · exact hdepth

theorem read_of_assume (h : p.Derived s) (hs : s.rule = .assume) : ∃ f, Formula.read s.formula = .ok f := by
  cases h with
  | assume ht hnext => exact ⟨_, hnext.formula ▸ ht⟩
  | modusPonens _ _ _ _ _ _ hnext => cases hnext.rule.symm.trans hs
  | andIntro _ _ hnext => cases hnext.rule.symm.trans hs
  | andElim _ _ hnext => rcases hnext with hnext | hnext <;> cases hnext.rule.symm.trans hs
  | orIntro _ _ hnext => rcases hnext with hnext | hnext <;> cases hnext.rule.symm.trans hs
  | doubleNegation _ _ hnext => cases hnext.rule.symm.trans hs
  | impliesIntro _ _ _ _ hnext => cases hnext.rule.symm.trans hs

/-- The end of a scope joins the last assumption of the depth to the last step. -/
theorem closed_of_impliesIntro (h : p.Derived s) (hs : s.rule = .impliesIntro) :
    ∃ a c, p.lastAssumption? p.depth = some a ∧ p.last? = some c ∧ c.depth = p.depth ∧
      p.IsNext s (combined a.formula .implies c.formula) .impliesIntro [a.id, c.id] (p.depth - 1) := by
  cases h with
  | impliesIntro _ ha hc hdepth hnext => exact ⟨_, _, ha, hc, hdepth, hnext⟩
  | assume _ hnext => cases hnext.rule.symm.trans hs
  | modusPonens _ _ _ _ _ _ hnext => cases hnext.rule.symm.trans hs
  | andIntro _ _ hnext => cases hnext.rule.symm.trans hs
  | andElim _ _ hnext => rcases hnext with hnext | hnext <;> cases hnext.rule.symm.trans hs
  | orIntro _ _ hnext => rcases hnext with hnext | hnext <;> cases hnext.rule.symm.trans hs
  | doubleNegation _ _ hnext => cases hnext.rule.symm.trans hs

theorem depth_ne_zero (h : p.Derived s) (hs : s.rule = .impliesIntro) : p.depth ≠ 0 := by
  obtain ⟨a, c, -, -, -, hnext⟩ := h.closed_of_impliesIntro hs
  have hdepth := hnext.depth
  have hnonneg := s.depth_nonneg
  omega

theorem depthAfter_eq (h : p.Derived s) : p.depthAfter s.rule s = s.depth := by
  rcases h.depth_eq with ⟨hr, -⟩ | ⟨hr, -⟩ | ⟨h1, h2, hd⟩
  · rw [hr]; rfl
  · rw [hr]; rfl
  · unfold Proof.depthAfter
    split
    · exact absurd ‹_› h1
    · exact absurd ‹_› h2
    · exact hd.symm

/-- A new step gets the next number, is no premise, and cites steps of the proof. -/
theorem frame (h : p.Derived s) :
    s.id = p.nextId ∧ s.rule ≠ .premise ∧ ∀ i ∈ s.dependencies, ∃ a ∈ p.steps, a.id = i := by
  have one : ∀ {i : Int} {a : Step}, p.step? i = some a → ∀ k ∈ [i], ∃ a ∈ p.steps, a.id = k := by
    intro i a ha k hk
    obtain rfl := List.mem_singleton.1 hk
    exact ⟨a, mem_of_step? ha⟩
  have two : ∀ {i j : Int} {a b : Step}, p.step? i = some a → p.step? j = some b →
      ∀ k ∈ [i, j], ∃ a ∈ p.steps, a.id = k := by
    intro i j a b ha hb k hk
    rcases List.mem_cons.1 hk with rfl | hk
    · exact ⟨a, mem_of_step? ha⟩
    · exact one hb k hk
  cases h with
  | assume _ hs => exact ⟨hs.id, by simp [hs.rule], by simp [hs.dependencies]⟩
  | modusPonens ha hb _ _ _ _ hs => exact ⟨hs.id, by simp [hs.rule], hs.dependencies ▸ two ha hb⟩
  | andIntro ha hb hs => exact ⟨hs.id, by simp [hs.rule], hs.dependencies ▸ two ha hb⟩
  | andElim ha _ hs => rcases hs with hs | hs <;> exact ⟨hs.id, by simp [hs.rule], hs.dependencies ▸ one ha⟩
  | orIntro ha _ hs => rcases hs with hs | hs <;> exact ⟨hs.id, by simp [hs.rule], hs.dependencies ▸ one ha⟩
  | doubleNegation ha _ hs => exact ⟨hs.id, by simp [hs.rule], hs.dependencies ▸ one ha⟩
  | @impliesIntro a c _ ha hc _ hs =>
    refine ⟨hs.id, by simp [hs.rule], ?_⟩
    rw [hs.dependencies]
    intro k hk
    rcases List.mem_cons.1 hk with rfl | hk
    · exact ⟨a, (mem_of_lastAssumption? ha).1, rfl⟩
    · obtain rfl := List.mem_singleton.1 hk
      exact ⟨c, List.mem_of_getLast? hc, rfl⟩

end Derived

end Proof

end Deduction
