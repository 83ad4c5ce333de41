/-
What a proof can read of its own lines. Premises and assumptions are read, and so is a part of a formula that a
rule prints (`Derived.read`). The rules that join two texts do not read what they write (`joined_of_derive`), which
has a level or two more than the texts: where a text has all the levels that the limit allows, the new line is one
that no rule can read (`exists_line_refused`). So at all times a line is read as a formula, or it joins the lines
that its step cites, or one of them and what the user gave, and is refused as nested too deeply because of the
levels that it puts around them (`legible_after`).
-/
import Deduction.Proofs.Formula.RoundTrip
import Deduction.Proofs.Proof.WellFormed

namespace Deduction

/-- The connective by which a rule joins two texts. The other rules write a formula that was read. -/
def RuleId.joins? : RuleId → Option Connective
  | andIntro => some .and
  | orIntroLeft => some .or
  | orIntroRight => some .or
  | impliesIntro => some .implies
  | _ => none

namespace Proof

/-- What a rule that joins texts has put together in a step. The texts are the lines of steps that it cites, in the
order in which it cites them, and for a disjunction one such line and what the user gave with the change that added
the step, trimmed. -/
inductive Joined (steps : List Step) (c : Change) (s : Step) : String → Connective → String → Prop
  | andIntro {a b : Step} : s.rule = .andIntro → a ∈ steps → b ∈ steps → s.dependencies = [a.id, b.id] →
      Joined steps c s a.formula .and b.formula
  | orIntroLeft {a : Step} {given : String} {f : Formula} : s.rule = .orIntroLeft → a ∈ steps →
      s.dependencies = [a.id] → c = .extend .orIntroLeft [a.id] (some given) →
      Formula.read (Text.trim given) = .ok f → Joined steps c s a.formula .or (Text.trim given)
  | orIntroRight {a : Step} {given : String} {f : Formula} : s.rule = .orIntroRight → a ∈ steps →
      s.dependencies = [a.id] → c = .extend .orIntroRight [a.id] (some given) →
      Formula.read (Text.trim given) = .ok f → Joined steps c s (Text.trim given) .or a.formula
  | impliesIntro {a b : Step} : s.rule = .impliesIntro → a ∈ steps → b ∈ steps → s.dependencies = [a.id, b.id] →
      Joined steps c s a.formula .implies b.formula

namespace Joined

variable {steps : List Step} {c : Change} {s : Step} {op : Connective} {left right : String}

/-- What was joined stays so when more steps are added. -/
theorem mono {steps' : List Step} (h : Joined steps c s left op right) (hsub : ∀ t ∈ steps, t ∈ steps') :
    Joined steps' c s left op right := by
  cases h with
  | andIntro hrule ha hb hdeps => exact .andIntro hrule (hsub _ ha) (hsub _ hb) hdeps
  | orIntroLeft hrule ha hdeps hc hf => exact .orIntroLeft hrule (hsub _ ha) hdeps hc hf
  | orIntroRight hrule ha hdeps hc hf => exact .orIntroRight hrule (hsub _ ha) hdeps hc hf
  | impliesIntro hrule ha hb hdeps => exact .impliesIntro hrule (hsub _ ha) (hsub _ hb) hdeps

/-- Where the lines write formulas, so do the texts that are joined. -/
theorem writes (h : Joined steps c s left op right) (hsteps : ∀ t ∈ steps, ∃ f m, Writes t.formula f m) :
    (∃ x m, Writes left x m) ∧ ∃ y n, Writes right y n := by
  cases h with
  | andIntro _ ha hb => exact ⟨hsteps _ ha, hsteps _ hb⟩
  | orIntroLeft _ ha _ _ hf => exact ⟨hsteps _ ha, _, Formula.writes_of_read hf⟩
  | orIntroRight _ ha _ _ hf => exact ⟨⟨_, Formula.writes_of_read hf⟩, hsteps _ ha⟩
  | impliesIntro _ ha hb => exact ⟨hsteps _ ha, hsteps _ hb⟩

end Joined

/-- The line of a step is read as a formula, or it joins two texts that write formulas. Then it has one level more
than the left text and one more than the right, or two if that stands behind an implication; within the limit it is
read as the connective of the two formulas, and past it it is refused as nested too deeply. -/
inductive Legible [CallStack] (p : Proof) (changes : List Change) (s : Step) : Prop
  | read {f : Formula} : s.rule.joins? = none → Formula.read s.formula = .ok f → Legible p changes s
  | joined {c : Change} {op : Connective} {left right : String} {x y : Formula} {m n : Nat} :
      s.rule.joins? = some op → s.formula = combined left op right →
      p.AddedBy changes c s → Joined (p.after changes).steps c s left op right →
      Writes left x m → Writes right y n →
      (max (m + 1) (n + 1 + op.opened) ≤ nestingLimit → Formula.read s.formula = .ok (.binary op x y)) →
      (nestingLimit < max (m + 1) (n + 1 + op.opened) →
        ∃ t, Formula.read s.formula = .error (.nestedTooDeep t nestingLimit)) →
      Legible p changes s

/-! ## One step -/

section OneStep

variable [CallStack] {p : Proof} {s : Step}

/-- A rule that joins no texts writes a formula that was read, or prints a part of one. -/
theorem Derived.read (h : p.Derived s) (hrule : s.rule.joins? = none) : ∃ f, Formula.read s.formula = .ok f := by
  have joins : ∀ {rule : RuleId}, s.rule = rule → rule.joins? = none := by
    rintro _ rfl
    exact hrule
  have printed : ∀ {x : Formula}, s.formula = x.display → x.Readable → ∃ f, Formula.read s.formula = .ok f :=
    fun hformula hx => ⟨_, hformula ▸ hx.read_display⟩
  cases h with
  | assume ht hs => exact ⟨_, hs.formula ▸ ht⟩
  | modusPonens _ _ _ _ hread _ hs => exact printed hs.formula (Formula.Readable.of_read hread).right
  | andElim _ hread hs =>
    rcases hs with hs | hs
    · exact printed hs.formula (Formula.Readable.of_read hread).left
    · exact printed hs.formula (Formula.Readable.of_read hread).right
  | doubleNegation _ hread hs => exact printed hs.formula (Formula.Readable.of_read hread).operand.operand
  | andIntro _ _ hs => cases joins hs.rule
  | orIntro _ _ hs => rcases hs with hs | hs <;> cases joins hs.rule
  | impliesIntro _ _ _ _ hs => cases joins hs.rule

/-- Where the lines of a proof write formulas, so does what a rule gives. -/
theorem Derived.writes (h : p.Derived s) (hp : ∀ t ∈ p.steps, ∃ f m, Writes t.formula f m) :
    ∃ f m, Writes s.formula f m := by
  have combined : ∀ {op : Connective} {left right : String}, s.formula = combined left op right →
      (∃ x m, Writes left x m) → (∃ y n, Writes right y n) → ∃ f m, Writes s.formula f m := by
    rintro op left right hformula ⟨x, m, hx⟩ ⟨y, n, hy⟩
    exact ⟨_, _, hformula ▸ hx.combined hy op⟩
  cases hjoins : s.rule.joins? with
  | none =>
    obtain ⟨f, hf⟩ := h.read hjoins
    exact ⟨f, Formula.writes_of_read hf⟩
  | some op =>
    cases h with
    | andIntro ha hb hs => exact combined hs.formula (hp _ (mem_of_step? ha).1) (hp _ (mem_of_step? hb).1)
    | orIntro ha ht hs =>
      have hgiven := Formula.writes_of_read ht
      rcases hs with hs | hs
      · exact combined hs.formula (hp _ (mem_of_step? ha).1) ⟨_, hgiven⟩
      · exact combined hs.formula ⟨_, hgiven⟩ (hp _ (mem_of_step? ha).1)
    | impliesIntro _ ha hc _ hs =>
      exact combined hs.formula (hp _ (mem_of_lastAssumption? ha).1) (hp _ (List.mem_of_getLast? hc))
    | assume _ hs => simp [hs.rule, RuleId.joins?] at hjoins
    | modusPonens _ _ _ _ _ _ hs => simp [hs.rule, RuleId.joins?] at hjoins
    | andElim _ _ hs => rcases hs with hs | hs <;> simp [hs.rule, RuleId.joins?] at hjoins
    | doubleNegation _ _ hs => simp [hs.rule, RuleId.joins?] at hjoins

/-- What a rule that joins texts makes of the selected steps and of what the user gave. -/
theorem joined_of_derive {rule : RuleId} {selected : List Int} {input : Option String} {op : Connective}
    (h : p.derive rule selected input = .ok s) (hop : rule.joins? = some op) :
    ∃ left right, s.formula = combined left op right ∧
      Joined p.steps (.extend rule selected input) s left op right := by
  unfold derive at h
  cases rule with
  | andIntro =>
    cases hop
    obtain ⟨i, j, a, b, -, ha, hb, hs⟩ := andIntro_ok h
    obtain ⟨hmem, rfl⟩ := mem_of_step? ha
    obtain ⟨hmem', rfl⟩ := mem_of_step? hb
    exact ⟨_, _, hs.formula, .andIntro hs.rule hmem hmem' hs.dependencies⟩
  | orIntroLeft =>
    cases hop
    obtain ⟨i, a, given, f, rfl, ha, rfl, hf, hs⟩ := orIntro_ok h
    obtain ⟨hmem, rfl⟩ := mem_of_step? ha
    exact ⟨_, _, hs.formula, .orIntroLeft hs.rule hmem hs.dependencies rfl hf⟩
  | orIntroRight =>
    cases hop
    obtain ⟨i, a, given, f, rfl, ha, rfl, hf, hs⟩ := orIntro_ok h
    obtain ⟨hmem, rfl⟩ := mem_of_step? ha
    exact ⟨_, _, hs.formula, .orIntroRight hs.rule hmem hs.dependencies rfl hf⟩
  | impliesIntro =>
    cases hop
    obtain ⟨-, a, c, ha, hc, -, hs⟩ := impliesIntro_ok h
    exact ⟨_, _, hs.formula,
      .impliesIntro hs.rule (mem_of_lastAssumption? ha).1 (List.mem_of_getLast? hc) hs.dependencies⟩
  | premise | assume | modusPonens | modusTollens | andElimLeft | andElimRight | doubleNegation => cases hop

/-- What a change adds by a rule that joins texts. -/
theorem joined_of_added {c : Change} {op : Connective} (h : s ∈ p.added? c) (hop : s.rule.joins? = some op) :
    ∃ left right, s.formula = combined left op right ∧ Joined p.steps c s left op right := by
  cases c with
  | extend rule selected input =>
    rcases hs : p.derive rule selected input with e | s'
    · rw [added?, hs] at h
      cases h
    · rw [added?, hs] at h
      cases h
      exact joined_of_derive hs ((derived_of_derive hs).2 ▸ hop)
  | delete id => cases h

end OneStep

/-! ## Every step -/

theorem Grown.writes [CallStack] {ok : Proof → Step → Prop} {p : Proof} {steps : List Step} (h : Grown ok p steps)
    (hp : ∀ t ∈ p.steps, ∃ f m, Writes t.formula f m) : ∀ t ∈ steps, ∃ f m, Writes t.formula f m :=
  h.forall_mem hp fun _ _ ih hd => hd.writes ih

/-- The premises of the knowledge bases are formulas. -/
theorem read_premise {kb : Option String} {t : String} (h : t ∈ KnowledgeBase.premisesOf kb) :
    ∃ f, Formula.read t = .ok f := by
  have hall : ∀ kb ∈ KnowledgeBase.all, ∀ t ∈ kb.premises, (Formula.read t).isOk = true := by decide +kernel
  unfold KnowledgeBase.premisesOf at h
  rcases hkb : kb.bind KnowledgeBase.ofId? with _ | base
  · rw [hkb] at h
    cases h
  · rw [hkb] at h
    obtain ⟨id, -, hid⟩ := Option.bind_eq_some_iff.1 hkb
    have hok := hall base (List.mem_of_find?_eq_some hid) t h
    rcases hread : Formula.read t with e | f
    · rw [hread] at hok
      cases hok
    · exact ⟨f, rfl⟩

/-- A proof starts with premises, which are read as formulas. -/
theorem read_of_start {goal : String} {kb : Option String} {p : Proof} (h : start goal kb = .ok p) :
    ∀ t ∈ p.steps, t.rule = .premise ∧ ∃ f, Formula.read t.formula = .ok f := by
  obtain ⟨-, rfl⟩ := start_ok h
  intro t ht
  obtain ⟨hformula, hrule, -⟩ := premiseSteps_mem ht
  exact ⟨hrule, read_premise hformula⟩

/-- However a proof was changed since it was started, its lines are legible. -/
theorem legible_after [CallStack] (goal : String) (kb : Option String) (p : Proof) (h : start goal kb = .ok p)
    (changes : List Change) : ∀ s ∈ (p.after changes).steps, Legible p changes s := by
  have hpremise := read_of_start h
  obtain ⟨steps, hq, hg⟩ := grown_of_start h (throughout_addedBy p changes)
  intro s hs
  rw [hq] at hs
  obtain ⟨pre, post, rfl⟩ := List.append_of_mem hs
  rcases hg.split rfl with hmem | ⟨hpre, hd, c, hc, hadded⟩
  · obtain ⟨hrule, f, hread⟩ := hpremise s hmem
    exact .read (by rw [hrule]; rfl) hread
  · cases hjoins : s.rule.joins? with
    | none =>
      obtain ⟨f, hread⟩ := hd.read hjoins
      exact .read hjoins hread
    | some op =>
      obtain ⟨left, right, hformula, hjoined⟩ := joined_of_added hadded hjoins
      have hwrites := hpre.writes fun t ht => by
        obtain ⟨-, f, hread⟩ := hpremise t ht
        exact ⟨f, Formula.writes_of_read hread⟩
      obtain ⟨⟨x, m, hx⟩, y, n, hy⟩ := hjoined.writes hwrites
      have hw := hx.combined hy op
      rw [← hformula] at hw
      refine .joined hjoins hformula hc (hjoined.mono fun t ht => ?_) hx hy hw.read_of_le hw.read_of_lt
      rw [hq]
      exact List.mem_append_left _ ht

attribute [local instance] CallStack.usual

/-- A line that is joined twice, by a conjunction and at the end of its scope. -/
theorem legible_after_joining :
    ∃ p s, start "p -> p ^ p" none = .ok p ∧
      s ∈ (p.after [.extend .assume [] (some "p"), .extend .andIntro [1, 1] none,
        .extend .impliesIntro [] none]).steps ∧
      s.formula = "(p) -> ((p) ^ (p))" ∧
      Legible p [.extend .assume [] (some "p"), .extend .andIntro [1, 1] none, .extend .impliesIntro [] none] s := by
  have hs : ∃ p s, start "p -> p ^ p" none = .ok p ∧
      s ∈ (p.after [.extend .assume [] (some "p"), .extend .andIntro [1, 1] none,
        .extend .impliesIntro [] none]).steps ∧ s.formula = "(p) -> ((p) ^ (p))" :=
    ⟨_, _, rfl, .tail _ (.tail _ (.head _)), by decide +kernel⟩
  obtain ⟨p, s, hp, hs, hformula⟩ := hs
  exact ⟨p, s, hp, hs, hformula, legible_after "p -> p ^ p" none p hp _ s hs⟩

/-! ## A line that is refused -/

theorem givenFormula_of_read {d : String} {f : Formula} (htrim : Text.trim d = d) (hne : d.isEmpty = false)
    (hread : Formula.read d = .ok f) : givenFormula (some d) = .ok d := by
  unfold givenFormula Formula.needed
  simp [htrim, hne, hread]

/-- A formula is assumed and joined to itself. -/
theorem exists_joined_to_itself {d : String} (h : givenFormula (some d) = .ok d) (goal : String) :
    ∃ s ∈ ((ofPremises goal []).after [.extend .assume [] (some d), .extend .andIntro [1, 1] none]).steps,
      s.formula = combined d .and d := by
  simp only [after, List.foldl_cons, List.foldl_nil, change, extend, derive, assume, h]
  exact ⟨_, .tail _ (.head _), rfl⟩

/-- An assumption of as many negations as the limit allows, and a line that joins it to itself, which is refused. -/
theorem exists_line_refused :
    ∃ p s t, start "p" none = .ok p ∧
      s ∈ (p.after [.extend .assume [] (some (String.ofList (List.replicate 100 '~' ++ ['p']))),
        .extend .andIntro [1, 1] none]).steps ∧
      Formula.read s.formula = .error (.nestedTooDeep t nestingLimit) := by
  let f := Formula.neg^[100] (.var "p")
  have hp : (Formula.var "p").Named := (Formula.Readable.of_read (s := "p") rfl).named
  have hnamed : f.Named := Function.Iterate.rec Formula.Named hp (fun _ h => h) 100
  have hlevels : f.displayNesting = nestingLimit := by decide +kernel
  -- the text is the display text of the formula
  have htext : String.ofList (List.replicate 100 '~' ++ ['p']) = f.display := by decide +kernel
  have htrim : Text.trim (String.ofList (List.replicate 100 '~' ++ ['p'])) =
      String.ofList (List.replicate 100 '~' ++ ['p']) := by
    rw [Text.trim, String.toList_ofList]
    decide +kernel
  have hread : Formula.read (String.ofList (List.replicate 100 '~' ++ ['p'])) = .ok f :=
    htext ▸ Formula.Readable.read_display ⟨hnamed, Nat.le_of_eq hlevels⟩
  obtain ⟨s, hs, hformula⟩ := exists_joined_to_itself (givenFormula_of_read htrim (by decide +kernel) hread) "p"
  have hw := Formula.display_writes hnamed
  obtain ⟨t, ht⟩ := (hw.combined hw .and).read_of_lt (by rw [hlevels]; decide)
  exact ⟨_, s, t, rfl, hs, by rw [hformula, htext]; exact ht⟩

end Proof

end Deduction
