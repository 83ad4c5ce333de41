/-
What the formula of a new step is read as. A rule reads a line, takes a part of its formula and prints it, or
puts two texts together in parentheses; either way the new line says what the logic of the rule prescribes
(`concludes_of_derive`). A part that is printed is read back as that part, since no text that writes a formula
has fewer levels of nesting than its display text. Two texts that are put together get levels around them, so
their line is refused where one of them was too close to the limit, and nowhere else (`joins_combined`).
-/
import Deduction.Proofs.Formula.RoundTrip
import Deduction.Proofs.Proof.Derivation

namespace Deduction

namespace Proof

/-! ## Texts put together -/

/-- The text joins two texts by a connective. Where these are read as formulas, the text is read as the
connective of the two or refused as nested too deeply, and refused exactly when one of the two has more levels
than the limit leaves it: a pair of parentheses is put around each, and the right side of an implication is a
level of its own. -/
def Joins (text left : String) (op : Connective) (right : String) : Prop :=
  ∀ x y, Formula.read left = .ok x → Formula.read right = .ok y →
    (Formula.read text = .ok (.binary op x y) ∨
      ∃ t, Formula.read text = .error (.nestedTooDeep t nestingLimit)) ∧
    ((∃ t, Formula.read text = .error (.nestedTooDeep t nestingLimit)) ↔
      (∃ m, Writes left x m ∧ nestingLimit < m + 1) ∨
        ∃ n, Writes right y n ∧ nestingLimit < n + 1 + op.opened)

theorem joins_combined (left : String) (op : Connective) (right : String) :
    Joins (combined left op right) left op right := by
  intro x y hx hy
  obtain ⟨m, hm⟩ := Formula.writes_of_read hx
  obtain ⟨n, hn⟩ := Formula.writes_of_read hy
  have hw := hm.combined hn op
  by_cases hfits : max (m + 1) (n + 1 + op.opened) ≤ nestingLimit
  · have hread := hw.read_of_le hfits
    refine ⟨.inl hread, ?_, ?_⟩
    · rintro ⟨t, ht⟩
      cases hread.symm.trans ht
    · rintro (⟨m', hm', hlt⟩ | ⟨n', hn', hlt⟩)
      · cases hm.nesting_unique hm'
        omega
      · cases hn.nesting_unique hn'
        omega
  · have hrefused := hw.read_of_lt (Nat.lt_of_not_le hfits)
    refine ⟨.inr hrefused, ⟨fun _ => ?_, fun _ => hrefused⟩⟩
    by_cases hleft : m + 1 ≤ nestingLimit
    · exact .inr ⟨n, hn, by omega⟩
    · exact .inl ⟨m, hm, by omega⟩

/-! ## Conclusions -/

/-- What the logic of a rule says of a step that the rule gives, when it is applied to the selected steps and
to the formula that the user gave. -/
def Concludes (p : Proof) (selected : List Int) (input : Option String) (s : Step) : RuleId → Prop
  | .premise => False
  | .modusTollens => False
  | .assume => ∃ given f, input = some given ∧ s.formula = Text.trim given ∧ Formula.read s.formula = .ok f
  | .modusPonens => s.dependencies = selected ∧ ∃ i j a b fact conditional x y, selected = [i, j] ∧
      p.step? i = some a ∧ p.step? j = some b ∧ (fact = a ∧ conditional = b ∨ fact = b ∧ conditional = a) ∧
      Formula.read conditional.formula = .ok (.binary .implies x y) ∧
      sameLoosely fact.formula x.display = true ∧ Formula.read s.formula = .ok y
  | .andIntro => s.dependencies = selected ∧ ∃ i j a b, selected = [i, j] ∧
      p.step? i = some a ∧ p.step? j = some b ∧ Joins s.formula a.formula .and b.formula
  | .andElimLeft => s.dependencies = selected ∧ ∃ i a x y, selected = [i] ∧ p.step? i = some a ∧
      Formula.read a.formula = .ok (.binary .and x y) ∧ Formula.read s.formula = .ok x
  | .andElimRight => s.dependencies = selected ∧ ∃ i a x y, selected = [i] ∧ p.step? i = some a ∧
      Formula.read a.formula = .ok (.binary .and x y) ∧ Formula.read s.formula = .ok y
  | .orIntroLeft => s.dependencies = selected ∧ ∃ i a given, selected = [i] ∧ p.step? i = some a ∧
      input = some given ∧ Joins s.formula a.formula .or (Text.trim given)
  | .orIntroRight => s.dependencies = selected ∧ ∃ i a given, selected = [i] ∧ p.step? i = some a ∧
      input = some given ∧ Joins s.formula (Text.trim given) .or a.formula
  | .doubleNegation => s.dependencies = selected ∧ ∃ i a x, selected = [i] ∧ p.step? i = some a ∧
      Formula.read a.formula = .ok (.neg (.neg x)) ∧ Formula.read s.formula = .ok x
  | .impliesIntro => ∃ a c, p.lastAssumption? p.depth = some a ∧ p.last? = some c ∧
      s.dependencies = [a.id, c.id] ∧ Joins s.formula a.formula .implies c.formula

/-- A step that a rule gives says what the logic of the rule prescribes. -/
theorem concludes_of_derive [CallStack] (p : Proof) (rule : RuleId) (selected : List Int) (input : Option String)
    (s : Step) (h : p.derive rule selected input = .ok s) : p.Concludes selected input s rule := by
  unfold derive at h
  cases rule with
  | premise => cases h
  | assume =>
    obtain ⟨given, f, hgiven, hf, hs⟩ := assume_ok h
    exact ⟨given, f, hgiven, hs.formula, hs.formula ▸ hf⟩
  | modusPonens =>
    obtain ⟨i, j, a, b, fact, conditional, x, y, rfl, ha, hb, -, hboth, hread, hsame, hs⟩ := modusPonens_ok h
    refine ⟨hs.dependencies, i, j, a, b, fact, conditional, x, y, rfl, ha, hb, hboth, hread, hsame, ?_⟩
    rw [hs.formula]
    exact (Formula.Readable.of_read hread).right.read_display
  | modusTollens => cases h
  | andIntro =>
    obtain ⟨i, j, a, b, rfl, ha, hb, hs⟩ := andIntro_ok h
    refine ⟨hs.dependencies, i, j, a, b, rfl, ha, hb, ?_⟩
    rw [hs.formula]
    exact joins_combined a.formula .and b.formula
  | andElimLeft =>
    obtain ⟨i, a, x, y, rfl, ha, hread, hs⟩ := andElim_ok h
    refine ⟨hs.dependencies, i, a, x, y, rfl, ha, hread, ?_⟩
    rw [hs.formula]
    exact (Formula.Readable.of_read hread).left.read_display
  | andElimRight =>
    obtain ⟨i, a, x, y, rfl, ha, hread, hs⟩ := andElim_ok h
    refine ⟨hs.dependencies, i, a, x, y, rfl, ha, hread, ?_⟩
    rw [hs.formula]
    exact (Formula.Readable.of_read hread).right.read_display
  | orIntroLeft =>
    obtain ⟨i, a, given, f, rfl, ha, hgiven, -, hs⟩ := orIntro_ok h
    refine ⟨hs.dependencies, i, a, given, rfl, ha, hgiven, ?_⟩
    rw [hs.formula]
    exact joins_combined a.formula .or (Text.trim given)
  | orIntroRight =>
    obtain ⟨i, a, given, f, rfl, ha, hgiven, -, hs⟩ := orIntro_ok h
    refine ⟨hs.dependencies, i, a, given, rfl, ha, hgiven, ?_⟩
    rw [hs.formula]
    exact joins_combined (Text.trim given) .or a.formula
  | doubleNegation =>
    obtain ⟨i, a, x, rfl, ha, hread, hs⟩ := doubleNegation_ok h
    refine ⟨hs.dependencies, i, a, x, rfl, ha, hread, ?_⟩
    rw [hs.formula]
    exact (Formula.Readable.of_read hread).operand.operand.read_display
  | impliesIntro =>
    obtain ⟨-, a, c, ha, hc, -, hs⟩ := impliesIntro_ok h
    refine ⟨a, c, ha, hc, hs.dependencies, ?_⟩
    rw [hs.formula]
    exact joins_combined a.formula .implies c.formula

attribute [local instance] CallStack.usual

/-- A disjunction with the formula that the user gave in front of the line, trimmed. -/
theorem concludes_of_derive_given :
    ∃ p s, start "q" (some "modus-ponens") = .ok p ∧ p.derive .orIntroRight [1] (some " ~s ") = .ok s ∧
      s.formula = "(~s) | (p)" ∧ p.Concludes [1] (some " ~s ") s .orIntroRight :=
  ⟨_, _, rfl, rfl, rfl, concludes_of_derive _ .orIntroRight [1] (some " ~s ") _ rfl⟩

end Proof

end Deduction
