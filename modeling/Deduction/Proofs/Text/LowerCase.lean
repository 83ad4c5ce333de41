/-
Lowering a text that was lowered changes nothing. A character of a lowered text is a character of the text that
lowering leaves as it is, or a small letter (`mem_lower`); and no small letter is a capital again, which the table
of capitals tells run by run (`capitalRuns_apart`). So every character of a lowered text stays as it is where it is
lowered again (`lower_lower`), whatever its neighbours are.
-/
import Deduction.Text.LowerCase

namespace Deduction.Text

/-- Lowering leaves the character as it is. -/
def Lowered (c : Char) : Prop :=
  c ≠ 'Σ' ∧ lowerChar c = [c]

instance : DecidablePred Lowered := fun c =>
  inferInstanceAs (Decidable (c ≠ 'Σ' ∧ lowerChar c = [c]))

/-- Characters that go to one character each, whatever their neighbours are, are lowered one by one. -/
theorem lowerAfter_of_single {g : Char → Char} {cs : List Char}
    (h : ∀ c ∈ cs, c ≠ 'Σ' ∧ lowerChar c = [g c]) (before : List Char) : lowerAfter before cs = cs.map g := by
  induction cs generalizing before with
  | nil => rfl
  | cons c cs ih =>
    obtain ⟨hsigma, hlower⟩ := h c List.mem_cons_self
    rw [lowerAfter, if_neg hsigma, hlower, ih fun d hd => h d (List.mem_cons_of_mem c hd)]
    rfl

/-! ## Small letters -/

namespace CapitalRun

variable {r s : CapitalRun} {n : Nat} {span : Nat × Nat}

/-- The code of the small letter of a capital. -/
def small (r : CapitalRun) (n : Nat) : Nat :=
  (n + r.shift).toNat

/-- Whether all small letters of the run lie outside of the span. -/
def clears (r : CapitalRun) (span : Nat × Nat) : Bool :=
  span.2.blt (r.small r.first) || (r.small r.last).blt span.1

/-- Whether no small letter of the one run is a capital of the other: they lie outside of it, or every other
character is a capital and the small letters are between them. -/
def apart (r s : CapitalRun) : Bool :=
  r.clears (s.first, s.last) ||
    (s.stride.beq 2 && (r.stride.beq 2 || r.first.beq r.last) && ((r.small r.first + s.first) % 2).beq 1)

/-- The codes of the small letters are those of characters. -/
def Valid (r : CapitalRun) : Prop :=
  0 ≤ r.first + r.shift ∧ (r.small r.last < 0xD800 ∨ 0xDFFF < r.small r.first ∧ r.small r.last < 0x110000)

instance : DecidablePred Valid := fun r =>
  inferInstanceAs (Decidable (0 ≤ r.first + r.shift ∧
    (r.small r.last < 0xD800 ∨ 0xDFFF < r.small r.first ∧ r.small r.last < 0x110000)))

theorem contains_iff : r.contains n = true ↔ r.first ≤ n ∧ n ≤ r.last ∧ (n - r.first) % r.stride = 0 := by
  simp [contains, and_assoc]

theorem small_bounds (h : r.contains n = true) :
    r.small r.first ≤ r.small n ∧ r.small n ≤ r.small r.last := by
  obtain ⟨hfirst, hlast, -⟩ := contains_iff.1 h
  unfold small
  omega

theorem not_mem_of_clears (hc : r.clears span = true) (h : r.contains n = true) :
    ¬ (span.1 ≤ r.small n ∧ r.small n ≤ span.2) := by
  have hbounds := small_bounds h
  rw [clears, Bool.or_eq_true, Nat.blt_eq, Nat.blt_eq] at hc
  omega

theorem not_contains_of_apart (hv : r.Valid) (ha : r.apart s = true) (h : r.contains n = true) :
    s.contains (r.small n) = false := by
  rw [Bool.eq_false_iff]
  intro hs
  obtain ⟨hsfirst, hslast, hsstride⟩ := contains_iff.1 hs
  rw [apart, Bool.or_eq_true] at ha
  rcases ha with hclears | halternate
  · exact not_mem_of_clears hclears h ⟨hsfirst, hslast⟩
  -- both codes are an even number of places behind the first of their run
  · obtain ⟨hfirst, hlast, hstride⟩ := contains_iff.1 h
    have hvalid := hv.1
    simp only [Bool.and_eq_true, Bool.or_eq_true, Nat.beq_eq] at halternate
    obtain ⟨⟨htwo, hrun⟩, hodd⟩ := halternate
    have heven : (n - r.first) % 2 = 0 := by
      rcases hrun with hrun | hrun
      · rwa [hrun] at hstride
      · rw [show n - r.first = 0 by omega]
    rw [htwo] at hsstride
    unfold small at hsfirst hsstride hodd
    omega

end CapitalRun

theorem capitalRuns_valid : ∀ r ∈ capitalRuns, r.Valid := by decide +kernel

/-- No small letter is a capital. -/
theorem capitalRuns_apart : capitalRuns.all (fun r => capitalRuns.all r.apart) = true := by decide +kernel

/-- The dotted capital I and the capital sigma, which stand in no run. -/
theorem capitalRuns_clear :
    ∀ r ∈ capitalRuns, r.clears (0x130, 0x130) = true ∧ r.clears (0x3A3, 0x3A3) = true := by decide +kernel

/-- A small letter of some capital, or the dot that is left of the dotted one. -/
def IsSmall (d : Char) : Prop :=
  d ∈ ['i', '\u0307', 'ς', 'σ'] ∨
    ∃ r ∈ capitalRuns, ∃ c : Char, r.contains c.toNat = true ∧ d = Char.ofNat (r.small c.toNat)

theorem toNat_small {r : CapitalRun} (hr : r ∈ capitalRuns) {n : Nat} (h : r.contains n = true) :
    (Char.ofNat (r.small n)).toNat = r.small n := by
  have hvalid := capitalRuns_valid r hr
  have hbounds := CapitalRun.small_bounds h
  have hchar : (r.small n).isValidChar := by
    unfold Nat.isValidChar
    have := hvalid.2
    omega
  unfold Char.ofNat
  rw [dif_pos hchar]
  rfl

namespace IsSmall

variable {d : Char}

theorem lowered (h : IsSmall d) : Lowered d := by
  rcases h with h | ⟨r, hr, c, hc, rfl⟩
  · have hall : ['i', '\u0307', 'ς', 'σ'].all (fun c => decide (Lowered c)) = true := by decide +kernel
    exact of_decide_eq_true (List.all_eq_true.1 hall d h)
  · have hvalid := capitalRuns_valid r hr
    have hcode := toNat_small hr hc
    have hne : ∀ e : Char, r.clears (e.toNat, e.toNat) = true → Char.ofNat (r.small c.toNat) ≠ e := by
      rintro e he rfl
      rw [hcode] at he
      exact CapitalRun.not_mem_of_clears he hc ⟨Nat.le_refl _, Nat.le_refl _⟩
    have hnone : capitalRuns.find? (·.contains (r.small c.toNat)) = none := by
      rw [List.find?_eq_none]
      intro s hs
      have hapart := List.all_eq_true.1 (List.all_eq_true.1 capitalRuns_apart r hr) s hs
      rw [CapitalRun.not_contains_of_apart hvalid hapart hc]
      exact Bool.false_ne_true
    refine ⟨hne 'Σ' (capitalRuns_clear r hr).2, ?_⟩
    rw [lowerChar, if_neg (hne 'İ' (capitalRuns_clear r hr).1), hcode]
    rw [hnone]

/-- A small letter is outside of the spans that the letters of the runs are outside of, and the others too. -/
theorem not_within (h : IsSmall d) {spans : List (Nat × Nat)}
    (hothers : ['i', '\u0307', 'ς', 'σ'].any (within spans) = false)
    (hruns : ∀ r ∈ capitalRuns, ∀ span ∈ spans, r.clears span = true) : within spans d = false := by
  rcases h with h | ⟨r, hr, c, hc, rfl⟩
  · exact Bool.eq_false_iff.2 (List.any_eq_false.1 hothers d h)
  · rw [within, List.any_eq_false]
    intro span hspan
    have hout := CapitalRun.not_mem_of_clears (hruns r hr span hspan) hc
    rw [toNat_small hr hc]
    simpa using hout

end IsSmall

/-! ## Lowered texts -/

/-- A character is lowered to itself or to small letters. -/
theorem lowerChar_cases (c : Char) : lowerChar c = [c] ∨ ∀ d ∈ lowerChar c, IsSmall d := by
  by_cases hdotted : c = 'İ'
  · subst hdotted
    have hall : (lowerChar 'İ').all (['i', '\u0307', 'ς', 'σ'].contains ·) = true := by decide
    exact .inr fun d hd => .inl (List.contains_iff_mem.1 (List.all_eq_true.1 hall d hd))
  · rw [lowerChar, if_neg hdotted]
    split
    · rename_i r hfind
      have hcontains : r.contains c.toNat = true := by simpa using List.find?_some hfind
      exact .inr fun d hd => .inr ⟨r, List.mem_of_find?_eq_some hfind, c, hcontains, List.mem_singleton.1 hd⟩
    · exact .inl rfl

/-- A character of a lowered text is a character of the text that is lowered to itself, or a small letter. -/
theorem mem_lowerAfter {d : Char} : ∀ {cs before : List Char}, d ∈ lowerAfter before cs →
    d ∈ cs ∧ Lowered d ∨ IsSmall d
  | c :: cs, before, h => by
    rw [lowerAfter, List.mem_append] at h
    rcases h with h | h
    · by_cases hsigma : c = 'Σ'
      · rw [if_pos hsigma, List.mem_singleton] at h
        subst h
        refine .inr (.inl ?_)
        split <;> decide
      · rw [if_neg hsigma] at h
        rcases lowerChar_cases c with hself | hsmall
        · rw [hself, List.mem_singleton] at h
          subst h
          exact .inl ⟨List.mem_cons_self, hsigma, hself⟩
        · exact .inr (hsmall d h)
    · exact (mem_lowerAfter h).imp_left fun ⟨hd, hlowered⟩ => ⟨List.mem_cons_of_mem c hd, hlowered⟩

theorem mem_lower {cs : List Char} {d : Char} (h : d ∈ lower cs) : d ∈ cs ∧ Lowered d ∨ IsSmall d :=
  mem_lowerAfter h

/-- A text that was lowered is lowered to itself. -/
theorem lower_lower (cs : List Char) : lower (lower cs) = lower cs := by
  have hlowered : ∀ d ∈ lower cs, Lowered d := fun d hd =>
    (mem_lower hd).elim (fun h => h.2) IsSmall.lowered
  calc lower (lower cs) = (lower cs).map id := lowerAfter_of_single hlowered []
    _ = lower cs := List.map_id _

end Deduction.Text
