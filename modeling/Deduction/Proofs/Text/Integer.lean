/-
Numbers in plain decimal digits. A row of them that is not too long is read as the number that it writes
(`readInteger_of_plain`), so a natural number is read back from the digits that it is printed with
(`readInteger_toString`). Of the digits of all scripts, the plain ones are those in the ASCII range
(`bounds_of_isDigit`). A number is written unless it has more digits than the limit (`writeInteger_of_lt`,
`writeInteger_of_le`).
-/
import Deduction.Proofs.Text.Words
import Deduction.Proofs.Token.Lexer
import Deduction.Text.Integer
import Mathlib.Algebra.Group.Nat.Defs
import Mathlib.Data.List.Basic

namespace Deduction.Text

/-! ## Plain digits -/

theorem plain_iff {c : Char} : c.isDigit = true ↔ 48 ≤ c.toNat ∧ c.toNat ≤ 57 := by
  simp [Char.isDigit, UInt32.le_iff_toNat_le, ← Char.toNat_val]

theorem digitValue?_of_plain {c : Char} (h : c.isDigit = true) : digitValue? c = some (c.toNat - 48) := by
  rw [plain_iff] at h
  have hfind : zeros.find? (fun z => z ≤ c.toNat && c.toNat < z + 10) = some 48 := by
    rw [zeros, List.find?_cons_of_pos]
    simp only [Bool.and_eq_true, decide_eq_true_eq]
    omega
  rw [digitValue?, hfind, Option.map_some]

theorem isDigit_of_plain {c : Char} (h : c.isDigit = true) : isDigit c = true := by
  simp [isDigit, digitValue?_of_plain h]

/-- In the ASCII range there are no digits and no signs that look like digits but the plain ones. -/
theorem bounds_of_isDigit {c : Char} (h : isDigit c = true) (hascii : c.toNat < 128) :
    48 ≤ c.toNat ∧ c.toNat ≤ 57 := by
  have hzeros : ∀ z ∈ zeros, z = 48 ∨ 128 ≤ z := by decide
  have hspans : ∀ s ∈ digitLikeSpans, 128 ≤ s.1 := by decide
  rw [isDigit, Bool.or_eq_true] at h
  rcases h with h | h
  · rw [digitValue?, Option.isSome_map, List.find?_isSome] at h
    obtain ⟨z, hz, hc⟩ := h
    simp only [Bool.and_eq_true, decide_eq_true_eq] at hc
    have := hzeros z hz
    omega
  · simp only [within, List.any_eq_true, Bool.and_eq_true, decide_eq_true_eq] at h
    obtain ⟨s, hs, hc⟩ := h
    have := hspans s hs
    omega

theorem not_blank_of_plain {c : Char} (h : c.isDigit = true) : isBlank c = false := by
  rw [plain_iff] at h
  rw [Bool.eq_false_iff]
  intro hb
  have := Token.isBlank_bounds hb
  omega

/-! ## Reading -/

theorem underscoresApart_of_plain : ∀ {cs : List Char}, (∀ c ∈ cs, c.isDigit = true) → underscoresApart cs = true
  | [], _ => rfl
  | c :: cs, h => by
    have hc : c ≠ '_' := by
      rintro rfl
      exact absurd (h '_' List.mem_cons_self) (by decide)
    rw [underscoresApart.eq_4 c cs (fun hc' => absurd hc' hc) (fun _ hc' => absurd hc' hc)]
    exact underscoresApart_of_plain fun d hd => h d (List.mem_cons_of_mem c hd)

/-- A number without a sign is the number as it stands. -/
theorem splitSign_of_plain {cs : List Char} (h : ∀ c ∈ cs, c.isDigit = true) : splitSign cs = (1, cs) := by
  rcases cs with _ | ⟨c, cs⟩
  · rfl
  · have hc := h c List.mem_cons_self
    unfold splitSign
    split
    · rename_i heq
      obtain ⟨rfl, -⟩ := List.cons.inj heq
      exact absurd hc (by decide)
    · rename_i heq
      obtain ⟨rfl, -⟩ := List.cons.inj heq
      exact absurd hc (by decide)
    · rfl

/-- A row of plain digits, which is not empty nor too long, is read as the number that it writes. -/
theorem readInteger_of_plain {cs : List Char} (hne : cs ≠ []) (h : ∀ c ∈ cs, c.isDigit = true)
    (hlen : cs.length ≤ integerDigitLimit) :
    readInteger (String.ofList cs) = .ok (ofDigits (cs.map fun c => c.toNat - 48)) := by
  have hblank : ∀ c ∈ cs, isBlankByNumber c = false := fun c hc => by
    simp [isBlankByNumber, not_blank_of_plain (h c hc)]
  have htrim : trimOff isBlankByNumber cs = cs :=
    trimOff_append (List.forall_mem_nil _) (fun c hc => hblank c (List.mem_of_head? hc))
      fun c hc => hblank c (List.mem_of_getLast? hc)
  have hrun : cs.takeWhile isNumeral = cs :=
    List.takeWhile_eq_self_iff.2 fun c hc => by simp [isNumeral, digitValue?_of_plain (h c hc)]
  have hdigits : cs.filterMap digitValue? = cs.map fun c => c.toNat - 48 := by
    rw [← List.filterMap_eq_map]
    exact List.filterMap_congr fun c hc => digitValue?_of_plain (h c hc)
  have hfirst : cs.head? ≠ some '_' := fun hc =>
    absurd (h '_' (List.mem_of_head? hc)) (by decide)
  rw [readInteger, String.toList_ofList, htrim, splitSign_of_plain h]
  simp only [hrun, hdigits, List.length_map, underscoresApart_of_plain h]
  rw [if_neg (by simp [hfirst]), if_neg (by omega), if_neg (by simp [hne]), Int.one_mul]

/-- A natural number is read back from the digits that it is printed with. -/
theorem readInteger_toString {n : Nat} (hlen : (toString n).length ≤ integerDigitLimit) :
    readInteger (toString n) = .ok n := by
  have hplain : ∀ c ∈ Nat.toDigits 10 n, c.isDigit = true := fun c hc =>
    Nat.isDigit_of_mem_toDigits (by decide) (by decide) hc
  rw [Nat.toString_eq_ofList_toDigits] at hlen ⊢
  rw [readInteger_of_plain Nat.toDigits_ne_nil hplain (by rwa [String.length_ofList] at hlen), ofDigits,
    List.foldl_map]
  exact congrArg (fun m : Nat => Except.ok (m : Int)) Nat.ofDigitChars_ten_toDigits

/-! ## Numbers of too many digits -/

theorem writeInteger_of_lt {n : Int} (h : n.natAbs < 10 ^ integerDigitLimit) : writeInteger n = .ok (toString n) := by
  rw [writeInteger, Nat.pow_eq, if_neg (Nat.not_le.2 h)]

theorem writeInteger_of_le {n : Int} (h : 10 ^ integerDigitLimit ≤ n.natAbs) :
    writeInteger n = .error .tooLong := by
  rw [writeInteger, Nat.pow_eq, if_pos h]

end Deduction.Text
