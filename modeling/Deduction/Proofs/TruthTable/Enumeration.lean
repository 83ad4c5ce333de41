/-
Which texts have a table. A text that is read as a formula has one, with a row for each valuation of its names,
unless the names are more than the limit (`table_enumerates`). What is said of too many names shows how many rows
the limit stands for. Where that number has more digits than may be written, the message is never made, and it is
the number that is complained of (`TruthTable.tooMany_of_le`): there are formulas of so many names
(`exists_table_unwritten`).
-/
import Deduction.Proofs.Text.Integer
import Deduction.Proofs.TruthTable.Rows
import Mathlib.Data.List.Nodup

namespace Deduction

namespace TruthTable

/-! ## Too many variables -/

section TooMany

variable {limit : Int} (hlimit : 0 ≤ limit) (n : Nat)

include hlimit

/-- The limit has no more digits than the number of the rows that it stands for, so the rows decide. -/
theorem tooMany_eq : tooMany n limit = match Text.writeInteger (2 ^ limit.toNat : Nat) with
    | .error e => .number e
    | .ok rows => .formula (.tooManyVariables n limit rows) := by
  have hself : limit.natAbs < 2 ^ limit.toNat := by
    rw [show limit.natAbs = limit.toNat by omega]
    exact Nat.lt_two_pow_self
  have hpower : Decimal.powerOfTwo limit = Text.writeInteger (2 ^ limit.toNat : Nat) := if_pos hlimit
  unfold tooMany
  rw [hpower]
  by_cases h : limit.natAbs < 10 ^ Text.integerDigitLimit
  · cases Text.writeInteger (2 ^ limit.toNat : Nat) <;> simp only [Text.writeInteger_of_lt h]
  · have hle := Nat.not_lt.1 h
    rw [Text.writeInteger_of_le hle, Text.writeInteger_of_le (n := (2 ^ limit.toNat : Nat))
      (hle.trans (Int.natAbs_natCast _ ▸ hself.le))]

/-- What is said of more variables than the limit is said if the rows that it stands for can be written. -/
theorem tooMany_of_lt (h : 2 ^ limit.toNat < 10 ^ Text.integerDigitLimit) :
    tooMany n limit = .formula (.tooManyVariables n limit (toString (2 ^ limit.toNat))) := by
  rw [tooMany_eq hlimit, Text.writeInteger_of_lt (by rwa [Int.natAbs_natCast])]
  rfl

theorem tooMany_of_le (h : 10 ^ Text.integerDigitLimit ≤ 2 ^ limit.toNat) :
    tooMany n limit = .number .tooLong := by
  rw [tooMany_eq hlimit, Text.writeInteger_of_le (by rwa [Int.natAbs_natCast])]

end TooMany

end TruthTable

open TruthTable (Enumerates)

/-- The table of a text that is read is refused exactly when its names are more than the limit. Otherwise it has a
row for each valuation of the names, in counting order, with the value of the formula. The names are those among
the tokens of the text, in code point order and each once. What is said of too many names shows the rows that the
limit stands for; where they have more digits than may be written, this is what is complained of instead. -/
theorem table_enumerates [CallStack] (text : String) (f : Formula) (limit : Int) (h : Formula.read text = .ok f)
    (hwalk : f.height ≤ CallStack.levels) (hlimit : 0 ≤ limit) :
    ∃ names : List String, names.Pairwise (· < ·) ∧
      (∀ n, n ∈ names ↔ ∃ ts, tokenize text = .ok ts ∧ ∃ t ∈ ts, t.kind = .identifier ∧ t.text = n) ∧
      (TruthTable.read text limit =
          .error (.formula (.tooManyVariables names.length limit (toString (2 ^ limit.toNat)))) ↔
        limit < names.length ∧ 2 ^ limit.toNat < 10 ^ Text.integerDigitLimit) ∧
      (TruthTable.read text limit = .error (.number .tooLong) ↔
        limit < names.length ∧ 10 ^ Text.integerDigitLimit ≤ 2 ^ limit.toNat) ∧
      (¬ limit < names.length → ∃ rows, TruthTable.read text limit = .ok rows ∧ Enumerates names f rows) := by
  refine ⟨f.vars, f.vars_pairwise, Formula.mem_vars_of_read h, ?_⟩
  by_cases hmore : limit < f.vars.length
  · rw [TruthTable.read_of_lt h hwalk hmore]
    rcases Nat.lt_or_ge (2 ^ limit.toNat) (10 ^ Text.integerDigitLimit) with hshort | hlong
    · rw [TruthTable.tooMany_of_lt hlimit f.vars.length hshort]
      simp [hmore, hshort]
    · rw [TruthTable.tooMany_of_le hlimit f.vars.length hlong]
      simp [hmore, hlong]
  · rw [TruthTable.read_of_le h hwalk (Int.not_lt.1 hmore)]
    simp [hmore, TruthTable.rows_enumerate f]

attribute [local instance] CallStack.usual

/-- A conditional of two names has a table within the limit of two names. -/
theorem table_enumerates_conditional :
    ∃ names rows, "P" ∈ names ∧ "q" ∈ names ∧ TruthTable.read "q -> (P | q)" 2 = .ok rows ∧
      Enumerates names (.binary .implies (.var "q") (.binary .or (.var "P") (.var "q"))) rows := by
  obtain ⟨names, -, hmem, hrefused, -, htable⟩ := table_enumerates "q -> (P | q)"
    (.binary .implies (.var "q") (.binary .or (.var "P") (.var "q"))) 2 rfl (by decide) (by decide)
  have hread : (TruthTable.read "q -> (P | q)" 2).isOk = true := by decide +kernel
  have hlimit : ¬ (2 : Int) < names.length := by
    intro hlt
    rw [hrefused.2 ⟨hlt, by decide +kernel⟩] at hread
    cases hread
  obtain ⟨rows, hrows, henumerates⟩ := htable hlimit
  exact ⟨names, rows, (hmem "P").2 ⟨_, rfl, ⟨.identifier, "P", 6⟩, by decide, rfl, rfl⟩,
    (hmem "q").2 ⟨_, rfl, ⟨.identifier, "q", 0⟩, by decide, rfl, rfl⟩, hrows, henumerates⟩

/-! ## A table that is not refused as it should be -/

namespace Formula

/-- A name of `n + 1` letters. -/
def longName (n : Nat) : String :=
  String.ofList (List.replicate (n + 1) 'p')

/-- A conjunction of different names, from one of `n + 1` letters on: twice as many with each level. -/
def wide : Nat → Nat → Formula
  | 0, n => var (longName n)
  | levels + 1, n => binary .and (wide levels n) (wide levels (n + 2 ^ levels))

theorem longName_injective : Function.Injective longName := by
  intro m n h
  have hlength := congrArg String.length h
  simpa [longName] using hlength

theorem named_wide (levels n : Nat) : (wide levels n).Named := by
  induction levels generalizing n with
  | zero =>
    have hletter : ∀ c ∈ (longName n).toList, c = 'p' := by
      intro c hc
      rw [longName, String.toList_ofList] at hc
      exact List.eq_of_mem_replicate hc
    refine ⟨⟨'p', by simp [longName, List.replicate_succ], rfl⟩, fun c hc => ?_, fun h => ?_, fun h => ?_⟩
    · rw [hletter c hc]
      rfl
    · exact absurd (hletter 'T' (by simp [h])) (by decide)
    · exact absurd (hletter 'F' (by simp [h])) (by decide)
  | succ levels ih => exact ⟨ih n, ih (n + 2 ^ levels)⟩

theorem height_wide (levels n : Nat) : (wide levels n).height = levels + 1 := by
  induction levels generalizing n with
  | zero => rfl
  | succ levels ih => rw [wide, height, ih, ih, Nat.max_self]

theorem displayNesting_wide (levels n : Nat) : (wide levels n).displayNesting ≤ levels := by
  induction levels generalizing n with
  | zero => exact Nat.le_refl 0
  | succ levels ih =>
    have hleft := ih n
    have hright := ih (n + 2 ^ levels)
    have hwrapped := wrapNesting_le (Connective.and.wrapsRight (wide levels (n + 2 ^ levels)).strength)
      (wide levels (n + 2 ^ levels)).displayNesting
    have hbare : Connective.and.wrapsLeft (wide levels n).strength = false := by
      cases levels <;> rfl
    rw [wide, displayNesting, hbare, wrapNesting]
    simp only [Bool.false_eq_true, if_false, Connective.opened]
    omega

theorem mem_vars_wide {levels n : Nat} {name : String} :
    name ∈ (wide levels n).vars ↔ ∃ i < 2 ^ levels, longName (n + i) = name := by
  induction levels generalizing n with
  | zero => simp [wide, eq_comm]
  | succ levels ih =>
    rw [wide, mem_vars_binary, ih, ih, Nat.pow_succ]
    constructor
    · rintro (⟨i, hi, rfl⟩ | ⟨i, hi, rfl⟩)
      · exact ⟨i, by omega, rfl⟩
      · exact ⟨2 ^ levels + i, by omega, by rw [Nat.add_assoc]⟩
    · rintro ⟨i, hi, rfl⟩
      rcases Nat.lt_or_ge i (2 ^ levels) with hlt | hge
      · exact .inl ⟨i, hlt, rfl⟩
      · exact .inr ⟨i - 2 ^ levels, by omega, by rw [Nat.add_assoc, Nat.add_sub_cancel' hge]⟩

theorem length_vars_wide (levels n : Nat) : (wide levels n).vars.length = 2 ^ levels := by
  have hnodup : ((List.range (2 ^ levels)).map fun i => longName (n + i)).Nodup :=
    List.Nodup.map (fun i j h => Nat.add_left_cancel (longName_injective h)) List.nodup_range
  have hperm : (wide levels n).vars.Perm ((List.range (2 ^ levels)).map fun i => longName (n + i)) := by
    refine (List.perm_ext_iff_of_nodup (vars_nodup _) hnodup).2 fun name => ?_
    simp [mem_vars_wide]
  rw [hperm.length_eq, List.length_map, List.length_range]

end Formula

/-- A formula of more variables than the limit, for which the number of rows is complained of and not that there are
too many variables: it stands for more than 4300 digits. -/
theorem exists_table_unwritten :
    ∃ text f, Formula.read text = .ok f ∧ f.height ≤ CallStack.levels ∧ (14285 : Int) < f.vars.length ∧
      TruthTable.read text 14285 = .error (.number .tooLong) := by
  have hreadable : (Formula.wide 14 0).Readable :=
    ⟨Formula.named_wide 14 0, (Formula.displayNesting_wide 14 0).trans (by decide)⟩
  have hheight : (Formula.wide 14 0).height ≤ CallStack.levels := by
    rw [Formula.height_wide]
    decide
  have hmore : (14285 : Int) < (Formula.wide 14 0).vars.length := by
    rw [Formula.length_vars_wide]
    decide
  have hlong : 10 ^ Text.integerDigitLimit ≤ 2 ^ (14285 : Int).toNat := by decide +kernel
  refine ⟨_, _, hreadable.read_display, hheight, hmore, ?_⟩
  rw [TruthTable.read_of_lt hreadable.read_display hheight hmore, TruthTable.tooMany_of_le (by decide) _ hlong]

end Deduction
