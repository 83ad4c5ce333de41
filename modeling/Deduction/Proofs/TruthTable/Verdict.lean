/-
What the verdict of a truth table decides. The rows of a table stand for all assignments, also for those that leave
out some of the names or have others besides (`TruthTable.exists_row_of_eval`), so the verdict tells whether the
formula is true under all of them, false under all, or true under some and false under others (`verdict_decides`).
-/
import Deduction.Proofs.TruthTable.Rows

namespace Deduction

namespace TruthTable

/-! ## Verdicts of rows -/

section Verdicts

variable {rows : List Row}

theorem classify_eq_tautology_iff (h : rows ≠ []) :
    classify rows = .tautology ↔ ∀ row ∈ rows, row.result = true := by
  unfold classify
  rw [if_neg (by simpa using h)]
  split
  · rename_i hall
    simpa using hall
  · rename_i hall
    refine ⟨fun heq => ?_, fun htrue => absurd (by simpa using htrue) hall⟩
    split at heq <;> cases heq

theorem classify_eq_contradiction_iff (h : rows ≠ []) :
    classify rows = .contradiction ↔ ∀ row ∈ rows, row.result = false := by
  obtain ⟨first, hfirst⟩ := List.exists_mem_of_ne_nil rows h
  unfold classify
  rw [if_neg (by simpa using h)]
  split
  · rename_i hall
    refine ⟨fun heq => (by cases heq), fun hfalse => ?_⟩
    rw [List.all_eq_true] at hall
    cases (hall first hfirst).symm.trans (hfalse first hfirst)
  · split
    · rename_i hall
      simpa using hall
    · rename_i hall
      exact ⟨fun heq => (by cases heq), fun hfalse => absurd (by simpa using hfalse) hall⟩

/-- What is neither true throughout nor false throughout is contingent. -/
theorem classify_eq_contingent_iff (h : rows ≠ []) :
    classify rows = .contingent ↔ (∃ row ∈ rows, row.result = true) ∧ ∃ row ∈ rows, row.result = false := by
  have hverdict : classify rows = .contingent ↔ classify rows ≠ .tautology ∧ classify rows ≠ .contradiction := by
    cases classify rows <;> simp
  rw [hverdict, Ne, Ne, classify_eq_tautology_iff h, classify_eq_contradiction_iff h]
  push Not
  simp only [Bool.not_eq_true, Bool.not_eq_false, ne_eq]
  exact and_comm

end Verdicts

/-! ## Rows for assignments -/

/-- The rows have the values that a formula takes under any assignments, finite or not, and no others. -/
theorem exists_row_of_eval (f : Formula) (v : String → Bool) : ∃ row ∈ rows f, row.result = f.eval v :=
  ⟨_, exists_row f v, rfl⟩

theorem forall_rows_iff (f : Formula) (b : Bool) :
    (∀ row ∈ rows f, row.result = b) ↔ ∀ a : Assignment, f.eval a.value = b := by
  constructor
  · intro h a
    obtain ⟨row, hrow, hresult⟩ := exists_row_of_eval f a.value
    rw [← hresult]
    exact h row hrow
  · intro h row hrow
    rw [(rows_enumerate f).result row hrow]
    exact h row.assignment

theorem exists_rows_iff (f : Formula) (b : Bool) :
    (∃ row ∈ rows f, row.result = b) ↔ ∃ a : Assignment, f.eval a.value = b := by
  constructor
  · rintro ⟨row, hrow, rfl⟩
    exact ⟨row.assignment, ((rows_enumerate f).result row hrow).symm⟩
  · rintro ⟨a, rfl⟩
    exact exists_row_of_eval f a.value

end TruthTable

open TruthTable

/-- The verdict on the table of a text says that its formula is true under all assignments, that it is false under
all of them, or that it is true under one and false under another. It makes no difference which names an assignment
gives a value: any values of all names give the formula the value that a finite assignment gives it. -/
theorem verdict_decides [CallStack] (text : String) (f : Formula) (limit : Int) (h : Formula.read text = .ok f)
    (hwalk : f.height ≤ CallStack.levels) (hlimit : (f.vars.length : Int) ≤ limit) :
    ∃ rows, TruthTable.read text limit = .ok rows ∧
      (classify rows = .tautology ↔ ∀ a : Assignment, f.eval a.value = true) ∧
      (classify rows = .contradiction ↔ ∀ a : Assignment, f.eval a.value = false) ∧
      (classify rows = .contingent ↔
        (∃ a : Assignment, f.eval a.value = true) ∧ ∃ a : Assignment, f.eval a.value = false) ∧
      ∀ v : String → Bool, ∃ a : Assignment, f.eval v = f.eval a.value := by
  have hrows := rows_ne_nil f
  refine ⟨rows f, read_of_le h hwalk hlimit, ?_, ?_, ?_, fun v => ?_⟩
  · rw [classify_eq_tautology_iff hrows, forall_rows_iff]
  · rw [classify_eq_contradiction_iff hrows, forall_rows_iff]
  · rw [classify_eq_contingent_iff hrows, exists_rows_iff, exists_rows_iff]
  · obtain ⟨a, ha⟩ := (exists_rows_iff f (f.eval v)).1 (exists_row_of_eval f v)
    exact ⟨a, ha.symm⟩

attribute [local instance] CallStack.usual

/-- The law of the excluded middle is true under every assignment. -/
theorem verdict_decides_excluded_middle :
    ∃ rows, TruthTable.read "p | ~p" 1 = .ok rows ∧ classify rows = .tautology ∧
      ∀ a : Assignment, Formula.eval a.value (.binary .or (.var "p") (.neg (.var "p"))) = true := by
  obtain ⟨rows, hrows, htautology, -⟩ := verdict_decides "p | ~p" (.binary .or (.var "p") (.neg (.var "p"))) 1 rfl
    (by decide) (by decide)
  have hread : TruthTable.read "p | ~p" 1 = .ok [⟨[("p", false)], true⟩, ⟨[("p", true)], true⟩] := by
    decide +kernel
  have hverdict : classify rows = .tautology := by
    cases hread.symm.trans hrows
    rfl
  exact ⟨rows, hrows, hverdict, htautology.1 hverdict⟩

end Deduction
