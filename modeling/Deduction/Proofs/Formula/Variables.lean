/-
The variables of a formula. They are listed in code point order, each once (`Formula.vars_pairwise`), and they are
the names among the tokens of a text that writes the formula (`Formula.mem_vars_of_read`). The value of a formula
depends on what they are given and on nothing else (`Formula.eval_congr`).
-/
import Deduction.Proofs.Formula.Yield
import Mathlib.Data.String.Basic

namespace Deduction

/-! ## Names in order -/

theorem mem_insertName {n m : String} {names : List String} :
    m ∈ insertName n names ↔ m = n ∨ m ∈ names := by
  induction names with
  | nil => simp [insertName]
  | cons k names ih =>
    unfold insertName
    split
    · exact List.mem_cons
    · split
      · rename_i heq
        subst heq
        simp
      · simp only [List.mem_cons, ih]
        tauto

theorem insertName_pairwise {names : List String} (h : names.Pairwise (· < ·)) (n : String) :
    (insertName n names).Pairwise (· < ·) := by
  induction names with
  | nil => exact List.pairwise_singleton _ _
  | cons k names ih =>
    obtain ⟨hk, hnames⟩ := List.pairwise_cons.1 h
    unfold insertName
    split
    · rename_i hlt
      refine List.pairwise_cons.2 ⟨fun m hm => ?_, h⟩
      rcases List.mem_cons.1 hm with rfl | hm
      · exact hlt
      · exact String.lt_trans hlt (hk m hm)
    · split
      · exact h
      · rename_i hlt hne
        have hgt : k < n := lt_of_le_of_ne (not_lt.1 hlt) (Ne.symm hne)
        refine List.pairwise_cons.2 ⟨fun m hm => ?_, ih hnames⟩
        rcases mem_insertName.1 hm with rfl | hm
        · exact hgt
        · exact hk m hm

namespace Formula

/-! ## The variables of a tree -/

theorem mem_collectVars {f : Formula} {n : String} {names : List String} :
    n ∈ f.collectVars names ↔ n ∈ names ∨ n ∈ f.vars := by
  induction f generalizing names with
  | var m => simp [vars, collectVars, mem_insertName, or_comm]
  | top => simp [vars, collectVars]
  | bottom => simp [vars, collectVars]
  | neg a ih => exact ih
  | binary op a b iha ihb =>
    unfold vars collectVars
    rw [ihb, iha, ihb, or_assoc]
    rfl

@[simp] theorem mem_vars_var {m n : String} : n ∈ (var m).vars ↔ n = m := by
  simp [vars, collectVars, mem_insertName]

@[simp] theorem not_mem_vars_top {n : String} : n ∉ top.vars :=
  List.not_mem_nil

@[simp] theorem not_mem_vars_bottom {n : String} : n ∉ bottom.vars :=
  List.not_mem_nil

@[simp] theorem mem_vars_neg {n : String} {a : Formula} : n ∈ (neg a).vars ↔ n ∈ a.vars :=
  Iff.rfl

@[simp] theorem mem_vars_binary {n : String} {op : Connective} {a b : Formula} :
    n ∈ (binary op a b).vars ↔ n ∈ a.vars ∨ n ∈ b.vars := by
  show n ∈ b.collectVars a.vars ↔ _
  exact mem_collectVars

theorem collectVars_pairwise {f : Formula} {names : List String} (h : names.Pairwise (· < ·)) :
    (f.collectVars names).Pairwise (· < ·) := by
  induction f generalizing names with
  | var m => exact insertName_pairwise h m
  | top => exact h
  | bottom => exact h
  | neg a ih => exact ih h
  | binary op a b iha ihb => exact ihb (iha h)

/-- The variables stand in code point order, each once. -/
theorem vars_pairwise (f : Formula) : f.vars.Pairwise (· < ·) :=
  collectVars_pairwise .nil

theorem vars_nodup (f : Formula) : f.vars.Nodup :=
  f.vars_pairwise.imp fun h => ne_of_lt h

/-- Assignments that agree on the variables give a formula one value. -/
theorem eval_congr {f : Formula} {v u : String → Bool} (h : ∀ n ∈ f.vars, v n = u n) : f.eval v = f.eval u := by
  induction f with
  | var m => exact h m (by simp)
  | top => rfl
  | bottom => rfl
  | neg a ih =>
    unfold eval
    rw [ih h]
  | binary op a b iha ihb =>
    unfold eval
    rw [iha fun n hn => h n (by simp [hn]), ihb fun n hn => h n (by simp [hn])]

end Formula

/-! ## The variables of a text -/

theorem Yields.mem_vars_iff {f : Formula} {w : List Token} (h : Yields f w) (n : String) :
    n ∈ f.vars ↔ ∃ t ∈ w, t.kind = .identifier ∧ t.text = n := by
  induction h with
  | name ht => simp [ht, eq_comm]
  | top ht => simp [ht]
  | bottom ht => simp [ht]
  | neg ht _ ih => simp [ht, ih]
  | binary ht _ _ iha ihb => simp [ht, iha, ihb, or_and_right, exists_or]

/-- The variables of a formula that was read are the names among the tokens of its text. -/
theorem Formula.mem_vars_of_read {s : String} {f : Formula} (h : read s = .ok f) (n : String) :
    n ∈ f.vars ↔ ∃ ts, tokenize s = .ok ts ∧ ∃ t ∈ ts, t.kind = .identifier ∧ t.text = n := by
  obtain ⟨ts, hts, hyields⟩ := yields_of_read h
  rw [hyields.mem_vars_iff n]
  constructor
  · rintro ⟨t, ht, hkind, htext⟩
    exact ⟨ts, hts, t, Token.mem_of_mem_bare ht, hkind, htext⟩
  · rintro ⟨us, hus, t, ht, hkind, htext⟩
    cases hts.symm.trans hus
    exact ⟨t, List.mem_filter.2 ⟨ht, by rw [hkind]; rfl⟩, hkind, htext⟩

end Deduction
