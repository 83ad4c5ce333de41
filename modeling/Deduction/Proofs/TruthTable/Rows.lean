/-
The rows of a truth table. The assignments of a list of names stand in counting order: each gives every name a
value (`Assignment.mem_all_iff`), they increase with the first name counting most (`Assignment.all_pairwise`), and
the `i`-th one has the binary digits of `i` (`Assignment.all_eq_map_counted`). So the table of a formula has a row
for every valuation of its variables and no other (`TruthTable.rows_enumerate`). It is what reading a text gives,
unless there are too many variables (`TruthTable.read_of_le`, `TruthTable.read_of_lt`).
-/
import Deduction.Proofs.Formula.RoundTrip
import Deduction.Proofs.Formula.Variables
import Deduction.TruthTable.Basic
import Mathlib.Data.List.Lex

namespace Deduction

namespace Assignment

/-! ## Assignments -/

/-- The values in the order of the columns. -/
def values (a : Assignment) : List Bool :=
  a.map Prod.snd

/-- The assignment of the names that has the binary digits of a number, the last name the lowest one. -/
def counted (names : List String) (i : Nat) : Assignment :=
  names.mapIdx fun j n => (n, i.testBit (names.length - 1 - j))

/-- The assignment of the names that gives them their values. -/
def ofNames (names : List String) (v : String → Bool) : Assignment :=
  names.map fun n => (n, v n)

@[simp] theorem names_cons (p : String × Bool) (a : Assignment) : names (p :: a) = p.1 :: names a := rfl

theorem names_ofNames (names : List String) (v : String → Bool) : (ofNames names v).names = names := by
  unfold ofNames Assignment.names
  rw [List.map_map]
  exact List.map_id' names

theorem value_cons (n m : String) (b : Bool) (a : Assignment) :
    value ((n, b) :: a) m = if m = n then b else value a m := by
  unfold value
  rw [List.lookup_cons]
  by_cases h : m = n
  · rw [if_pos h, beq_iff_eq.2 h]
    rfl
  · rw [if_neg h, beq_false_of_ne h]

theorem value_ofNames {names : List String} {n : String} (h : n ∈ names) (v : String → Bool) :
    (ofNames names v).value n = v n := by
  induction names with
  | nil => cases h
  | cons m names ih =>
    show value ((m, v m) :: ofNames names v) n = v n
    rw [value_cons]
    split
    · rename_i heq
      rw [heq]
    · rename_i hne
      exact ih ((List.mem_cons.1 h).resolve_left hne)

/-- An assignment is made of its names and of the values that it gives them, if none stands twice. -/
theorem eq_ofNames {a : Assignment} (h : a.names.Nodup) : a = ofNames a.names a.value := by
  induction a with
  | nil => rfl
  | cons p a ih =>
    obtain ⟨n, b⟩ := p
    obtain ⟨hn, ha⟩ := List.nodup_cons.1 h
    have hrest : ofNames (names a) (value ((n, b) :: a)) = ofNames (names a) (value a) := by
      refine List.map_congr_left fun m hm => ?_
      rw [value_cons, if_neg (by rintro rfl; exact hn hm)]
    show _ = (n, value ((n, b) :: a) n) :: ofNames (names a) (value ((n, b) :: a))
    rw [hrest, ← ih ha, value_cons, if_pos rfl]

/-! ## All assignments -/

theorem length_all (names : List String) : (all names).length = 2 ^ names.length := by
  induction names with
  | nil => rfl
  | cons n names ih =>
    rw [all, List.length_append, List.length_map, List.length_map, ih, List.length_cons, Nat.pow_succ]
    omega

theorem mem_all_iff {a : Assignment} {names : List String} : a ∈ all names ↔ a.names = names := by
  induction names generalizing a with
  | nil => simp [all, Assignment.names]
  | cons n names ih =>
    rw [all, List.mem_append, List.mem_map, List.mem_map]
    constructor
    · rintro (⟨b, hb, rfl⟩ | ⟨b, hb, rfl⟩)
      · rw [names_cons, ih.1 hb]
      · rw [names_cons, ih.1 hb]
    · intro h
      rcases a with _ | ⟨⟨m, value⟩, a⟩
      · cases h
      · obtain ⟨rfl, hrest⟩ := List.cons.inj h
        cases value with
        | false => exact .inl ⟨a, ih.2 hrest, rfl⟩
        | true => exact .inr ⟨a, ih.2 hrest, rfl⟩

/-- The assignments increase, the first name counting most and false coming first. -/
theorem all_pairwise (names : List String) : (all names).Pairwise fun a b => a.values < b.values := by
  induction names with
  | nil => exact List.pairwise_singleton _ _
  | cons n names ih =>
    have hhalf : ∀ b : Bool, ((all names).map ((n, b) :: ·)).Pairwise fun a b => values a < values b := by
      intro b
      refine List.pairwise_map.2 (ih.imp fun h => ?_)
      exact List.cons_lt_cons_iff.2 (.inr ⟨rfl, h⟩)
    refine List.pairwise_append.2 ⟨hhalf false, hhalf true, fun a ha b hb => ?_⟩
    obtain ⟨a, -, rfl⟩ := List.mem_map.1 ha
    obtain ⟨b, -, rfl⟩ := List.mem_map.1 hb
    exact List.cons_lt_cons_iff.2 (.inl (by decide : false < true))

theorem counted_cons (n : String) (names : List String) (i : Nat) :
    counted (n :: names) i = (n, i.testBit names.length) :: counted names i := by
  have hrest : ∀ j, names.length + 1 - 1 - (j + 1) = names.length - 1 - j := fun j => by omega
  unfold counted
  rw [List.mapIdx_cons, List.length_cons]
  simp only [hrest]
  rfl

/-- A digit above those of the names does not count. -/
theorem counted_add_two_pow {names : List String} {k : Nat} (h : names.length ≤ k) (i : Nat) :
    counted names (2 ^ k + i) = counted names i := by
  induction names with
  | nil => rfl
  | cons n names ih =>
    have hlt : names.length < k := h
    rw [counted_cons, counted_cons, Nat.testBit_two_pow_add_gt hlt, ih (Nat.le_of_lt hlt)]

/-- The `i`-th assignment has the binary digits of `i`. -/
theorem all_eq_map_counted (names : List String) :
    all names = (List.range (2 ^ names.length)).map (counted names) := by
  induction names with
  | nil => rfl
  | cons n names ih =>
    have hlow : ∀ i ∈ List.range (2 ^ names.length), counted (n :: names) i = (n, false) :: counted names i := by
      intro i hi
      rw [counted_cons, Nat.testBit_lt_two_pow (List.mem_range.1 hi)]
    have hhigh : ∀ i ∈ List.range (2 ^ names.length),
        counted (n :: names) (2 ^ names.length + i) = (n, true) :: counted names i := by
      intro i hi
      rw [counted_cons, Nat.testBit_two_pow_add_eq, Nat.testBit_lt_two_pow (List.mem_range.1 hi),
        counted_add_two_pow (Nat.le_refl _)]
      rfl
    rw [all, ih, List.length_cons, Nat.pow_succ, Nat.mul_two, List.range_add, List.map_append, List.map_map,
      List.map_map, List.map_map]
    exact congrArg₂ (· ++ ·) (List.map_congr_left fun i hi => (hlow i hi).symm)
      (List.map_congr_left fun i hi => (hhigh i hi).symm)

end Assignment

namespace TruthTable

/-! ## Rows -/

/-- The rows are the table of the formula over the names: a row for each valuation, in counting order, with the
value of the formula under it. -/
structure Enumerates (names : List String) (f : Formula) (rows : List Row) : Prop where
  length : rows.length = 2 ^ names.length
  columns : ∀ row ∈ rows, row.assignment.names = names
  counted : rows.map Row.assignment = (List.range (2 ^ names.length)).map (Assignment.counted names)
  increasing : rows.Pairwise fun r s => r.assignment.values < s.assignment.values
  once : ∀ v : String → Bool, ∃! i : Fin rows.length, ∀ n ∈ names, rows[i].assignment.value n = v n
  result : ∀ row ∈ rows, row.result = f.eval row.assignment.value

theorem rows_assignments (f : Formula) : (rows f).map Row.assignment = Assignment.all f.vars := by
  unfold rows
  rw [List.map_map]
  exact List.map_id' _

theorem rows_columns {f : Formula} {row : Row} (h : row ∈ rows f) : row.assignment.names = f.vars := by
  obtain ⟨a, ha, rfl⟩ := List.mem_map.1 h
  exact Assignment.mem_all_iff.1 ha

theorem rows_increasing (f : Formula) :
    (rows f).Pairwise fun r s => r.assignment.values < s.assignment.values :=
  List.pairwise_map.2 (Assignment.all_pairwise f.vars)

theorem rows_nodup (f : Formula) : (rows f).Nodup :=
  (rows_increasing f).imp fun hlt => by
    rintro rfl
    exact lt_irrefl _ hlt

/-- Every valuation of the variables has a row. -/
theorem exists_row (f : Formula) (v : String → Bool) :
    ⟨Assignment.ofNames f.vars v, f.eval v⟩ ∈ rows f := by
  refine List.mem_map.2 ⟨_, Assignment.mem_all_iff.2 (Assignment.names_ofNames f.vars v), ?_⟩
  rw [Formula.eval_congr fun n hn => Assignment.value_ofNames hn v]

theorem rows_ne_nil (f : Formula) : rows f ≠ [] :=
  List.ne_nil_of_mem (exists_row f fun _ => false)

/-- A row is given by the values of the variables. -/
theorem row_assignment_eq {f : Formula} {row : Row} (h : row ∈ rows f) {v : String → Bool}
    (hv : ∀ n ∈ f.vars, row.assignment.value n = v n) : row.assignment = Assignment.ofNames f.vars v := by
  have hcolumns := rows_columns h
  have hmade := Assignment.eq_ofNames (hcolumns ▸ f.vars_nodup)
  rw [hcolumns] at hmade
  rw [hmade]
  exact List.map_congr_left fun n hn => by rw [hv n hn]

/-- From one row to another the values increase, so no assignment has two rows. -/
theorem index_unique {f : Formula} {i j : Nat} (hi : i < (rows f).length) (hj : j < (rows f).length)
    (h : (rows f)[i].assignment = (rows f)[j].assignment) : i = j := by
  have hincreasing := List.pairwise_iff_getElem.1 (rows_increasing f)
  rcases Nat.lt_trichotomy i j with hlt | heq | hlt
  · exact absurd (h ▸ hincreasing i j hi hj hlt) (lt_irrefl _)
  · exact heq
  · exact absurd (h ▸ hincreasing j i hj hi hlt) (lt_irrefl _)

theorem rows_enumerate (f : Formula) : Enumerates f.vars f (rows f) where
  length := by rw [rows, List.length_map, Assignment.length_all]
  columns _ h := rows_columns h
  counted := (rows_assignments f).trans (Assignment.all_eq_map_counted f.vars)
  increasing := rows_increasing f
  once v := by
    obtain ⟨i, hi, hrow⟩ := List.mem_iff_getElem.1 (exists_row f v)
    refine ⟨⟨i, hi⟩, fun n hn => ?_, fun j hj => ?_⟩
    · show (rows f)[i].assignment.value n = v n
      rw [hrow]
      exact Assignment.value_ofNames hn v
    · have hsame : (rows f)[j].assignment = (rows f)[i].assignment :=
        (row_assignment_eq (List.getElem_mem j.2) hj).trans (by rw [hrow])
      exact Fin.ext (index_unique j.2 hi hsame)
  result row h := by
    obtain ⟨a, -, rfl⟩ := List.mem_map.1 h
    rfl

/-! ## Reading a table -/

section Read

variable [CallStack] {text : String} {f : Formula} {limit : Int}

theorem read_of_le (h : Formula.read text = .ok f) (hwalk : f.height ≤ CallStack.levels)
    (hlimit : (f.vars.length : Int) ≤ limit) : read text limit = .ok (rows f) := by
  unfold read ofFormula
  rw [h]
  dsimp only
  rw [Formula.walk_of_le hwalk]
  exact if_neg (Int.not_lt.2 hlimit)

theorem read_of_lt (h : Formula.read text = .ok f) (hwalk : f.height ≤ CallStack.levels)
    (hlimit : limit < f.vars.length) : read text limit = .error (tooMany f.vars.length limit) := by
  unfold read ofFormula
  rw [h]
  dsimp only
  rw [Formula.walk_of_le hwalk]
  exact if_pos hlimit

/-- A table is that of a formula that was read and walked. -/
theorem eq_rows_of_read {rows : List Row} (h : read text limit = .ok rows) :
    ∃ f, Formula.read text = .ok f ∧ f.height ≤ CallStack.levels ∧ rows = TruthTable.rows f := by
  unfold read at h
  split at h
  · rename_i f hread
    unfold ofFormula at h
    split at h
    · cases h
    · rename_i names hwalk
      split at h
      · cases h
      · cases h
        exact ⟨f, hread, Formula.height_le_of_walk hwalk, rfl⟩
  · cases h

end Read

end TruthTable

end Deduction
