/-
The layout of a printed truth table. A cell is as wide as the name above it, so a column begins at one place in the
header and in the line of a row (`Text.joinWith_split`, `Text.columnStart_congr`), and the line pictures its row
(`TruthTable.rowLine_pictures`). Names have characters and no blanks, so the header is cut into them again and a row
is read back from its line (`TruthTable.Pictures.shown`). Main statement: so is the whole table, and no line of a row
stands in it twice (`table_decodable`).
-/
import Deduction.Proofs.Formula.Markup
import Deduction.Proofs.Text.Words
import Deduction.Proofs.Token.LongestMatch
import Deduction.Proofs.TruthTable.Rows
import Deduction.TruthTable.Print
import Mathlib.Data.List.Forall2
import Mathlib.Data.List.Nodup

namespace Deduction

namespace Text

/-! ## Columns -/

/-- The part of a text from a place on that has so many characters. -/
def slice (s : String) (start width : Nat) : String :=
  String.ofList ((s.toList.drop start).take width)

/-- Where a text begins among texts joined by spaces: behind the texts in front of it and a space behind each. -/
def columnStart : List String → Nat → Nat
  | t :: ts, i + 1 => t.length + 1 + columnStart ts i
  | _, _ => 0

theorem slice_append (a b c : String) : slice (a ++ b ++ c) a.length b.length = b := by
  simp only [slice, String.toList_append, List.append_assoc, ← String.length_toList, List.drop_left, List.take_left,
    String.ofList_toList]

theorem slice_zero_append (s t : String) : slice (s ++ t) 0 s.length = s := by
  have h := slice_append "" s t
  rwa [String.empty_append] at h

theorem slice_slice (s : String) (start : Nat) {k width : Nat} (h : k ≤ width) :
    slice (slice s start width) 0 k = slice s start k := by
  rw [slice, slice, String.toList_ofList, List.drop_zero, List.take_take, Nat.min_eq_left h, slice]

/-- Joined texts are cut at the column of each of them. -/
theorem joinWith_split : ∀ {ts : List String} {i : Nat} (hi : i < ts.length),
    ∃ a b : String, joinWith " " ts = a ++ ts[i] ++ b ∧ a.length = columnStart ts i
  | [t], 0, _ => ⟨"", "", by simp [joinWith], rfl⟩
  | t :: u :: ts, 0, _ => ⟨"", " " ++ joinWith " " (u :: ts), by simp [joinWith, String.append_assoc], rfl⟩
  | t :: u :: ts, i + 1, hi => by
    obtain ⟨a, b, hjoin, ha⟩ := joinWith_split (show i < (u :: ts).length from Nat.lt_of_succ_lt_succ hi)
    refine ⟨t ++ " " ++ a, b, ?_, ?_⟩
    · rw [joinWith_cons " " t (List.cons_ne_nil u ts), hjoin, List.getElem_cons_succ]
      simp only [String.append_assoc]
    · rw [columnStart, ← ha, String.length_append, String.length_append]
      rfl

theorem slice_joinWith {ts : List String} {i : Nat} (hi : i < ts.length) :
    slice (joinWith " " ts) (columnStart ts i) ts[i].length = ts[i] := by
  obtain ⟨a, b, hjoin, ha⟩ := joinWith_split hi
  rw [hjoin, ← ha, slice_append]

theorem length_joinWith : ∀ {ts : List String}, ts ≠ [] →
    (joinWith " " ts).length + 1 = columnStart ts ts.length
  | [], h => absurd rfl h
  | [_], _ => rfl
  | t :: u :: ts, _ => by
    have ih := length_joinWith (List.cons_ne_nil u ts)
    rw [joinWith_cons " " t (List.cons_ne_nil u ts), List.length_cons, columnStart, ← ih, String.length_append,
      String.length_append]
    rfl

/-- Only the widths of the texts count for where the columns begin. -/
theorem columnStart_congr : ∀ {ts us : List String}, ts.map String.length = us.map String.length →
    ∀ i : Nat, columnStart ts i = columnStart us i
  | [], [], _, _ => rfl
  | _ :: _, _ :: _, _, 0 => rfl
  | t :: ts, u :: us, h, i + 1 => by
    obtain ⟨hfirst, hrest⟩ := List.cons.inj h
    rw [columnStart, columnStart, hfirst, columnStart_congr hrest]

theorem length_pos {s : String} (h : s ≠ "") : 0 < s.length :=
  Nat.pos_of_ne_zero (mt String.length_eq_zero_iff.1 h)

end Text

open Text (Solid columnStart joinWith slice spaces)

/-! ## Names -/

theorem Token.IsName.solid {n : String} (h : IsName n) : Solid n where
  nonempty := by
    obtain ⟨c, hc, -⟩ := h.starts
    rintro rfl
    cases hc
  solid c hc := not_blank_of_continues (h.continues c hc)

/-- The variables are names that the lexer reads. -/
theorem Formula.Named.isName {f : Formula} (h : f.Named) {n : String} (hn : n ∈ f.vars) : Token.IsName n := by
  induction f with
  | var m => rwa [Formula.mem_vars_var.1 hn]
  | top => exact absurd hn Formula.not_mem_vars_top
  | bottom => exact absurd hn Formula.not_mem_vars_bottom
  | neg a ih => exact ih h hn
  | binary op a b iha ihb =>
    rcases Formula.mem_vars_binary.1 hn with hn | hn
    · exact iha h.1 hn
    · exact ihb h.2 hn

namespace TruthTable

/-! ## Lines -/

/-- The line shows the row under the names: T or F where a name begins in the header and blanks below the rest of
it, a bar behind the header, and T or F at the end. -/
structure Pictures (names : List String) (row : Row) (line : String) : Prop where
  columns : row.assignment.names = names
  length : line.length = (joinWith " " names).length + 4
  cell : ∀ (i : Nat) (hi : i < names.length), slice line (columnStart names i) names[i].length =
    letter (row.assignment.value names[i]) ++ spaces (names[i].length - 1)
  bar : slice line (joinWith " " names).length 3 = " | "
  result : slice line ((joinWith " " names).length + 3) 1 = letter row.result

@[simp] theorem length_letter (b : Bool) : (letter b).length = 1 := by cases b <;> rfl

theorem letter_beq (b : Bool) : (letter b == "T") = b := by cases b <;> rfl

theorem cell_eq (a : Assignment) (name : String) :
    cell a name = letter (a.value name) ++ spaces (name.length - 1) := by
  rw [cell, Text.padEnd, length_letter]

theorem length_cell (a : Assignment) {name : String} (h : name ≠ "") : (cell a name).length = name.length := by
  have hpos := Text.length_pos h
  rw [cell_eq, String.length_append, length_letter, spaces, String.length_ofList, List.length_replicate]
  omega

theorem map_length_cells (a : Assignment) {names : List String} (h : ∀ n ∈ names, n ≠ "") :
    (names.map (cell a)).map String.length = names.map String.length := by
  rw [List.map_map]
  exact List.map_congr_left fun n hn => length_cell a (h n hn)

/-- The joined cells are as long as the header. -/
theorem length_cells (a : Assignment) {names : List String} (hne : names ≠ []) (h : ∀ n ∈ names, n ≠ "") :
    (joinWith " " (names.map (cell a))).length = (joinWith " " names).length := by
  have hcells := Text.length_joinWith (show names.map (cell a) ≠ [] by simpa using hne)
  rw [Text.columnStart_congr (map_length_cells a h), List.length_map, ← Text.length_joinWith hne] at hcells
  exact Nat.succ.inj hcells

theorem rowLine_eq {names : List String} (row : Row) (hne : names ≠ []) :
    rowLine names row = joinWith " " (names.map (cell row.assignment)) ++ " | " ++ letter row.result := by
  rcases names with _ | ⟨n, names⟩
  · exact absurd rfl hne
  · have hcell : cell row.assignment n ≠ "" := by
      intro hempty
      have hlength := congrArg String.length hempty
      simp [cell_eq] at hlength
    rw [rowLine, if_neg]
    rw [List.map_cons]
    simpa using Text.joinWith_ne_empty " " hcell _

theorem rowLine_pictures {names : List String} {row : Row} (hne : names ≠ []) (h : ∀ n ∈ names, n ≠ "")
    (hcolumns : row.assignment.names = names) : Pictures names row (rowLine names row) := by
  have hlength := length_cells row.assignment hne h
  have hline := rowLine_eq row hne
  constructor
  case columns => exact hcolumns
  case length => rw [hline, String.length_append, String.length_append, hlength, length_letter]; rfl
  case cell =>
    intro i hi
    have hcell : i < (names.map (cell row.assignment)).length := by simpa using hi
    obtain ⟨a, b, hjoin, ha⟩ := Text.joinWith_split hcell
    rw [List.getElem_map] at hjoin
    rw [Text.columnStart_congr (map_length_cells row.assignment h)] at ha
    have hslice := Text.slice_append a (cell row.assignment names[i]) (b ++ " | " ++ letter row.result)
    rw [length_cell row.assignment (h _ (List.getElem_mem hi)), ha] at hslice
    rw [hline, hjoin, ← cell_eq]
    simpa only [String.append_assoc] using hslice
  case bar =>
    rw [hline, ← hlength]
    exact Text.slice_append _ " | " _
  case result =>
    have hslice := Text.slice_append (joinWith " " (names.map (cell row.assignment)) ++ " | ") (letter row.result) ""
    rw [String.append_empty, String.length_append, hlength, length_letter] at hslice
    rw [hline]
    exact hslice

/-! ## Lines read back -/

/-- The row that a line shows below a first line whose names end where the line has its last four characters. -/
def Row.shown (top line : String) : Row :=
  let names := Text.words (slice top 0 (line.length - 4))
  ⟨names.mapIdx fun i n => (n, slice line (columnStart names i) 1 == "T"), slice line (line.length - 1) 1 == "T"⟩

/-- The rows that a printed table shows: its first three lines and the last one are no rows. -/
def rowsShown : List String → List Row
  | _ :: top :: _ :: rest => rest.dropLast.map (Row.shown top)
  | _ => []

namespace Pictures

variable {names : List String} {row : Row} {line top : String}

theorem value (h : Pictures names row line) {i : Nat} (hi : i < names.length) (hne : names[i] ≠ "") :
    (slice line (columnStart names i) 1 == "T") = row.assignment.value names[i] := by
  have hfirst := Text.slice_zero_append (letter (row.assignment.value names[i])) (spaces (names[i].length - 1))
  rw [length_letter] at hfirst
  rw [← Text.slice_slice line _ (Text.length_pos hne), h.cell i hi, hfirst, letter_beq]

theorem shown (h : Pictures names row line) (hsolid : ∀ n ∈ names, Solid n) (hnodup : names.Nodup)
    (htop : slice top 0 (joinWith " " names).length = joinWith " " names) : Row.shown top line = row := by
  have hnames : Text.words (slice top 0 (line.length - 4)) = names := by
    rw [h.length, Nat.add_sub_cancel, htop, Text.words_joinWith hsolid]
  have hassignment : names.mapIdx (fun i n => (n, slice line (columnStart names i) 1 == "T")) = row.assignment := by
    have hmade := Assignment.eq_ofNames (h.columns ▸ hnodup)
    rw [h.columns] at hmade
    rw [hmade]
    refine List.ext_getElem (by simp [Assignment.ofNames]) fun i hi _ => ?_
    rw [List.length_mapIdx] at hi
    simp only [Assignment.ofNames, List.getElem_mapIdx, List.getElem_map]
    rw [h.value hi (hsolid _ (List.getElem_mem hi)).nonempty]
  unfold Row.shown
  dsimp only
  rw [hnames, hassignment, h.length]
  show Row.mk _ (slice line ((joinWith " " names).length + 3) 1 == "T") = row
  rw [h.result, letter_beq]

end Pictures

/-! ## The whole table -/

theorem columns_rows (f : Formula) : columns (rows f) = f.vars := by
  rcases hrows : rows f with _ | ⟨row, rest⟩
  · exact absurd hrows (rows_ne_nil f)
  · exact rows_columns (hrows ▸ List.mem_cons_self)

/-- What is printed of a table with columns. -/
theorem lines_eq (label : String) {rows : List Row} (h : joinWith " " (columns rows) ≠ "") :
    lines label rows = "" :: (joinWith " " (columns rows) ++ " | " ++ label) ::
      Text.ruler '-' ((joinWith " " (columns rows)).length + label.length + 3) ::
      (rows.map (rowLine (columns rows)) ++
        ["(" ++ (classify rows).name ++ ", " ++ toString rows.length ++ " rows)"]) := by
  unfold lines
  dsimp only
  rw [if_neg (by simpa using h)]
  rfl

end TruthTable

open TruthTable

/-- Below the names of the variables every row of a printed table has its line, which pictures it; the rows are read
back from what is printed, and no line of a row stands twice. -/
theorem table_decodable [CallStack] (text label : String) (limit : Int) (rows : List Row)
    (h : TruthTable.read text limit = .ok rows) :
    ∃ names, Formula.readVars text = .ok names ∧ (names ≠ [] →
      (∀ (i : Nat) (hi : i < names.length),
        slice (joinWith " " names) (columnStart names i) names[i].length = names[i]) ∧
      ∃ ruler pictures verdict,
        TruthTable.lines label rows =
          "" :: (joinWith " " names ++ " | " ++ label) :: ruler :: (pictures ++ [verdict]) ∧
        List.Forall₂ (Pictures names) rows pictures ∧
        rowsShown (TruthTable.lines label rows) = rows ∧
        pictures.Nodup) := by
  obtain ⟨f, hread, hheight, rfl⟩ := eq_rows_of_read h
  refine ⟨f.vars, Formula.readVars_of_le hread hheight, fun hne => ⟨fun i hi => Text.slice_joinWith hi, ?_⟩⟩
  have hsolid : ∀ n ∈ f.vars, Solid n := fun n hn => ((Formula.Readable.of_read hread).named.isName hn).solid
  have hpictures : ∀ row ∈ rows f, Pictures f.vars row (rowLine f.vars row) := fun row hrow =>
    rowLine_pictures hne (fun n hn => (hsolid n hn).nonempty) (rows_columns hrow)
  have hheader : joinWith " " (columns (rows f)) ≠ "" := by
    obtain ⟨n, names, hnames⟩ := List.exists_cons_of_ne_nil hne
    rw [columns_rows, hnames]
    exact Text.joinWith_ne_empty " " (hsolid n (by simp [hnames])).nonempty names
  have hlines := lines_eq label hheader
  rw [columns_rows] at hlines
  have htop : slice (joinWith " " f.vars ++ " | " ++ label) 0 (joinWith " " f.vars).length = joinWith " " f.vars := by
    rw [String.append_assoc]
    exact Text.slice_zero_append _ _
  have hshown : ((rows f).map (rowLine f.vars)).map (Row.shown (joinWith " " f.vars ++ " | " ++ label)) = rows f := by
    rw [List.map_map]
    exact (List.map_congr_left fun row hrow => (hpictures row hrow).shown hsolid f.vars_nodup htop).trans
      (List.map_id _)
  refine ⟨_, _, _, hlines, ?_, ?_, ?_⟩
  · rw [List.forall₂_map_right_iff, List.forall₂_same]
    exact hpictures
  · rw [hlines, rowsShown, List.dropLast_concat, hshown]
  · exact List.Nodup.of_map _ (hshown.symm ▸ rows_nodup f)

attribute [local instance] CallStack.usual

/-- A conditional between names of different widths: the cells below the second name are padded. -/
theorem table_decodable_padded :
    ∃ rows, TruthTable.read "q1 -> p" 16 = .ok rows ∧
      TruthTable.lines "q1 -> p" rows = ["", "p q1 | q1 -> p", "--------------", "F F  | T", "F T  | F", "T F  | T",
        "T T  | T", "(contingent, 4 rows)"] ∧
      List.Forall₂ (Pictures ["p", "q1"]) rows ["F F  | T", "F T  | F", "T F  | T", "T T  | T"] ∧
      rowsShown (TruthTable.lines "q1 -> p" rows) = rows := by
  have hread : TruthTable.read "q1 -> p" 16 = .ok
      [⟨[("p", false), ("q1", false)], true⟩, ⟨[("p", false), ("q1", true)], false⟩,
        ⟨[("p", true), ("q1", false)], true⟩, ⟨[("p", true), ("q1", true)], true⟩] := by
    decide +kernel
  have hvars : Formula.readVars "q1 -> p" = .ok ["p", "q1"] := by decide +kernel
  obtain ⟨names, hnames, htable⟩ := table_decodable "q1 -> p" "q1 -> p" 16 _ hread
  obtain rfl : names = ["p", "q1"] := Except.ok.inj (hnames.symm.trans hvars)
  obtain ⟨-, ruler, pictures, verdict, hlines, hpictures, hshown, -⟩ := htable (by simp)
  refine ⟨_, hread, by decide +kernel, ?_, hshown⟩
  have hprinted : pictures ++ [verdict] =
      ["F F  | T", "F T  | F", "T F  | T", "T T  | T"] ++ ["(contingent, 4 rows)"] :=
    (List.cons.inj (List.cons.inj (List.cons.inj hlines).2).2).2.symm.trans (by decide +kernel)
  rwa [List.append_inj_left' hprinted rfl] at hpictures

end Deduction
