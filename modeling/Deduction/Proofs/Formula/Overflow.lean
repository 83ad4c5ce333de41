/-
What happens past the limit on nesting. A row of tokens that the grammar derives, but with more levels
than are left, is read up to the first level too many and no further (`run_overflow`). So the number of
levels belongs to the row and to the text (`Derives.nesting_unique`, `Writes.nesting_unique`), and a text
that writes a formula is read as that formula, or refused as nested too deeply if its levels are more than
the limit (`Writes.read_of_le`, `Writes.read_of_lt`).
-/
import Deduction.Proofs.Formula.Stack
import Deduction.Proofs.Formula.Writing

namespace Deduction

namespace Parser

/-! ## The level too many -/

/-- A token that opens a level leaves the machine ready, or the level is the first one too many. -/
theorem Ready.opening {k : Machine} (hk : Ready k) (frame : Frame) (pos : Nat) (ts : List Token) :
    Ready (k.opening frame) ∨
      ∃ t c, run .iff (k.opening frame) pos ts = (.error (.nestedTooDeep t nestingLimit), c) ∧
        c.depth = nestingLimit + 1 := by
  rcases Int.lt_or_le nestingLimit (k.depth + 1) with hover | hfits
  · have hoverflows : (k.opening frame).overflows = true := by simp [Machine.overflows, Machine.opening, hover]
    have hdepth := hk.fits
    exact .inr ⟨_, _, run_of_overflows hoverflows pos, by simp only [Machine.opening]; omega⟩
  · exact .inl ⟨.inr rfl, hfits⟩

/-- A derived row with more levels than are left is read up to the first one too many, whatever is behind
it. -/
theorem run_overflow {l : Level} {w : List Token} {f : Formula} {m : Nat} (h : Derives l w f m) :
    ∀ (k : Machine) (pos : Nat) (rest : List Token), Ready k → Admits k.stack l → nestingLimit < k.depth + m →
      ∃ t c, run .iff k pos (w ++ rest) = (.error (.nestedTooDeep t nestingLimit), c) ∧
        c.depth = nestingLimit + 1 := by
  induction h with
  | name => intro k _ _ hk _ hm; have := hk.fits; omega
  | top => intro k _ _ hk _ hm; have := hk.fits; omega
  | bottom => intro k _ _ hk _ hm; have := hk.fits; omega
  | @group lp rp w f m hl _ _ ih =>
    intro k pos rest hk _ hm
    have hopen : k.shift? .iff lp = some (k.opening .paren) := by
      rw [hk.shift, Machine.shiftOperand?, hl]
    rw [List.cons_append, List.append_assoc, run_cons hopen]
    rcases hk.opening .paren (pos + 1) (w ++ ([rp] ++ rest)) with hready | hover
    · exact ih _ (pos + 1) ([rp] ++ rest) hready (Level.iff_le _) (by simp only [Machine.opening]; omega)
    · exact hover
  | @neg t w f m ht _ ih =>
    intro k pos rest hk _ hm
    have hopen : k.shift? .iff t = some (k.opening .neg) := by
      rw [hk.shift, Machine.shiftOperand?, ht]; rfl
    rw [List.cons_append, run_cons hopen]
    rcases hk.opening .neg (pos + 1) (w ++ rest) with hready | hover
    · exact ih _ (pos + 1) rest hready (Nat.le_refl _) (by simp only [Machine.opening]; omega)
    · exact hover
  | @binary t op u v a b m n ht hu _ ihu ihv =>
    intro k pos rest hk hadm hm
    have hleft : Admits k.stack op.leftLevel := by
      have := op.level_le_leftLevel
      unfold Admits at *; rw [Connective.level_strength] at hadm; omega
    rw [List.append_assoc, List.cons_append]
    rcases Int.lt_or_le nestingLimit (k.depth + m) with hover | hfits
    · exact ihu k pos (t :: (v ++ rest)) hk hleft hover
    -- the left row is read, and the connective waits on the stack for the row behind it
    · obtain ⟨g, stack, depth, hrun, hred⟩ := run_derives hu k pos (t :: (v ++ rest)) hk hleft hfits
      have hop := hred (some op) (endsBefore_left op)
      rw [reduce_of_admits hadm] at hop
      rw [hrun, run_cons (shift_connective ht hop)]
      by_cases himplies : op = .implies
      · subst himplies
        rcases hk.opening (.left .implies a) (pos + u.length + 1) (v ++ rest) with hready | hover
        · exact ihv _ _ rest hready (Nat.le_refl _) (by dsimp only; omega)
        · exact hover
      · have hopened := Connective.opened_eq_zero himplies
        have hready := hk.fits
        exact ihv _ _ rest ⟨by simp [himplies], by dsimp only; omega⟩ (Nat.le_refl _) (by dsimp only; omega)
  | tighter hkl _ ih =>
    intro k pos rest hk hadm hm
    exact ih k pos rest hk (hadm.tighter hkl) hm

end Parser

open Deduction.Parser

/-! ## The levels of a row and of a text -/

/-- The grammar derives a row with one number of levels. -/
theorem Derives.nesting_unique {l : Level} {w : List Token} {f g : Formula} {m n : Nat} (hf : Derives l w f m)
    (hg : Derives l w g n) : m = n := by
  -- a run that starts with just the levels that one derivation needs would overflow by the other
  have hle : ∀ {a b : Formula} {i j : Nat}, Derives l w a i → Derives l w b j → j ≤ i := by
    intro a b i j ha hb
    by_contra hlt
    have hread := run_row (ha.loosen (Level.iff_le l)) (nestingLimit - i) (by omega) 0 [] (by simp)
    obtain ⟨t, c, hover, -⟩ := run_overflow (hb.loosen (Level.iff_le l)) (Machine.start (nestingLimit - i)) 0 []
      ⟨.inl rfl, by simp only [Machine.start]; omega⟩ (Nat.le_refl _) (by simp only [Machine.start]; omega)
    cases hread.symm.trans hover
  exact Nat.le_antisymm (hle hg hf) (hle hf hg)

theorem Formula.parse_of_derives_lt {w : List Token} {f : Formula} {m : Nat} (h : Derives .iff w f m)
    (hm : nestingLimit < m) (rest : List Token) :
    ∃ t, parse (w ++ rest) = .error (.nestedTooDeep t nestingLimit) := by
  obtain ⟨t, c, hover, -⟩ := run_overflow h (Machine.start 0) 0 rest ⟨.inl rfl, by decide⟩ (Nat.le_refl _)
    (by simp only [Machine.start]; omega)
  refine ⟨t, ?_⟩
  unfold parse Cursor.readAll Cursor.read Cursor.ofTokens
  rw [hover]

namespace Writes

variable {s : String} {f g : Formula} {m n : Nat}

theorem nesting_unique (hf : Writes s f m) (hg : Writes s g n) : m = n := by
  obtain ⟨w, hd, hd'⟩ := hf.same_row hg
  exact hd.nesting_unique hd'

theorem read_of_le (h : Writes s f m) (hm : m ≤ nestingLimit) : Formula.read s = .ok f :=
  Formula.read_eq_ok_iff.2 ⟨m, hm, h⟩

theorem read_of_lt (h : Writes s f m) (hm : nestingLimit < m) :
    ∃ t, Formula.read s = .error (.nestedTooDeep t nestingLimit) := by
  obtain ⟨w, ⟨ts, hts, hw⟩, hd⟩ := h
  obtain ⟨v, es, rfl, hv, -⟩ := List.map_eq_append_iff.1 hw
  unfold Formula.read tokenize
  rw [hts]
  exact Formula.parse_of_derives_lt (hd.congr hv) hm es

/-- A text that writes a formula is read as it exactly as long as its levels are no more than the limit. -/
theorem read_eq_ok_iff (h : Writes s f m) : Formula.read s = .ok f ↔ m ≤ nestingLimit := by
  refine ⟨fun hread => ?_, h.read_of_le⟩
  by_contra hlt
  obtain ⟨t, ht⟩ := h.read_of_lt (Nat.lt_of_not_le hlt)
  cases hread.symm.trans ht

end Writes

end Deduction
