/-
The parser accepts its grammar: a row of tokens is read as a formula exactly when the grammar derives
the row with that tree and no token lies under more levels of nesting than the limit, and every other
row is refused as wrong at a token or as nested too deeply (`parse_recognizes`). Started far enough
below the limit the machine reads every derived row, so the grammar is unambiguous
(`Derives.unique`).
-/
import Deduction.Proofs.Formula.Machine

namespace Deduction

namespace Parser

/-- A machine with an empty stack reads a row that the grammar derives, up to an end or a closing
parenthesis behind it. -/
theorem run_row {w : List Token} {f : Formula} {m : Nat} (h : Derives .iff w f m) (depth : Int)
    (hd : depth + m ≤ nestingLimit) (pos : Nat) (rest : List Token)
    (hrest : ∀ t ∈ rest.head?, t.kind = .finish ∨ t.kind = .rightParen) :
    run .iff (Machine.start depth) pos (w ++ rest) = (.ok f, ⟨rest, pos + w.length, depth⟩) := by
  obtain ⟨g, stack, depth', hrun, hred⟩ := run_derives h (Machine.start depth) pos rest
    ⟨.inl rfl, by simp only [Machine.start]; omega⟩ (Nat.le_refl _) hd
  have hend : reduce none g stack depth' = (f, [], depth) := by
    rw [hred none rfl, Machine.start, reduce_nil]
  have hhalt : ∀ t, Machine.halt ⟨stack, depth', .operator g⟩ t = (.ok f, depth) := by
    intro t
    simp only [Machine.halt, Machine.overflows, reduceCtorEq, decide_false, Bool.false_and, hend]
    rfl
  rw [hrun]
  rcases rest with _ | ⟨t, rest⟩
  · rw [run, hhalt]
  · have hstop : Machine.shift? .iff ⟨stack, depth', .operator g⟩ t = none := by
      rw [shift_behind]
      rcases hrest t rfl with ht | ht
      · simp only [Machine.shiftOperator?, ht]
      · simp only [Machine.shiftOperator?, ht, hend]
    rw [run, hstop]
    simp only [hhalt]

def Fault (e : FormulaError) : Prop :=
  (∃ t expected, e = .unexpectedToken t expected) ∨ ∃ t, e = .nestedTooDeep t nestingLimit

theorem halt_fault {k : Machine} {t : Token} {e : FormulaError} (h : (k.halt t).1 = .error e) : Fault e := by
  unfold Machine.halt at h
  split at h
  · cases h; exact .inr ⟨_, rfl⟩
  · split at h
    · split at h
      · cases h
      · cases h; exact .inl ⟨_, _, rfl⟩
    · cases h; exact .inl ⟨_, _, rfl⟩

theorem run_fault (base : Level) : ∀ (ts : List Token) {k : Machine} {pos : Nat} {e : FormulaError},
    (run base k pos ts).1 = .error e → Fault e
  | [], k, pos, e, h => by
    rw [run] at h
    exact halt_fault h
  | t :: ts, k, pos, e, h => by
    rw [run] at h
    split at h
    · exact run_fault base ts h
    · exact halt_fault h

end Parser

open Deduction.Parser

/-- The grammar is unambiguous: a row of tokens has one tree. -/
theorem Derives.unique {l : Level} {w : List Token} {f g : Formula} {m n : Nat} (hf : Derives l w f m)
    (hg : Derives l w g n) : f = g := by
  -- a run that starts as far below zero as the rows are deep never meets the limit
  have hread : ∀ {a : Formula} {k : Nat}, Derives l w a k → k ≤ max m n →
      (run .iff (Machine.start (nestingLimit - (max m n : Nat))) 0 (w ++ [])).1 = .ok a := by
    intro a k ha hk
    rw [run_row (ha.loosen (Level.iff_le l)) _ (by omega) 0 [] (by simp)]
  have := (hread hf (Nat.le_max_left m n)).symm.trans (hread hg (Nat.le_max_right m n))
  exact Except.ok.inj this

namespace Formula

theorem parse_of_derives {w : List Token} {f : Formula} {m : Nat} (h : Derives .iff w f m) (hm : m ≤ nestingLimit)
    {e : Token} (he : e.kind = .finish) : parse (w ++ [e]) = .ok f := by
  have hrun := run_row h 0 (by omega) 0 [e] (by simp [he])
  unfold parse Cursor.readAll Cursor.read Cursor.ofTokens
  rw [hrun]
  simp [Cursor.peek, he]

/-- What is read is a derived row that is not nested too deeply, up to the first end. -/
theorem derives_of_parse {ts : List Token} {f : Formula} (h : parse ts = .ok f) :
    ∃ w rest, ts = w ++ rest ∧ (∀ t ∈ rest.head?, t.kind = .finish) ∧ ∃ m ≤ nestingLimit, Derives .iff w f m := by
  unfold parse Cursor.readAll Cursor.read Cursor.ofTokens at h
  dsimp only at h
  split at h
  · rename_i g c hrun
    split at h
    · rename_i hc
      cases h
      obtain ⟨w, hw, m, hm, hd⟩ := derives_of_run ts (w := []) (Reads.operand (n := 0) .bottom (by decide)) hrun
      refine ⟨w, c.ahead, hw, fun t ht => ?_, m, hm, hd⟩
      rw [Cursor.peek, ht] at hc
      exact hc
    · cases h
  · rename_i hfailed
    exact (hfailed f _ (Prod.ext h rfl)).elim

theorem parse_fault {ts : List Token} {e : FormulaError} (h : parse ts = .error e) : Fault e := by
  unfold parse Cursor.readAll at h
  split at h
  · split at h
    · cases h
    · cases h; exact .inl ⟨_, _, rfl⟩
  · exact run_fault .iff ts h

/-- The tokens in front of the end are read as the tree with which the grammar derives them. -/
theorem parse_eq_ok_iff {w : List Token} {e : Token} (hw : ∀ t ∈ w, t.kind ≠ .finish) (he : e.kind = .finish)
    (f : Formula) : parse (w ++ [e]) = .ok f ↔ ∃ m ≤ nestingLimit, Derives .iff w f m := by
  constructor
  · intro h
    obtain ⟨v, rest, hts, hrest, m, hm, hd⟩ := derives_of_parse h
    -- neither row holds an end, so both stop at the first one
    have hv : v = w := by
      rcases List.append_eq_append_iff.1 hts with ⟨a, rfl, ha⟩ | ⟨c, rfl, hc⟩
      · rcases a with _ | ⟨t, a⟩
        · simp
        · obtain ⟨rfl, -⟩ := List.cons.inj ha
          exact absurd he (hd.kind_ne_finish e (by simp))
      · rcases c with _ | ⟨t, c⟩
        · simp
        · exact absurd (hrest t (by rw [hc]; rfl)) (hw t (by simp))
    exact ⟨m, hm, hv ▸ hd⟩
  · rintro ⟨m, hm, hd⟩
    exact parse_of_derives hd hm he

end Formula

/-- The tokens in front of the end are read as a formula exactly when the grammar derives them with that
tree and none of them lies under more levels than the limit; else a token is wrong or nested too deeply. -/
theorem parse_recognizes (w : List Token) (e : Token) (hw : ∀ t ∈ w, t.kind ≠ .finish) (he : e.kind = .finish) :
    (∀ f, Formula.parse (w ++ [e]) = .ok f ↔ ∃ m ≤ nestingLimit, Derives .iff w f m) ∧
    ((¬ ∃ f, ∃ m ≤ nestingLimit, Derives .iff w f m) →
      (∃ t expected, Formula.parse (w ++ [e]) = .error (.unexpectedToken t expected)) ∨
      ∃ t, Formula.parse (w ++ [e]) = .error (.nestedTooDeep t nestingLimit)) := by
  refine ⟨Formula.parse_eq_ok_iff hw he, fun hno => ?_⟩
  rcases hp : Formula.parse (w ++ [e]) with err | f
  · rcases Formula.parse_fault hp with ⟨t, expected, rfl⟩ | ⟨t, rfl⟩
    · exact .inl ⟨t, expected, rfl⟩
    · exact .inr ⟨t, rfl⟩
  · exact absurd ⟨f, (Formula.parse_eq_ok_iff hw he f).1 hp⟩ hno

/-- The tokens of a conditional are read with the negation inside it. -/
theorem parse_recognizes_conditional :
    ∃ m ≤ nestingLimit, Derives .iff
      [⟨.negation, "~", 0⟩, ⟨.identifier, "p", 1⟩, ⟨.operator .implies, "->", 3⟩, ⟨.identifier, "q", 6⟩]
      (.binary .implies (.neg (.var "p")) (.var "q")) m :=
  ((parse_recognizes
    [⟨.negation, "~", 0⟩, ⟨.identifier, "p", 1⟩, ⟨.operator .implies, "->", 3⟩, ⟨.identifier, "q", 6⟩]
    ⟨.finish, "", 7⟩ (by decide) rfl).1 _).1 rfl

end Deduction
