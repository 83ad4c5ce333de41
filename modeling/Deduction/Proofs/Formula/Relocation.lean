/-
Reading in place. A row of tokens that is read as a formula on its own is read as that formula wherever it stands
in front of a closing parenthesis or an end: reading begins at the row and stops behind it, and what else is in the
list does not matter (`read_inside`). The levels that are open where reading begins only count against the limit,
so a row that needs more than are left is refused as soon as it has opened one too many (`read_inside_overflow`).
Main statement: both at once for whatever the parser accepts (`read_in_place`).
-/
import Deduction.Proofs.Formula.Overflow
import Deduction.Proofs.Formula.Prefix

namespace Deduction

open Deduction.Parser

/-- A cursor in a list of tokens, with so many of them behind it and so many levels open. -/
def Cursor.inside (ts : List Token) (pos : Nat) (depth : Int) : Cursor :=
  ⟨ts.drop pos, pos, depth⟩

/-! ## Derived rows in place -/

section InPlace

variable {w : List Token} {f : Formula} {m : Nat} {depth : Int}

theorem read_inside (h : Derives .iff w f m) (u : List Token) {rest : List Token}
    (hrest : ∀ t ∈ rest.head?, t.kind = .finish ∨ t.kind = .rightParen) (hd : depth + m ≤ nestingLimit) :
    (Cursor.inside (u ++ (w ++ rest)) u.length depth).read .iff =
      (.ok f, .inside (u ++ (w ++ rest)) (u.length + w.length) depth) := by
  have hbehind : (u ++ (w ++ rest)).drop (u.length + w.length) = rest := by
    rw [List.drop_length_add_append, List.drop_left]
  unfold Cursor.inside Cursor.read
  rw [hbehind, List.drop_left]
  exact run_row h depth hd u.length rest hrest

theorem read_inside_overflow (h : Derives .iff w f m) (u rest : List Token) (hd : depth ≤ nestingLimit)
    (hover : nestingLimit < depth + m) :
    ∃ t c, (Cursor.inside (u ++ (w ++ rest)) u.length depth).read .iff =
      (.error (.nestedTooDeep t nestingLimit), c) ∧ c.depth = nestingLimit + 1 := by
  unfold Cursor.inside Cursor.read
  rw [List.drop_left]
  exact run_overflow h (Machine.start depth) u.length rest ⟨.inl rfl, hd⟩ (Nat.le_refl _) hover

end InPlace

/-! ## Accepted rows -/

/-- What the parser accepts is a derived row at the head of the tokens, and all of them unless one is an end. -/
theorem Formula.accepted_row {v : List Token} {e : Token} {f : Formula} (he : e.kind = .finish)
    (h : parse (v ++ [e]) = .ok f) :
    ∃ w x m, v = w ++ x ∧ (∀ t ∈ x.head?, t.kind = .finish) ∧ Derives .iff w f m ∧
      stopsAt (v ++ [e]) = w.length := by
  obtain ⟨w, rest, hcut, hrest, m, hm, hd⟩ := derives_of_parse h
  have hstops : stopsAt (v ++ [e]) = w.length := by
    have hread := read_inside hd [] (fun t ht => .inl (hrest t ht)) (show (0 : Int) + m ≤ nestingLimit by omega)
    rw [stopsAt, readAll_eq, ended_pos, hcut]
    exact (congrArg (·.2.pos) hread).trans (Nat.zero_add _)
  rcases List.append_eq_append_iff.1 hcut with ⟨x, rfl, hx⟩ | ⟨x, rfl, rfl⟩
  -- the row holds no end, so it does not go beyond the tokens
  · rcases x with _ | ⟨t, x⟩
    · exact ⟨v, [], m, by simp, by simp, by simpa using hd, by simpa using hstops⟩
    · obtain ⟨rfl, -⟩ := List.cons.inj hx
      exact absurd he (hd.kind_ne_finish e (by simp))
  · refine ⟨w, x, m, rfl, fun t ht => hrest t ?_, hd, hstops⟩
    rw [List.head?_append, ht]
    rfl

/-- What the parser accepts on its own, it reads in any other list up to the same token, which is behind all of it
unless it holds an end, in front of a closing parenthesis or an end and at any depth that leaves the levels it
needs; where they are too many the first one too many is refused. -/
theorem read_in_place (v : List Token) (e : Token) (f : Formula) (he : e.kind = .finish)
    (h : Formula.parse (v ++ [e]) = .ok f) :
    ((∀ t ∈ v, t.kind ≠ .finish) → Formula.stopsAt (v ++ [e]) = v.length) ∧
    ∃ m, Derives .iff (v.take (Formula.stopsAt (v ++ [e]))) f m ∧
      ∀ (u rest : List Token) (depth : Int),
        (nextToken rest).kind = .rightParen ∨ (nextToken rest).kind = .finish →
        (depth + m ≤ nestingLimit → (Cursor.inside (u ++ (v ++ rest)) u.length depth).read .iff =
          (.ok f, .inside (u ++ (v ++ rest)) (u.length + Formula.stopsAt (v ++ [e])) depth)) ∧
        (depth ≤ nestingLimit → nestingLimit < depth + m →
          ∃ t c, (Cursor.inside (u ++ (v ++ rest)) u.length depth).read .iff =
            (.error (.nestedTooDeep t nestingLimit), c) ∧ c.depth = nestingLimit + 1) := by
  obtain ⟨w, x, m, rfl, hx, hd, hstops⟩ := Formula.accepted_row he h
  rw [hstops]
  refine ⟨fun hends => ?_, m, by rwa [List.take_left], fun u rest depth hnext => ?_⟩
  · rcases x with _ | ⟨t, x⟩
    · rw [List.append_nil]
    · exact absurd (hx t rfl) (hends t (by simp))
  · have hrest : ∀ t ∈ (x ++ rest).head?, t.kind = .finish ∨ t.kind = .rightParen := by
      rintro t ht
      rcases x with _ | ⟨s, x⟩
      · rw [nextToken, show rest.head? = some t from ht] at hnext
        exact hnext.symm
      · exact .inl (hx t ht)
    rw [List.append_assoc w x rest]
    exact ⟨read_inside hd u hrest, read_inside_overflow hd u (x ++ rest)⟩

/-- A negated implication needs three levels: between tokens that no formula holds it is read from depth -7 and
from depth 97, and refused from depth 98. -/
theorem read_in_place_negation :
    let v : List Token := [⟨.negation, "~", 0⟩, ⟨.leftParen, "(", 1⟩, ⟨.identifier, "p", 2⟩,
      ⟨.operator .implies, "->", 4⟩, ⟨.identifier, "q", 7⟩, ⟨.rightParen, ")", 8⟩]
    let u : List Token := [⟨.rightParen, ")", 0⟩, ⟨.finish, "", 1⟩]
    let rest : List Token := [⟨.rightParen, ")", 9⟩, ⟨.negation, "~", 10⟩]
    let f : Formula := .neg (.binary .implies (.var "p") (.var "q"))
    Formula.parse (v ++ [⟨.finish, "", 9⟩]) = .ok f ∧
      (Cursor.inside (u ++ (v ++ rest)) 2 (-7)).read .iff = (.ok f, .inside (u ++ (v ++ rest)) 8 (-7)) ∧
      (Cursor.inside (u ++ (v ++ rest)) 2 97).read .iff = (.ok f, .inside (u ++ (v ++ rest)) 8 97) ∧
      ∃ t c, (Cursor.inside (u ++ (v ++ rest)) 2 98).read .iff =
        (.error (.nestedTooDeep t nestingLimit), c) ∧ c.depth = nestingLimit + 1 := by
  intro v u rest f
  have hparse : Formula.parse (v ++ [⟨.finish, "", 9⟩]) = .ok f := rfl
  have hderives : Derives .iff v f 3 := by
    have himplies : Derives Connective.implies.level (v.drop 2).dropLast
        (.binary .implies (.var "p") (.var "q")) 1 :=
      .binary (t := ⟨.operator .implies, "->", 4⟩) (u := [⟨.identifier, "p", 2⟩]) (v := [⟨.identifier, "q", 7⟩]) rfl
        (.tighter (by decide) (.name rfl)) (.tighter (by decide) (.name rfl))
    exact .tighter (by decide) (.neg rfl (.tighter (by decide) (.group rfl rfl (.tighter (by decide) himplies))))
  obtain ⟨hends, m, hm, hplace⟩ := read_in_place v ⟨.finish, "", 9⟩ f rfl hparse
  have hstops := hends (by decide)
  rw [hstops] at hm hplace
  obtain rfl : m = 3 := (hm.nesting_unique hderives)
  exact ⟨hparse, (hplace u rest (-7) (.inl rfl)).1 (by decide), (hplace u rest 97 (.inl rfl)).1 (by decide),
    (hplace u rest 98 (.inl rfl)).2 (by decide) (by decide)⟩

end Deduction
