/-
Texts with a blank between them. A blank ends the token in front of it and belongs to none, so the lexer reads such
a text as it reads the two sides, the second one from where it stands (`scan_append_blank`). Where a text stands is
no matter for how it is read: from another place a scan gives the same tokens or the same error, each as far on as
the place is (`scan_moved`). So reading commutes with putting texts together, failures included
(`tokenize_append_blank`).
-/
import Deduction.Proofs.Token.LongestMatch

namespace Deduction

/-- The token `n` characters further on. -/
def Token.moved (n : Nat) (t : Token) : Token :=
  { t with position := t.position + n }

/-- The error at a place `n` characters further on. -/
def FormulaError.moved (n : Nat) : FormulaError → FormulaError
  | unexpectedCharacter c pos => unexpectedCharacter c (pos + n)
  | unexpectedToken t expected => unexpectedToken (t.moved n) expected
  | nestedTooDeep t limit => nestedTooDeep (t.moved n) limit
  | tooManyVariables count limit rows => tooManyVariables count limit rows
  | tooTall => tooTall

namespace Token

/-! ## The place of a text -/

/-- Where a text stands decides the places of its tokens, or of its error, and nothing else. -/
theorem scan_moved (n : Nat) : ∀ (cs : List Char) (skip pos : Nat), scan skip (pos + n) cs =
    match scan skip pos cs with
    | .ok ts => .ok (ts.map (moved n))
    | .error e => .error (e.moved n)
  | [], skip, pos => by rw [scan, scan]; rfl
  | c :: cs, skip, pos => by
    have hpos : pos + n + 1 = pos + 1 + n := by omega
    rw [scan, scan, hpos]
    split
    · exact scan_moved n cs (skip - 1) (pos + 1)
    · split
      · exact scan_moved n cs 0 (pos + 1)
      · split
        · rfl
        · rename_i text kind _
          rw [scan_moved n cs (text.length - 1) (pos + 1)]
          rcases scan (text.length - 1) (pos + 1) cs with e | ts
          · rfl
          · rfl

/-! ## A blank between two texts -/

/-- A text that goes on behind a blank is read up to the blank as if it ended there. What stands behind the blank
is read as on its own, further on by the text in front of it and the blank. -/
theorem scan_append_blank {w : Char} (hw : Text.isBlank w = true) (a b : List Char) : scan 0 0 (a ++ w :: b) =
    match scan 0 0 a with
    | .error e => .error e
    | .ok ts => match scan 0 0 b with
      | .ok us => .ok (ts.dropLast ++ us.map (moved (a.length + 1)))
      | .error e => .error (e.moved (a.length + 1)) := by
  have hbehind : scan 0 (0 + a.length) (w :: b) = match scan 0 0 b with
      | .ok us => .ok (us.map (moved (a.length + 1)))
      | .error e => .error (e.moved (a.length + 1)) := by
    rw [scan_blank hw, Nat.add_assoc]
    exact scan_moved (a.length + 1) b 0 0
  rw [scan_append (by simp [separates, hw]) b a 0 0 (Nat.zero_le _), hbehind]
  rcases scan 0 0 a with e | ts
  · rfl
  · rcases scan 0 0 b with e | us
    · rfl
    · rfl

/-- The two sides of a blank are read as the words of a text are divided. -/
theorem Lexes.cut {w : Char} (hw : Text.isBlank w = true) {a b : List Char} {v : List (Kind × String)}
    (h : Lexes (a ++ w :: b) v) : ∃ s t, v = s ++ t ∧ Lexes a s ∧ Lexes b t := by
  obtain ⟨ts, hts, hv⟩ := h
  rw [scan_append_blank hw] at hts
  rcases ha : scan 0 0 a with e | us
  · rw [ha] at hts
    cases hts
  · rcases hb : scan 0 0 b with e | vs
    · rw [ha, hb] at hts
      cases hts
    · rw [ha, hb] at hts
      cases hts
      obtain ⟨u, rfl, -⟩ := scan_shape a ha
      obtain ⟨u', rfl, -⟩ := scan_shape b hb
      refine ⟨u.map word, u'.map word, ?_, ⟨_, ha, by rw [List.map_append]; rfl⟩,
        ⟨_, hb, by rw [List.map_append]; rfl⟩⟩
      rw [List.dropLast_concat, List.map_append, List.map_map, List.map_append, ← List.append_assoc] at hv
      exact (List.append_inj_left' hv rfl).symm

end Token

open Token

/-- Two texts with a blank between them are read exactly if each of them is read. The tokens then are those of the
first one, without its end, and those of the second one from where it stands. If the first one is not read, its
error is the error of the whole; if only the second one is not read, the whole has an error at the same character,
whose place is that in the second text counted from where this stands. -/
theorem tokenize_append_blank (a b : String) (w : Char) (hw : Text.isBlank w = true) :
    ((∃ ts, tokenize (a ++ String.singleton w ++ b) = .ok ts) ↔
      (∃ ts, tokenize a = .ok ts) ∧ ∃ us, tokenize b = .ok us) ∧
    (∀ ts us, tokenize a = .ok ts → tokenize b = .ok us →
      ∃ u, ts = u ++ [⟨.finish, "", (a.length : Nat)⟩] ∧ (∀ t ∈ u, t.kind ≠ .finish) ∧
        tokenize (a ++ String.singleton w ++ b) = .ok (u ++ us.map (Token.moved (a.length + 1)))) ∧
    (∀ e, tokenize a = .error e → ∃ c i, e = .unexpectedCharacter c i ∧
      tokenize (a ++ String.singleton w ++ b) = .error (.unexpectedCharacter c i)) ∧
    (∀ ts e, tokenize a = .ok ts → tokenize b = .error e → ∃ c i, e = .unexpectedCharacter c i ∧
      tokenize (a ++ String.singleton w ++ b) = .error (.unexpectedCharacter c (a.length + 1 + i))) := by
  have hwhole : tokenize (a ++ String.singleton w ++ b) =
      match tokenize a with
      | .error e => .error e
      | .ok ts => match tokenize b with
        | .ok us => .ok (ts.dropLast ++ us.map (Token.moved (a.length + 1)))
        | .error e => .error (e.moved (a.length + 1)) := by
    have hsplit := scan_append_blank hw a.toList b.toList
    rw [String.length_toList] at hsplit
    have htext : (a ++ String.singleton w ++ b).toList = a.toList ++ w :: b.toList := by
      simp
    rw [tokenize, htext]
    exact hsplit
  refine ⟨?_, fun ts us ha hb => ?_, fun e ha => ?_, fun ts e ha hb => ?_⟩
  · rw [hwhole]
    rcases tokenize a with e | ts
    · simp
    · rcases tokenize b with e | us
      · simp
      · simp
  · obtain ⟨u, rfl, hu⟩ := scan_shape a.toList ha
    refine ⟨u, by rw [Nat.zero_add, String.length_toList], fun t ht => (hu t ht).1, ?_⟩
    rw [hwhole, ha, hb]
    dsimp only
    rw [List.dropLast_concat]
  · obtain ⟨i, c, rfl, -⟩ := (scanned 0 a.toList).stops ha
    refine ⟨c, _, rfl, ?_⟩
    rw [hwhole, ha]
  · obtain ⟨i, c, rfl, -⟩ := (scanned 0 b.toList).stops hb
    refine ⟨c, _, rfl, ?_⟩
    rw [hwhole, ha, hb]
    dsimp only [FormulaError.moved]
    rw [Nat.add_comm]

/-- Two bars that a blank divides are two tokens, and a name in front of it does not go on behind it. -/
theorem tokenize_append_blank_bars :
    tokenize "p_|\u00A0|1q" = .error (.unexpectedCharacter '1' 5) ∧
    tokenize "p_|\u00A0|q1" = .ok [⟨.identifier, "p_", 0⟩, ⟨.operator .or, "|", 2⟩, ⟨.operator .or, "|", 4⟩,
      ⟨.identifier, "q1", 5⟩, ⟨.finish, "", 7⟩] := by
  have hfront : tokenize "p_|" = .ok [⟨.identifier, "p_", 0⟩, ⟨.operator .or, "|", 2⟩, ⟨.finish, "", 3⟩] := by
    decide +kernel
  have hstuck : tokenize "|1q" = .error (.unexpectedCharacter '1' 1) := by decide +kernel
  have hbehind : tokenize "|q1" = .ok [⟨.operator .or, "|", 0⟩, ⟨.identifier, "q1", 1⟩, ⟨.finish, "", 3⟩] := by
    decide +kernel
  constructor
  · obtain ⟨c, i, he, hwhole⟩ := (tokenize_append_blank "p_|" "|1q" '\u00A0' (by decide)).2.2.2 _ _ hfront hstuck
    cases he
    exact hwhole
  · obtain ⟨u, hu, -, hwhole⟩ := (tokenize_append_blank "p_|" "|q1" '\u00A0' (by decide)).2.1 _ _ hfront hbehind
    obtain rfl : [⟨.identifier, "p_", 0⟩, ⟨.operator .or, "|", 2⟩] = u := List.append_inj_left' hu rfl
    exact hwhole

end Deduction
