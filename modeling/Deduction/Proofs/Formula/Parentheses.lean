/-
The parentheses of display text. No row of tokens that the grammar derives with the tree of a formula has fewer
opening parentheses than the display text of the formula, and one that has as many is the display text, up to the
spelling of its signs (`Derives.sparer`). So display text has the parentheses that are needed and no others
(`display_fewest_parens`).
-/
import Deduction.Proofs.Formula.RoundTrip
import Deduction.Proofs.Formula.Yield

namespace Deduction

open Token (Lexes)

/-! ## The tokens of display text -/

def wrapTokens (wrap : Bool) (ts : List Token) : List Token :=
  if wrap then ⟨.leftParen, "(", 0⟩ :: (ts ++ [⟨.rightParen, ")", 0⟩]) else ts

namespace Formula

/-- The tokens of the display text of a formula, wherever they stand. -/
def displayTokens : Formula → List Token
  | var n => [⟨.identifier, n, 0⟩]
  | top => [⟨.constant true, "T", 0⟩]
  | bottom => [⟨.constant false, "F", 0⟩]
  | neg a => ⟨.negation, "~", 0⟩ :: wrapTokens (a.strength < negStrength) a.displayTokens
  | binary op a b =>
    wrapTokens (op.wrapsLeft a.strength) a.displayTokens ++
      ⟨.operator op, op.text, 0⟩ :: wrapTokens (op.wrapsRight b.strength) b.displayTokens

/-- The loosest level asks for no parentheses. -/
theorem not_loose (f : Formula) : decide (f.strength < Level.iff.strength) = false :=
  decide_eq_false (Nat.not_lt.2 (f.level_strength ▸ Level.iff_le f.level))

theorem lexes_wrapIf {s : String} {ts : List Token} (h : Lexes s.toList (ts.map Token.word)) (wrap : Bool) :
    Lexes (wrapIf wrap s).toList ((wrapTokens wrap ts).map Token.word) := by
  cases wrap with
  | false => exact h
  | true => simpa [wrapIf, wrapTokens, String.toList_append, Token.word] using h.group

theorem lexes_display : ∀ {f : Formula}, f.Named → Lexes f.display.toList (f.displayTokens.map Token.word)
  | var _, hn => Token.lexes_name hn
  | top, _ => ⟨_, rfl, rfl⟩
  | bottom, _ => ⟨_, rfl, rfl⟩
  | neg a, hn => by
    have h := (lexes_wrapIf (lexes_display (f := a) hn) (a.strength < negStrength)).negation
    simpa [display, displayTokens, String.toList_append, Token.word] using h
  | binary op a b, hn => by
    have h := (lexes_wrapIf (lexes_display (f := a) hn.1) (op.wrapsLeft a.strength)).connective op
      (lexes_wrapIf (lexes_display (f := b) hn.2) (op.wrapsRight b.strength))
    simpa [display, displayTokens, String.toList_append, Token.word] using h

end Formula

/-! ## Fewer parentheses -/

/-- The number of opening parentheses. -/
def leftParens (ts : List Token) : Nat :=
  ts.countP (·.kind = .leftParen)

@[simp] theorem leftParens_append (u v : List Token) : leftParens (u ++ v) = leftParens u + leftParens v :=
  List.countP_append

theorem leftParens_cons_of_ne {t : Token} (h : t.kind ≠ .leftParen) (ts : List Token) :
    leftParens (t :: ts) = leftParens ts :=
  List.countP_cons_of_neg (by simpa using h)

theorem leftParens_group {l r : Token} (hl : l.kind = .leftParen) (hr : r.kind = .rightParen) (ts : List Token) :
    leftParens (l :: (ts ++ [r])) = leftParens ts + 1 := by
  have hcons : leftParens (l :: (ts ++ [r])) = leftParens (ts ++ [r]) + 1 :=
    List.countP_cons_of_pos (by simpa using hl)
  rw [hcons, leftParens_append, leftParens_cons_of_ne (by rw [hr]; simp)]
  rfl

/-- The first tokens have no more opening parentheses than the second ones, and as many only where the two are the
same up to the spelling of signs. -/
structure Sparer (u v : List Token) : Prop where
  le : leftParens u ≤ leftParens v
  same : leftParens v = leftParens u → List.Forall₂ Token.SameNode u v

namespace Sparer

variable {u u' v v' : List Token} {t t' l r : Token}

theorem nil : Sparer [] [] :=
  ⟨Nat.le_refl _, fun _ => .nil⟩

theorem of_lt (h : leftParens u < leftParens v) : Sparer u v :=
  ⟨Nat.le_of_lt h, fun heq => absurd heq.symm (Nat.ne_of_lt h)⟩

theorem append (h : Sparer u v) (h' : Sparer u' v') : Sparer (u ++ u') (v ++ v') := by
  have hle := h.le
  have hle' := h'.le
  refine ⟨by simp only [leftParens_append]; omega, fun heq => ?_⟩
  simp only [leftParens_append] at heq
  exact List.rel_append (h.same (by omega)) (h'.same (by omega))

theorem cons (hnode : t.SameNode t') (ht : t.kind ≠ .leftParen) (h : Sparer u v) :
    Sparer (t :: u) (t' :: v) := by
  have ht' : t'.kind ≠ .leftParen := hnode.1 ▸ ht
  refine ⟨?_, fun heq => ?_⟩
  · rw [leftParens_cons_of_ne ht, leftParens_cons_of_ne ht']
    exact h.le
  · rw [leftParens_cons_of_ne ht, leftParens_cons_of_ne ht'] at heq
    exact .cons hnode (h.same heq)

theorem group (hl : l.kind = .leftParen) (hr : r.kind = .rightParen) (h : Sparer u v) :
    Sparer (wrapTokens true u) (l :: (v ++ [r])) := by
  have hcount : leftParens (wrapTokens true u) = leftParens u + 1 := leftParens_group rfl rfl u
  refine ⟨?_, fun heq => ?_⟩
  · rw [hcount, leftParens_group hl hr]
    exact Nat.succ_le_succ h.le
  · rw [hcount, leftParens_group hl hr] at heq
    have hlast : List.Forall₂ Token.SameNode [⟨.rightParen, ")", 0⟩] [r] := .cons ⟨hr.symm, by simp⟩ .nil
    exact .cons ⟨hl.symm, by simp⟩ (List.rel_append (h.same (by omega)) hlast)

/-- Where the first tokens stand does not count. -/
theorem congr (h : Sparer u v) (hword : u'.map Token.word = u.map Token.word) : Sparer u' v := by
  have hcount : ∀ ts : List Token, leftParens ts = (ts.map Token.word).countP (·.1 = .leftParen) := fun ts => by
    rw [List.countP_map]
    rfl
  have heq : leftParens u' = leftParens u := by rw [hcount, hword, ← hcount]
  refine ⟨heq ▸ h.le, fun hsame => ?_⟩
  have hnodes : List.Forall₂ (fun p t => p.1 = t.kind ∧ (p.1 = .identifier → p.2 = t.text)) (u.map Token.word) v :=
    List.forall₂_map_left_iff.2 (h.same (heq ▸ hsame))
  rw [← hword, List.forall₂_map_left_iff] at hnodes
  exact hnodes

end Sparer

/-- The display text, in parentheses where a level asks for them, has the fewest opening parentheses of all rows
that the level derives with the tree. -/
theorem Derives.sparer {l : Level} {w : List Token} {f : Formula} {m : Nat} (h : Derives l w f m) :
    Sparer (wrapTokens (f.strength < l.strength) f.displayTokens) w := by
  induction h with
  | name ht => exact .cons ⟨ht.symm, fun _ => rfl⟩ (by simp) .nil
  | top ht => exact .cons ⟨ht.symm, by simp⟩ (by simp) .nil
  | bottom ht => exact .cons ⟨ht.symm, by simp⟩ (by simp) .nil
  | @group lp rp w f m hl hr _ ih =>
    rw [f.not_loose] at ih
    cases hwrap : decide (f.strength < Level.atom.strength) with
    -- parentheses around an atom are too many
    | false =>
      refine .of_lt ?_
      rw [leftParens_group hl hr]
      exact Nat.lt_succ_of_le ih.le
    | true => exact .group hl hr ih
  | neg ht _ ih => exact .cons ⟨ht.symm, by simp⟩ (by simp) ih
  | @binary t op u v a b m n ht _ _ ihu ihv =>
    have hnone : decide ((Formula.binary op a b).strength < op.level.strength) = false := by
      rw [Connective.level_strength]
      exact decide_eq_false (Nat.lt_irrefl op.strength)
    rw [← op.wrapsLeft_eq] at ihu
    rw [← op.wrapsRight_eq] at ihv
    rw [hnone]
    exact ihu.append (.cons ⟨ht.symm, by simp⟩ (by simp) ihv)
  | @tighter k l w f m hkl _ ih =>
    by_cases hk : f.strength < k.strength
    · rw [decide_eq_true (Nat.lt_trans hk hkl)] at ih
      rw [decide_eq_true hk]
      exact ih
    · rw [decide_eq_false hk]
      cases hl : decide (f.strength < l.strength) with
      | false => rw [hl] at ih; exact ih
      -- a tighter level asks for parentheses that are not needed here
      | true =>
        rw [hl] at ih
        have hcount : leftParens (wrapTokens true f.displayTokens) = leftParens f.displayTokens + 1 :=
          leftParens_group rfl rfl _
        refine .of_lt ?_
        have hle := ih.le
        rw [hcount] at hle
        exact hle

/-- Where the display text of a formula of names is read, every list of tokens that is read as the formula has at
least as many opening parentheses as it, and one that has as many has the same kinds and names of tokens. -/
theorem display_fewest_parens [CallStack] (f : Formula) (d : String) (hf : f.Named)
    (hd : f.walk Formula.display = .ok d) (hread : ∃ g, Formula.read d = .ok g) :
    ∃ ts, tokenize d = .ok ts ∧ Formula.parse ts = .ok f ∧
      ∀ (w : List Token) (e : Token), (∀ t ∈ w, t.kind ≠ .finish) → e.kind = .finish →
        Formula.parse (w ++ [e]) = .ok f →
        leftParens ts ≤ leftParens (w ++ [e]) ∧
          (leftParens (w ++ [e]) = leftParens ts → List.Forall₂ Token.SameNode ts (w ++ [e])) := by
  obtain rfl := Formula.walk_ok hd
  obtain ⟨ts, hts, hword⟩ := Formula.lexes_display hf
  obtain ⟨v, ends, rfl, hv, hends⟩ := List.map_eq_append_iff.1 hword
  obtain ⟨e', rfl, he'⟩ := List.map_eq_singleton_iff.1 hends
  have hkind : e'.kind = .finish := congrArg Prod.fst he'
  refine ⟨_, hts, ?_, fun w e hw he hparse => ?_⟩
  · obtain ⟨g, hg⟩ := hread
    obtain ⟨m, hm⟩ := Formula.writes_of_read hg
    rw [hm.unique (Formula.display_writes hf), Formula.read, tokenize, hts] at hg
    exact hg
  · obtain ⟨m, -, hm⟩ := (Formula.parse_eq_ok_iff hw he f).1 hparse
    have hrow : Sparer f.displayTokens w := by
      have h := hm.sparer
      rw [f.not_loose] at h
      exact h
    have hall : Sparer (v ++ [e']) (w ++ [e]) :=
      (hrow.congr hv).append (.cons ⟨hkind.trans he.symm, by simp [hkind]⟩ (by simp [hkind]) .nil)
    exact ⟨hall.le, hall.same⟩

attribute [local instance] CallStack.usual

/-- Both pairs of parentheses of a display text are needed, however else the formula is written. -/
theorem display_fewest_parens_conditional :
    ∃ f ts, Formula.read "((p -> q)) -> ~(r /\\ (p))" = .ok f ∧
      f.walk Formula.display = .ok "(p -> q) -> ~(r ^ p)" ∧ tokenize "(p -> q) -> ~(r ^ p)" = .ok ts ∧
      leftParens ts = 2 ∧ ∀ (w : List Token) (e : Token), (∀ t ∈ w, t.kind ≠ .finish) → e.kind = .finish →
        Formula.parse (w ++ [e]) = .ok f → 2 ≤ leftParens (w ++ [e]) := by
  obtain ⟨f, hf⟩ : ∃ f, Formula.read "((p -> q)) -> ~(r /\\ (p))" = .ok f := ⟨_, rfl⟩
  have hreadable := Formula.Readable.of_read hf
  have hd : f.walk Formula.display = .ok "(p -> q) -> ~(r ^ p)" := by
    cases hf
    decide +kernel
  obtain ⟨ts, hts, -, hfewest⟩ := display_fewest_parens f "(p -> q) -> ~(r ^ p)" hreadable.named hd
    ⟨f, Formula.walk_ok hd ▸ hreadable.read_display⟩
  have hcount : leftParens ts = 2 := by
    cases hts
    rfl
  exact ⟨f, ts, hf, hd, hts, hcount, fun w e hw he hparse => hcount ▸ (hfewest w e hw he hparse).1⟩

end Deduction
