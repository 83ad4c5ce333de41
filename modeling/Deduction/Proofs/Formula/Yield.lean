/-
The yield of a tree: its variables, constants, negations and connectives in the order in which a text has them.
Whatever row of tokens the grammar derives with a tree, what the row holds besides parentheses is the yield of
that tree (`Derives.yields`). So two texts of one tree have as many such tokens, and differ in their
parentheses and in how they spell the others.
-/
import Deduction.Proofs.Formula.Writing
import Mathlib.Data.List.Forall2

namespace Deduction

namespace Token

/-- Whether a token of the kind has a place in the tree: parentheses only group, and the end only ends. -/
def Kind.inTree : Kind → Bool
  | leftParen => false
  | rightParen => false
  | finish => false
  | _ => true

/-- The tokens without the parentheses and the end. -/
def bare (ts : List Token) : List Token :=
  ts.filter (·.kind.inTree)

@[simp] theorem bare_append (u v : List Token) : bare (u ++ v) = bare u ++ bare v :=
  List.filter_append ..

theorem bare_cons {t : Token} (h : t.kind.inTree = true) (ts : List Token) : bare (t :: ts) = t :: bare ts :=
  List.filter_cons_of_pos h

theorem bare_cons_of_not {t : Token} (h : t.kind.inTree = false) (ts : List Token) : bare (t :: ts) = bare ts :=
  List.filter_cons_of_neg (by simp [h])

theorem mem_of_mem_bare {ts : List Token} {t : Token} (h : t ∈ bare ts) : t ∈ ts :=
  (List.mem_filter.1 h).1

end Token

open Token (bare)

/-- The tokens of a text without the parentheses and the end. -/
def bareTokens (s : String) : List Token :=
  match tokenize s with
  | .ok ts => bare ts
  | .error _ => []

/-- How a text spells its formula: the texts of its tokens, the parentheses left out. -/
def spelling (s : String) : List String :=
  (bareTokens s).map (·.text)

/-! ## The yield -/

/-- The tokens are the nodes of the tree, each operator between its operands and a negation in front. -/
inductive Yields : Formula → List Token → Prop
  | name {t : Token} : t.kind = .identifier → Yields (.var t.text) [t]
  | top {t : Token} : t.kind = .constant true → Yields .top [t]
  | bottom {t : Token} : t.kind = .constant false → Yields .bottom [t]
  | neg {t : Token} {w : List Token} {a : Formula} : t.kind = .negation → Yields a w → Yields (.neg a) (t :: w)
  | binary {t : Token} {op : Connective} {u v : List Token} {a b : Formula} : t.kind = .operator op →
      Yields a u → Yields b v → Yields (.binary op a b) (u ++ t :: v)

theorem Derives.yields {l : Level} {w : List Token} {f : Formula} {m : Nat} (h : Derives l w f m) :
    Yields f (bare w) := by
  induction h with
  | name ht =>
    rw [Token.bare_cons (by rw [ht]; rfl)]
    exact .name ht
  | top ht =>
    rw [Token.bare_cons (by rw [ht]; rfl)]
    exact .top ht
  | bottom ht =>
    rw [Token.bare_cons (by rw [ht]; rfl)]
    exact .bottom ht
  | group hl hr _ ih =>
    rw [Token.bare_cons_of_not (by rw [hl]; rfl), Token.bare_append, Token.bare_cons_of_not (by rw [hr]; rfl)]
    exact (List.append_nil (bare _)).symm ▸ ih
  | neg ht _ ih =>
    rw [Token.bare_cons (by rw [ht]; rfl)]
    exact .neg ht ih
  | binary ht _ _ ihu ihv =>
    rw [Token.bare_append, Token.bare_cons (by rw [ht]; rfl)]
    exact .binary ht ihu ihv
  | tighter _ _ ih => exact ih

/-- Without its parentheses and the end, a text that writes a formula is the yield of the formula. -/
theorem Writes.yields {s : String} {f : Formula} {m : Nat} (h : Writes s f m) : Yields f (bareTokens s) := by
  obtain ⟨w, ⟨ts, hts, hw⟩, hd⟩ := h
  obtain ⟨v, es, rfl, hv, he⟩ := List.map_eq_append_iff.1 hw
  obtain ⟨e, rfl, hek⟩ := List.map_eq_singleton_iff.1 he
  have hend : e.kind.inTree = false := by
    rw [show e.kind = .finish from congrArg Prod.fst hek]
    rfl
  have hbare : bareTokens s = bare v := by
    unfold bareTokens tokenize
    rw [hts]
    dsimp only
    rw [Token.bare_append, Token.bare_cons_of_not hend]
    exact List.append_nil _
  rw [hbare]
  exact (hd.congr hv).yields

/-- The tokens of a text that was read are, without the parentheses and the end, the yield of its formula. -/
theorem Formula.yields_of_read {s : String} {f : Formula} (h : read s = .ok f) :
    ∃ ts, tokenize s = .ok ts ∧ Yields f (bare ts) := by
  obtain ⟨m, hw⟩ := writes_of_read h
  have hyields := hw.yields
  obtain ⟨-, ⟨ts, hts, -⟩, -⟩ := hw
  refine ⟨ts, hts, ?_⟩
  rwa [bareTokens, show tokenize s = .ok ts from hts] at hyields

/-- The tokens stand for one node of a tree: they are of one kind, and name one variable if they name one. -/
def Token.SameNode (t u : Token) : Prop :=
  t.kind = u.kind ∧ (t.kind = .identifier → t.text = u.text)

theorem Yields.sameNodes {f : Formula} {u v : List Token} (hu : Yields f u) (hv : Yields f v) :
    List.Forall₂ Token.SameNode u v := by
  induction hu generalizing v with
  | name ht =>
    generalize hf : Formula.var _ = f at hv
    cases hv with
    | name ht' => exact .cons ⟨ht.trans ht'.symm, fun _ => Formula.var.inj hf⟩ .nil
    | _ => cases hf
  | top ht =>
    cases hv with
    | top ht' => exact .cons ⟨ht.trans ht'.symm, by simp [ht]⟩ .nil
  | bottom ht =>
    cases hv with
    | bottom ht' => exact .cons ⟨ht.trans ht'.symm, by simp [ht]⟩ .nil
  | neg ht _ ih =>
    cases hv with
    | neg ht' ha => exact .cons ⟨ht.trans ht'.symm, by simp [ht]⟩ (ih ha)
  | binary ht _ _ ihu ihv =>
    cases hv with
    | binary ht' ha hb => exact List.rel_append (ihu ha) (.cons ⟨ht.trans ht'.symm, by simp [ht]⟩ (ihv hb))

/-! ## The number of nodes -/

namespace Formula

/-- The number of nodes of the tree. -/
def size : Formula → Nat
  | neg a => a.size + 1
  | binary _ a b => a.size + b.size + 1
  | _ => 1

end Formula

theorem Yields.length_eq {f : Formula} {w : List Token} (h : Yields f w) : w.length = f.size := by
  induction h with
  | name => rfl
  | top => rfl
  | bottom => rfl
  | neg _ _ ih => rw [List.length_cons, ih, Formula.size]
  | binary _ _ _ ihu ihv =>
    rw [List.length_append, List.length_cons, ihu, ihv, Formula.size]
    omega

end Deduction
