/-
Modus ponens does not depend on the order in which its two steps are selected. It takes the first order in which
one step is detached from the other, but there is one such order at most (`not_detached_both`): what is detached
from a conditional has fewer nodes than the conditional, however loosely the two are compared. So either order of
the selection gives the same formula, or no step, and one step selected twice gives none (`modusPonens_order`).
-/
import Deduction.Proofs.Proof.Matching

namespace Deduction

namespace Proof

/-- The order in which a step cites two others is no matter for whether it can be made, nor for what it states. -/
theorem newStep_swap (p : Proof) (formula : String) (rule : RuleId) (i j : Int) (note note' : String) (depth : Int) :
    (∃ s t, p.newStep formula rule [i, j] note depth = .ok s ∧ p.newStep formula rule [j, i] note' depth = .ok t ∧
      s.formula = t.formula ∧ s.id = t.id ∧ s.depth = t.depth) ∨
    ∃ e e', p.newStep formula rule [i, j] note depth = .error e ∧
      p.newStep formula rule [j, i] note' depth = .error e' := by
  have hiff : (∃ s, p.newStep formula rule [i, j] note depth = .ok s) ↔
      ∃ t, p.newStep formula rule [j, i] note' depth = .ok t := by
    rw [newStep_isOk_iff, newStep_isOk_iff]
    simp [and_comm]
  rcases hs : p.newStep formula rule [i, j] note depth with e | s
  · rcases ht : p.newStep formula rule [j, i] note' depth with e' | t
    · exact .inr ⟨e, e', rfl, rfl⟩
    · obtain ⟨s, hs'⟩ := hiff.2 ⟨t, ht⟩
      cases hs.symm.trans hs'
  · obtain ⟨t, ht⟩ := hiff.1 ⟨s, hs⟩
    have hnext := newStep_ok hs
    have hnext' := newStep_ok ht
    exact .inl ⟨s, t, rfl, ht, hnext.formula.trans hnext'.formula.symm, hnext.id.trans hnext'.id.symm,
      hnext.depth.trans hnext'.depth.symm⟩

section Orders

variable [CallStack]

theorem not_detached_both {a b : Step} {x y : String} (hab : detach a b = .ok (some x)) :
    detach b a ≠ .ok (some y) := by
  intro hba
  obtain ⟨_, _, hread, -, -⟩ := detach_ok hab
  obtain ⟨_, _, hread', -, -⟩ := detach_ok hba
  have hlt := size_lt_of_detach hab hread' hread
  have hgt := size_lt_of_detach hba hread hread'
  omega

/-- The order in which the two consequents are asked for is no matter. -/
theorem detach_or_comm {a b : Step} {r r' : Option String} (hr : detach a b = .ok r) (hr' : detach b a = .ok r') :
    r.or r' = r'.or r := by
  rcases r with _ | x
  · rw [Option.none_or, Option.or_none]
  · rcases r' with _ | y
    · rfl
    · exact absurd hr' (not_detached_both hr)

theorem modusPonens_of_missing {p : Proof} {i j : Int} (h : p.step? i = none ∨ p.step? j = none) :
    p.modusPonens [i, j] = .error .unsuited := by
  have hselect : p.selectTwo [i, j] = .error .unsuited := by
    rcases h with h | h
    · simp [selectTwo, h]
    · simp [selectTwo, h]
  unfold modusPonens
  rw [hselect]
  rfl

/-- One step selected twice is no antecedent of itself. -/
theorem modusPonens_same (p : Proof) (i : Int) : ∃ e, p.modusPonens [i, i] = .error e := by
  rcases hs : p.modusPonens [i, i] with e | s
  · exact ⟨e, rfl⟩
  · obtain ⟨k, l, a, b, fact, conditional, _, _, hselected, ha, hb, -, hboth, hread, hsame, -⟩ := modusPonens_ok hs
    obtain ⟨rfl, rfl⟩ : k = i ∧ l = i := by simpa [eq_comm] using hselected
    obtain rfl := Option.some.inj (ha.symm.trans hb)
    obtain ⟨rfl, rfl⟩ : fact = a ∧ conditional = a := by simpa using hboth
    exact absurd (size_lt_of_sameLoosely hread hread hsame) (Nat.lt_irrefl _)

/-- The two orders of a selection in which both steps can be written give both no step, or steps that agree but
for the order in which they cite. -/
theorem modusPonens_swap {p : Proof} {i j : Int} (hi : ∀ a ∈ p.step? i, a.Renders)
    (hj : ∀ b ∈ p.step? j, b.Renders) :
    (∃ s t, p.modusPonens [i, j] = .ok s ∧ p.modusPonens [j, i] = .ok t ∧
      s.formula = t.formula ∧ s.id = t.id ∧ s.depth = t.depth) ∨
    ∃ e e', p.modusPonens [i, j] = .error e ∧ p.modusPonens [j, i] = .error e' := by
  rcases ha : p.step? i with _ | a
  · exact .inr ⟨_, _, modusPonens_of_missing (.inl ha), modusPonens_of_missing (.inr ha)⟩
  · rcases hb : p.step? j with _ | b
    · exact .inr ⟨_, _, modusPonens_of_missing (.inr hb), modusPonens_of_missing (.inl hb)⟩
    · obtain ⟨r, hr⟩ := exists_detach (hj b hb) a
      obtain ⟨r', hr'⟩ := exists_detach (hi a ha) b
      rw [modusPonens_eq ha hb hr hr', modusPonens_eq hb ha hr' hr, detach_or_comm hr' hr]
      rcases r.or r' with _ | c
      · exact .inr ⟨_, _, rfl, rfl⟩
      · dsimp only
        exact newStep_swap p c .modusPonens i j _ _ p.depth

end Orders

/-- In any proof, however it was made: of the two orders in which modus ponens tries two steps one works at most.
So if their formulas are not too tall to be written, the two orders of a selection give both no step, or both a
step, of the same formula, number and depth. One step selected twice never gives a step. -/
theorem modusPonens_order [CallStack] (p : Proof) (i j : Int) (input input' : Option String) :
    (∀ a ∈ p.step? i, ∀ b ∈ p.step? j, ∀ x y, detach a b = .ok (some x) → detach b a ≠ .ok (some y)) ∧
    ((∀ a ∈ p.step? i, a.Renders) → (∀ b ∈ p.step? j, b.Renders) →
      (∃ s t, p.derive .modusPonens [i, j] input = .ok s ∧ p.derive .modusPonens [j, i] input' = .ok t ∧
        s.formula = t.formula ∧ s.id = t.id ∧ s.depth = t.depth) ∨
      ∃ e e', p.derive .modusPonens [i, j] input = .error e ∧ p.derive .modusPonens [j, i] input' = .error e') ∧
    ∃ e, p.derive .modusPonens [i, i] input = .error e :=
  ⟨fun _ _ _ _ _ _ => not_detached_both, modusPonens_swap, modusPonens_same p i⟩

attribute [local instance] CallStack.usual

/-- A constant is taken for a variable and the grouping is not seen, whichever of the two steps is selected first. -/
theorem modusPonens_order_loose :
    ∃ s t, (ofPremises "S" ["(r ^ T) | q", "R ^ (t | q) -> S"]).derive .modusPonens [1, 2] none = .ok s ∧
      (ofPremises "S" ["(r ^ T) | q", "R ^ (t | q) -> S"]).derive .modusPonens [2, 1] none = .ok t ∧
      s.formula = "S" ∧ t.formula = "S" := by
  have hfirst : ∃ s, (ofPremises "S" ["(r ^ T) | q", "R ^ (t | q) -> S"]).derive .modusPonens [1, 2] none = .ok s ∧
      s.formula = "S" := ⟨_, rfl, rfl⟩
  have hfact : ∀ a ∈ (ofPremises "S" ["(r ^ T) | q", "R ^ (t | q) -> S"]).step? 1, a.Renders := by
    rintro a ⟨⟩
    have hwalk : (Formula.binary .or (.binary .and (.var "r") .top) (.var "q")).walk Formula.display =
        .ok "r ^ T | q" := by decide +kernel
    exact .of_read (by decide +kernel) hwalk
  have hconditional : ∀ b ∈ (ofPremises "S" ["(r ^ T) | q", "R ^ (t | q) -> S"]).step? 2, b.Renders := by
    rintro b ⟨⟩
    have hwalk : (Formula.binary .implies (.binary .and (.var "R") (.binary .or (.var "t") (.var "q")))
        (.var "S")).walk Formula.display = .ok "R ^ (t | q) -> S" := by decide +kernel
    exact .of_read (by decide +kernel) hwalk
  obtain ⟨s, hs, hformula⟩ := hfirst
  rcases (modusPonens_order _ 1 2 none none).2.1 hfact hconditional with ⟨u, t, hu, ht, heq, -⟩ | ⟨e, -, he, -⟩
  · cases hs.symm.trans hu
    exact ⟨s, t, hs, ht, hformula, heq.symm.trans hformula⟩
  · cases hs.symm.trans he

end Proof

end Deduction
