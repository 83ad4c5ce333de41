/-
Texts that are true under an assignment. `Holds` asks the reader for the formula; `WritesTrue` does without
its limit on nesting, so it also judges lines that a proof has put together but could not read again. A
text writes one formula, so the two agree on what is read.
-/
import Deduction.Proofs.Formula.Writing

namespace Deduction

/-- The text is read as a formula that is true under the assignment. -/
def Holds (v : String → Bool) (s : String) : Prop :=
  ∃ f, Formula.read s = .ok f ∧ f.eval v = true

/-- The text writes, however deeply nested, a formula that is true under the assignment. -/
def WritesTrue (v : String → Bool) (s : String) : Prop :=
  ∃ f m, Writes s f m ∧ f.eval v = true

instance (v : String → Bool) (s : String) : Decidable (Holds v s) :=
  match h : Formula.read s with
  | .ok f => decidable_of_iff (f.eval v = true)
      ⟨fun hv => ⟨f, h, hv⟩, fun ⟨_, hf, hv⟩ => by cases h.symm.trans hf; exact hv⟩
  | .error _ => .isFalse fun ⟨_, hf, _⟩ => by cases h.symm.trans hf

/-- Wherever the first text is true, so is the second. -/
def Entails (s t : String) : Prop :=
  ∀ v, WritesTrue v s → WritesTrue v t

namespace WritesTrue

variable {v : String → Bool} {s : String} {f : Formula}

theorem of_holds (h : Holds v s) : WritesTrue v s := by
  obtain ⟨f, hf, hv⟩ := h
  obtain ⟨m, hm⟩ := Formula.writes_of_read hf
  exact ⟨f, m, hm, hv⟩

theorem eval_of_writes {m : Nat} (h : WritesTrue v s) (hs : Writes s f m) : f.eval v = true := by
  obtain ⟨g, n, hg, hv⟩ := h
  rw [hs.unique hg]
  exact hv

theorem eval (h : WritesTrue v s) (hs : Formula.read s = .ok f) : f.eval v = true := by
  obtain ⟨m, hm⟩ := Formula.writes_of_read hs
  exact h.eval_of_writes hm

theorem display (h : f.Named) (hv : f.eval v = true) : WritesTrue v f.display :=
  ⟨f, _, Formula.display_writes h, hv⟩

end WritesTrue

end Deduction
