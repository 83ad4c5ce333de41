/-
Sets of characters given by spans of code points.
-/

namespace Deduction.Text

/-- Whether the code point of a character lies in one of the spans, whose two ends count. -/
def within (spans : List (Nat × Nat)) (c : Char) : Bool :=
  spans.any fun s => s.1 ≤ c.toNat && c.toNat ≤ s.2

end Deduction.Text
