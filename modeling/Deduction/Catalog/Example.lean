/-
Example formulas: one for each connective, some that show how tightly they bind, and some laws.
-/
import Deduction.Catalog.Labeled

namespace Deduction

def examples : List Labeled :=
  [⟨"Simple Variable", "p", "A single proposition"⟩,
   ⟨"Negation", "~p", "NOT operator (¬)"⟩,
   ⟨"AND", "p ^ q", "Conjunction (∧)"⟩,
   ⟨"OR", "p | q", "Disjunction (∨)"⟩,
   ⟨"Implication", "p -> q", "If-then (→)"⟩,
   ⟨"Biconditional", "p <-> q", "If and only if (↔)"⟩,
   ⟨"Operator Precedence", "p | q ^ r", "Shows AND > OR (same as p | (q ^ r))"⟩,
   ⟨"Complex Precedence", "~p ^ q | r", "Shows NOT > AND > OR precedence"⟩,
   ⟨"Override Precedence", "(p | q) ^ r", "Parentheses override precedence"⟩,
   ⟨"Tautology", "p | ~p", "Always true (law of excluded middle)"⟩,
   ⟨"Contradiction", "p ^ ~p", "Always false"⟩,
   ⟨"De Morgan's Law", "~(p ^ q) <-> (~p | ~q)", "NOT (AND) = (NOT) OR (NOT)"⟩,
   ⟨"Transitive Property", "(p -> q) ^ (q -> r) -> (p -> r)", "If p→q and q→r, then p→r"⟩,
   ⟨"Modus Ponens", "(p -> q) ^ p -> q", "If p→q and p, then q"⟩]

end Deduction
