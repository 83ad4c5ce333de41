/-
Knowledge bases: fixed premises to start a proof from, with goals that can be proved from them.
-/
import Deduction.Catalog.Labeled
import Deduction.Text.Quoted

namespace Deduction

structure KnowledgeBase where
  id : String
  name : String
  description : String
  premises : List String
  goals : List Labeled
  deriving DecidableEq

namespace KnowledgeBase

/-- The knowledge bases, in the order in which they are listed. -/
def all : List KnowledgeBase :=
  [⟨"empty", "Empty", "No premises - prove using only logic", [],
    [⟨"Identity", "p -> p", "Prove that anything implies itself"⟩]⟩,
   ⟨"modus-ponens", "Modus Ponens", "Given p and p→q, derive q", ["p", "p -> q"],
    [⟨"Derive q", "q", "Use Modus Ponens to get q"⟩]⟩,
   ⟨"conjunction", "Conjunction", "Given two propositions", ["p", "q"],
    [⟨"Combine with AND", "p ^ q", "Use ∧ Introduction"⟩,
     ⟨"Commutative", "q ^ p", "AND is commutative"⟩]⟩,
   ⟨"disjunction", "Disjunction", "Given one proposition", ["p"],
    [⟨"Add OR", "p | q", "Use ∨ Introduction"⟩]⟩,
   ⟨"syllogism", "Hypothetical Syllogism", "Chain of implications", ["p", "p -> q", "q -> r"],
    [⟨"Derive r", "r", "Apply Modus Ponens twice"⟩,
     ⟨"Direct implication", "p -> r", "Prove transitivity"⟩]⟩,
   ⟨"elimination", "Conjunction Elimination", "Given a conjunction", ["p ^ q"],
    [⟨"Extract left", "p", "Use ∧ Elimination (Left)"⟩,
     ⟨"Extract right", "q", "Use ∧ Elimination (Right)"⟩]⟩]

def ids : List String :=
  all.map (·.id)

def ofId? (id : String) : Option KnowledgeBase :=
  all.find? (·.id == id)

def shown (kb : KnowledgeBase) : String :=
  "KnowledgeBase(" ++ Text.quoted kb.id ++ ")"

def premiseLine (kb : KnowledgeBase) : String :=
  Text.commaListOrNone kb.premises

/-- The goals of a knowledge base, labeled with its name and described with its premises. -/
def suggestedGoals (kb : KnowledgeBase) : List Labeled :=
  kb.goals.map fun g =>
    ⟨kb.name ++ ": " ++ g.label, g.formula,
      g.description ++ " (Premises: " ++ kb.premiseLine ++ ")"⟩

def allGoals : List Labeled :=
  all.flatMap suggestedGoals

end KnowledgeBase

end Deduction
