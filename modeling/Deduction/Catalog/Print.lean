/-
The printed catalogs of knowledge bases, suggested goals and examples.
-/
import Deduction.Catalog.Example
import Deduction.Catalog.KnowledgeBase

namespace Deduction

def knowledgeBaseLines : List String :=
  ["", "Knowledge bases:"]
    ++ KnowledgeBase.all.map fun kb =>
      "  " ++ Text.padEnd 14 kb.id ++ " " ++ kb.name ++ " -- premises: " ++ kb.premiseLine

def goalLines : List String :=
  ["", "Suggested goals:"] ++ KnowledgeBase.allGoals.map (Labeled.line 45 10)

def exampleLines : List String :=
  ["", "Examples:"] ++ examples.map (Labeled.line 22 35)

end Deduction
