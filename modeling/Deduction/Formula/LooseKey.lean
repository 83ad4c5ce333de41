/-
The loose key of a formula text: the text without blanks and parentheses, in small letters. Proof
checking takes two texts for the same formula when their keys agree, so it does not see how a
formula is grouped, nor the case of its letters.
-/
import Deduction.Text.Blank
import Deduction.Text.LowerCase

namespace Deduction

def isParenthesis (c : Char) : Bool :=
  c == '(' || c == ')'

/-- What two texts share when they are taken for the same formula. -/
def looseKey (s : String) : String :=
  String.ofList (Text.lower ((s.toList.filter (!Text.isBlank ·)).filter (!isParenthesis ·)))

def sameLoosely (s t : String) : Bool :=
  looseKey s == looseKey t

end Deduction
