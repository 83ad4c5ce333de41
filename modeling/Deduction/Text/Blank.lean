/-
Blank characters, which separate tokens and words, and the two ways to be rid of them: trimming a
text at both ends, and cutting it into words.
-/
import Deduction.Text.Span

namespace Deduction.Text

/-- The blank characters: the spaces, the tabs, the line and page ends, the four information
separators. The zero-width characters are not blank. -/
def blankSpans : List (Nat × Nat) :=
  [(0x9, 0xD), (0x1C, 0x20), (0x85, 0x85), (0xA0, 0xA0), (0x1680, 0x1680), (0x2000, 0x200A),
   (0x2028, 0x2029), (0x202F, 0x202F), (0x205F, 0x205F), (0x3000, 0x3000)]

def isBlank (c : Char) : Bool :=
  within blankSpans c

/-- Drops the characters of a kind from both ends. -/
def trimOff (p : Char → Bool) (cs : List Char) : List Char :=
  (cs.dropWhile p).reverse.dropWhile p |>.reverse

def trim (s : String) : String :=
  String.ofList (trimOff isBlank s.toList)

/-- The longest runs of characters that are not blank, in order. -/
def splitWords : List Char → List (List Char)
  | [] => []
  | c :: cs =>
    if isBlank c then splitWords cs
    else match splitWords cs with
      | [] => [[c]]
      | w :: ws => if cs.head?.any isBlank then [c] :: w :: ws else (c :: w) :: ws

def words (s : String) : List String :=
  (splitWords s.toList).map String.ofList

end Deduction.Text
