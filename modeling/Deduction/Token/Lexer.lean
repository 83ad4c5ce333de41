/-
The lexer. A text is a row of blanks and spellings; at each place the longest spelling is taken, so
that "<->" is one token, and a character that starts no spelling is an error.
-/
import Deduction.Formula.Error
import Deduction.Text.Blank

namespace Deduction

namespace Token

/-- The spellings of operators, parentheses and constant signs, the longer ones first. -/
def spellings : List (List Char × Kind) :=
  [(['<', '-', '>'], .operator .iff),
   (['-', '>'], .operator .implies),
   (['/', '\\'], .operator .and),
   (['&', '&'], .operator .and),
   (['\\', '/'], .operator .or),
   (['|', '|'], .operator .or),
   (['('], .leftParen),
   ([')'], .rightParen),
   (['^'], .operator .and),
   (['∧'], .operator .and),
   (['|'], .operator .or),
   (['∨'], .operator .or),
   (['~'], .negation),
   (['¬'], .negation),
   (['!'], .negation),
   (['→'], .operator .implies),
   (['↔'], .operator .iff),
   (['⊤'], .constant true),
   (['⊥'], .constant false)]

/-- The characters that an identifier begins with: the plain letters and the underscore. -/
def startsIdentifier (c : Char) : Bool :=
  c.isAlpha || c == '_'

/-- The characters that an identifier goes on with: also the plain digits. -/
def continuesIdentifier (c : Char) : Bool :=
  startsIdentifier c || c.isDigit

/-- The kind of a word: the bare letters T and F are the constants. -/
def wordKind (word : List Char) : Kind :=
  if word = ['T'] then .constant true
  else if word = ['F'] then .constant false
  else .identifier

/-- The longest identifier at the head of a text. -/
def leadingWord : List Char → List Char
  | [] => []
  | c :: cs => if startsIdentifier c then c :: cs.takeWhile continuesIdentifier else []

/-- The longest spelling at the head of a text, and its kind. -/
def leading? (cs : List Char) : Option (List Char × Kind) :=
  match spellings.find? fun s => s.1.isPrefixOf cs with
  | some s => some s
  | none => match leadingWord cs with
    | [] => none
    | word => some (word, wordKind word)

/-- Reads the tokens of a text whose first character stands at `pos`; the first `skip` characters
belong to a token that has been read. -/
def scan (skip pos : Nat) : List Char → Except FormulaError (List Token)
  | [] => .ok [⟨.finish, "", pos⟩]
  | c :: cs =>
    if skip ≠ 0 then scan (skip - 1) (pos + 1) cs
    else if Text.isBlank c then scan 0 (pos + 1) cs
    else match leading? (c :: cs) with
      | none => .error (.unexpectedCharacter c pos)
      | some (text, kind) =>
        match scan (text.length - 1) (pos + 1) cs with
        | .ok ts => .ok (⟨kind, String.ofList text, pos⟩ :: ts)
        | .error e => .error e

end Token

/-- The tokens of a text, ended by one token for the end of the text. -/
def tokenize (text : String) : Except FormulaError (List Token) :=
  Token.scan 0 0 text.toList

end Deduction
