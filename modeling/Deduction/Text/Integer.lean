/-
Integers as people write them: a sign or none, decimal digits of any script, single underscores
between digits, blanks at the ends. A number of too many digits is neither read nor written.
-/
import Deduction.Text.Blank
import Deduction.Text.Digit
import Deduction.Text.Quoted

namespace Deduction.Text

inductive IntegerFault
  | malformed (text : String)
  | tooLong (digits : Nat)

/-- The most digits that an integer may be written with. -/
def integerDigitLimit : Nat := 4300

def IntegerFault.message : IntegerFault → String
  | .malformed s =>
    "invalid literal for int() with base 10: " ++ String.ofList ((quoted s).toList.take 200)
  | .tooLong n =>
    "Exceeds the limit (" ++ toString integerDigitLimit
      ++ " digits) for integer string conversion: value has " ++ toString n
      ++ " digits; use sys.set_int_max_str_digits() to increase the limit"

/-- Why a number is not written: it has too many digits, or it is too large to be worked with. -/
inductive NumberFault
  | tooLong
  | tooLarge
  deriving DecidableEq

def NumberFault.message : NumberFault → String
  | .tooLong =>
    "Exceeds the limit (" ++ toString integerDigitLimit
      ++ " digits) for integer string conversion; use sys.set_int_max_str_digits() to increase the limit"
  | .tooLarge => "int too large to convert to float"

/-- Writes an integer. -/
def writeInteger (n : Int) : Except NumberFault String :=
  if Nat.pow 10 integerDigitLimit ≤ n.natAbs then .error .tooLong else .ok (toString n)

/-- The blanks that may stand around an integer: all but the four information separators. -/
def isBlankByNumber (c : Char) : Bool :=
  isBlank c && !within [(0x1C, 0x1F)] c

def isNumeral (c : Char) : Bool :=
  c == '_' || (digitValue? c).isSome

/-- Whether every underscore stands between two numerals that are none. -/
def underscoresApart : List Char → Bool
  | [] => true
  | ['_'] => false
  | '_' :: '_' :: _ => false
  | _ :: cs => underscoresApart cs

/-- The number that digits write, the highest first. -/
def ofDigits (digits : List Nat) : Nat :=
  digits.foldl (fun n d => 10 * n + d) 0

/-- The sign in front of a number and what follows it. -/
def splitSign : List Char → Int × List Char
  | '-' :: cs => (-1, cs)
  | '+' :: cs => (1, cs)
  | cs => (1, cs)

/-- Reads an integer. The count of its digits is judged before what follows them. -/
def readInteger (s : String) : Except IntegerFault Int :=
  let (sign, body) := splitSign (trimOff isBlankByNumber s.toList)
  let run := body.takeWhile isNumeral
  let digits := run.filterMap digitValue?
  if run.head? = some '_' || !underscoresApart run then .error (.malformed s)
  else if integerDigitLimit < digits.length then .error (.tooLong digits.length)
  else if digits.isEmpty || run.length < body.length then .error (.malformed s)
  else .ok (sign * ofDigits digits)

end Deduction.Text
