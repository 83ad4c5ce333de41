/-
The layout of printed lines: texts joined by a separator, and columns of a width counted in
characters.
-/

namespace Deduction.Text

/-- The texts with the separator between each two neighbours. -/
def joinWith (separator : String) : List String → String
  | [] => ""
  | [s] => s
  | s :: t :: rest => s ++ separator ++ joinWith separator (t :: rest)

def spaces (n : Nat) : String :=
  String.ofList (List.replicate n ' ')

/-- The text with blanks behind it up to the width. -/
def padEnd (width : Nat) (s : String) : String :=
  s ++ spaces (width - s.length)

/-- The text with blanks in front of it up to the width. -/
def padStart (width : Nat) (s : String) : String :=
  spaces (width - s.length) ++ s

def ruler (c : Char) (n : Nat) : String :=
  String.ofList (List.replicate n c)

def listed (ns : List Int) : String :=
  "[" ++ joinWith ", " (ns.map toString) ++ "]"

/-- The texts with commas between them, or a word for none. -/
def commaListOrNone (texts : List String) : String :=
  if texts.isEmpty then "none" else joinWith ", " texts

/-- A page of lines, each ended by a line end. -/
def page (lines : List String) : String :=
  String.join (lines.map (· ++ "\n"))

end Deduction.Text
