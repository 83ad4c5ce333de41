/-
The three printed forms of a formula: typeset markup, which follows the tree and has no
parentheses; canonical text, with parentheses around every operation; display text, with the
parentheses that binding strength asks for.
-/
import Deduction.Formula.Basic

namespace Deduction

namespace Connective

def text : Connective → String
  | and => "^"
  | or => "|"
  | implies => "->"
  | iff => "<->"

def command : Connective → String
  | and => "\\land"
  | or => "\\lor"
  | implies => "\\to"
  | iff => "\\leftrightarrow"

/-- How tightly a connective binds; a looser one has the smaller number. -/
def strength : Connective → Nat
  | iff => 1
  | implies => 2
  | or => 3
  | and => 4

/-- Whether a chain of the connective groups to the right. -/
def groupsRight : Connective → Bool
  | implies => true
  | _ => false

/-- Whether a left operand of the given strength needs parentheses. -/
def wrapsLeft (op : Connective) (operand : Nat) : Bool :=
  if op.groupsRight then operand ≤ op.strength else operand < op.strength

/-- Whether a right operand of the given strength needs parentheses. -/
def wrapsRight (op : Connective) (operand : Nat) : Bool :=
  if op.groupsRight then operand < op.strength else operand ≤ op.strength

end Connective

def wrapIf (wrap : Bool) (s : String) : String :=
  if wrap then "(" ++ s ++ ")" else s

namespace Formula

/-- How tightly a negation binds: tighter than every connective. -/
def negStrength : Nat := 5

/-- How tightly the outermost operation of a formula binds; atoms bind tightest. -/
def strength : Formula → Nat
  | neg _ => negStrength
  | binary op _ _ => op.strength
  | _ => 6

/-- Typeset markup, with no parentheses: the grouping of the tree is left out. -/
def markup : Formula → String
  | var n => n
  | top => "\\top"
  | bottom => "\\bot"
  | neg a => "\\neg " ++ a.markup
  | binary op a b => a.markup ++ " " ++ op.command ++ " " ++ b.markup

/-- Plain text with parentheses around every negation and every connective. -/
def canonical : Formula → String
  | var n => n
  | top => "T"
  | bottom => "F"
  | neg a => "(~" ++ a.canonical ++ ")"
  | binary op a b => "(" ++ a.canonical ++ " " ++ op.text ++ " " ++ b.canonical ++ ")"

/-- Plain text with the parentheses that binding strength asks for and no others. -/
def display : Formula → String
  | var n => n
  | top => "T"
  | bottom => "F"
  | neg a => "~" ++ wrapIf (a.strength < negStrength) a.display
  | binary op a b =>
    wrapIf (op.wrapsLeft a.strength) a.display ++ " " ++ op.text ++ " "
      ++ wrapIf (op.wrapsRight b.strength) b.display

end Formula

end Deduction
