/-
Tokens: the words that formulas are written in. A token has a kind, the text it was written as, and
the place of that text.
-/
import Deduction.Formula.Basic
import Deduction.Text.Layout
import Deduction.Text.Quoted

namespace Deduction

inductive Token.Kind
  | leftParen
  | rightParen
  | operator (op : Connective)
  | negation
  | identifier
  | constant (value : Bool)
  | finish
  deriving DecidableEq

/-- A token and the place of its first character, counted from zero. -/
structure Token where
  kind : Token.Kind
  text : String
  position : Int
  deriving DecidableEq

namespace Token

namespace Kind

def name : Kind → String
  | leftParen => "LPAREN"
  | rightParen => "RPAREN"
  | operator .and => "AND"
  | operator .or => "OR"
  | operator .implies => "IMPLIES"
  | operator .iff => "IFF"
  | negation => "NOT"
  | identifier => "VAR"
  | constant true => "TRUE"
  | constant false => "FALSE"
  | finish => "EOF"

def all : List Kind :=
  [leftParen, rightParen, operator .and, operator .or, operator .implies, operator .iff, negation,
   identifier, constant true, constant false, finish]

def ofName? (name : String) : Option Kind :=
  all.find? (·.name == name)

end Kind

/-- The token that stands behind the last one of a list. -/
def ending : Token :=
  ⟨.finish, "", 0⟩

/-- What messages call the token: its text, or its kind when it has none. -/
def label (t : Token) : String :=
  if t.text.isEmpty then t.kind.name else t.text

def shown (t : Token) : String :=
  "Token(" ++ t.kind.name ++ ", " ++ Text.quoted t.text ++ ")"

def shownAll (ts : List Token) : String :=
  "[" ++ Text.joinWith ", " (ts.map shown) ++ "]"

end Token

end Deduction
