/-
The parser. Its grammar, the loosest binding first:

  iff      := implies, or iff "<->" implies
  implies  := or, or or "->" implies
  or       := and, or or "|" and
  and      := not, or and "^" not
  not      := atom, or "~" not
  atom     := variable, constant, or "(" iff ")"

A cursor stands in a list of tokens. Reading a level of the grammar runs a machine over the tokens
ahead of it: a stack holds what waits for the operand at hand, each token either joins the machine
or stops it, and where it stops the stack tells whether a formula was read. An open parenthesis, the
operand of a negation and the right side of an implication each open a level of nesting.
-/
import Deduction.Formula.Error
import Deduction.Formula.Print
import Deduction.Record.Value
import Deduction.Token.Lexer

namespace Deduction

/-- The most levels of nesting that may be open. -/
def nestingLimit : Nat := 100

inductive Level
  | iff
  | implies
  | or
  | and
  | not
  | atom
  deriving DecidableEq

/-- How tightly a formula of the level binds at least. -/
def Level.strength : Level → Nat
  | iff => Connective.strength .iff
  | implies => Connective.strength .implies
  | or => Connective.strength .or
  | and => Connective.strength .and
  | not => Formula.negStrength
  | atom => Formula.negStrength + 1

namespace Parser

/-- What waits on the stack for the operand at hand: a parenthesis to be closed, a negation, or a
connective with its left operand. -/
inductive Frame
  | paren
  | neg
  | left (op : Connective) (operand : Formula)
  deriving DecidableEq

/-- What comes next: an operand, an operand behind a token that has just opened a level, or an
operator behind the operand at hand. -/
inductive Due
  | operand
  | opened
  | operator (operand : Formula)
  deriving DecidableEq

/-- The stack, the innermost frame first, the number of open levels, and what comes next. -/
structure Machine where
  stack : List Frame
  depth : Int
  due : Due
  deriving DecidableEq

/-- What a missing operand is called. -/
def operandExpected : String := "a variable, constant or '('"

/-- What a missing closing parenthesis is called. -/
def closingExpected : String := "closing parenthesis ')'"

/-- What a token behind a whole formula stands in the place of. -/
def endExpected : String := "end of formula"

/-- Whether the connective of a frame takes its right operand before `next` does; every connective
does when none is next. -/
def takesFirst (op : Connective) : Option Connective → Bool
  | none => true
  | some next => next.strength < op.strength || (next = op && !op.groupsRight)

/-- Hands the operand to the frames that take it before the next connective does. -/
def reduce (next : Option Connective) : Formula → List Frame → Int → Formula × List Frame × Int
  | f, .neg :: stack, depth => reduce next (.neg f) stack (depth - 1)
  | f, .left op a :: stack, depth =>
    if takesFirst op next then
      reduce next (.binary op a f) stack (if op = .implies then depth - 1 else depth)
    else (f, .left op a :: stack, depth)
  | f, stack, depth => (f, stack, depth)

namespace Machine

def start (depth : Int) : Machine :=
  ⟨[], depth, .operand⟩

/-- Whether the level that was just opened is one too many. -/
def overflows (m : Machine) : Bool :=
  m.due = .opened && (nestingLimit : Int) < m.depth

def opening (m : Machine) (frame : Frame) : Machine :=
  ⟨frame :: m.stack, m.depth + 1, .opened⟩

def behind (m : Machine) (f : Formula) : Machine :=
  ⟨m.stack, m.depth, .operator f⟩

/-- The machine after an operand token, if the token is one. -/
def shiftOperand? (base : Level) (m : Machine) (t : Token) : Option Machine :=
  match t.kind with
  | .identifier => some (m.behind (.var t.text))
  | .constant true => some (m.behind .top)
  | .constant false => some (m.behind .bottom)
  | .leftParen => some (m.opening .paren)
  | .negation => if base = .atom ∧ m.stack = [] then none else some (m.opening .neg)
  | _ => none

/-- The machine after a connective or a closing parenthesis behind the operand `f`, if it may
stand there. -/
def shiftOperator? (base : Level) (m : Machine) (f : Formula) (t : Token) : Option Machine :=
  match t.kind with
  | .operator op =>
    let (a, stack, depth) := reduce (some op) f m.stack m.depth
    if stack = [] ∧ op.strength < base.strength then none
    else if op = .implies then some ⟨.left op a :: stack, depth + 1, .opened⟩
    else some ⟨.left op a :: stack, depth, .operand⟩
  | .rightParen =>
    match reduce none f m.stack m.depth with
    | (a, .paren :: stack, depth) => some ⟨stack, depth - 1, .operator a⟩
    | _ => none
  | _ => none

/-- The machine after a token, or `none` if the token stops it. -/
def shift? (base : Level) (m : Machine) (t : Token) : Option Machine :=
  if m.overflows then none
  else match m.due with
    | .operator f => m.shiftOperator? base f t
    | _ => m.shiftOperand? base t

/-- What has been read when the token stops the machine, and the number of levels left open. -/
def halt (m : Machine) (t : Token) : Except FormulaError Formula × Int :=
  if m.overflows then (.error (.nestedTooDeep t nestingLimit), m.depth)
  else match m.due with
    | .operator f =>
      match reduce none f m.stack m.depth with
      | (a, [], depth) => (.ok a, depth)
      | (_, _, depth) => (.error (.unexpectedToken t closingExpected), depth)
    | _ => (.error (.unexpectedToken t operandExpected), m.depth)

end Machine

end Parser

/-- A place in a list of tokens: what is ahead, how many tokens are behind, and how many levels of
nesting are open. -/
structure Cursor where
  ahead : List Token
  pos : Nat
  depth : Int
  deriving DecidableEq

namespace Parser

/-- Runs a machine over the tokens ahead, up to the one that stops it. -/
def run (base : Level) (m : Machine) (pos : Nat) : List Token → Except FormulaError Formula × Cursor
  | [] =>
    let (result, depth) := m.halt Token.ending
    (result, ⟨[], pos, depth⟩)
  | t :: ts =>
    match m.shift? base t with
    | some m' => run base m' (pos + 1) ts
    | none =>
      let (result, depth) := m.halt t
      (result, ⟨t :: ts, pos, depth⟩)

end Parser

namespace Cursor

def ofTokens (ts : List Token) : Cursor :=
  ⟨ts, 0, 0⟩

/-- The next token; behind the last one stands the end. -/
def peek (c : Cursor) : Token :=
  c.ahead.head?.getD Token.ending

/-- The cursor behind the next token, or where it is if that token is the end. -/
def advance (c : Cursor) : Cursor :=
  if c.peek.kind = .finish then c else { c with ahead := c.ahead.tail, pos := c.pos + 1 }

/-- Whether the next token is of the kind, and the cursor behind it if so. -/
def accept (c : Cursor) (kind : Token.Kind) : Bool × Cursor :=
  if c.peek.kind = kind then (true, c.advance) else (false, c)

/-- Opens a level of nesting, which may be one too many; it stays open then. -/
def enter (c : Cursor) : Except FormulaError Unit × Cursor :=
  let c' := { c with depth := c.depth + 1 }
  if (nestingLimit : Int) < c'.depth then (.error (.nestedTooDeep c'.peek nestingLimit), c')
  else (.ok (), c')

def leave (c : Cursor) : Cursor :=
  { c with depth := c.depth - 1 }

/-- Reads a formula of a level of the grammar. An error leaves the cursor where it arose. -/
def read (c : Cursor) (level : Level) : Except FormulaError Formula × Cursor :=
  Parser.run level (Parser.Machine.start c.depth) c.pos c.ahead

/-- Reads a formula that the end must follow. -/
def readAll (c : Cursor) : Except FormulaError Formula × Cursor :=
  match c.read .iff with
  | (.ok f, c') =>
    if c'.peek.kind = .finish then (.ok f, c')
    else (.error (.unexpectedToken c'.peek Parser.endExpected), c')
  | failed => failed

end Cursor

namespace Formula

/-- The formula that a list of tokens writes. -/
def parse (ts : List Token) : Except FormulaError Formula :=
  (Cursor.ofTokens ts).readAll.1

/-- The formula that a text writes. -/
def read (text : String) : Except FormulaError Formula :=
  match tokenize text with
  | .ok ts => parse ts
  | .error e => .error e

/-- The message for a formula that is too tall to be typeset. -/
def tooTallToTypeset : String := "Formula is nested too deeply"

section Walks

variable [CallStack]

/-- The variables of the formula that a text writes. -/
def readVars (text : String) : Except FormulaError (List String) :=
  match read text with
  | .ok f => f.walk vars
  | .error e => .error e

/-- The typeset markup of the formula that a text writes, or a message why there is none. -/
def readMarkup (text : String) : Except String String :=
  match read text with
  | .error e => .error e.message
  | .ok f => match f.walk markup with
    | .ok m => .ok m
    | .error _ => .error tooTallToTypeset

/-- The markup of a text as a record: the markup alone, or an empty one and the message why there is none. -/
def markupRecord (text : String) : Record.Value :=
  match readMarkup text with
  | .ok m => .dict [("markup", .text m)]
  | .error message => .dict [("markup", .text ""), ("error", .text message)]

end Walks

end Formula

end Deduction
