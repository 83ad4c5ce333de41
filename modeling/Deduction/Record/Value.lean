/-
Values of plain records, as they are exchanged with others: texts, integers and truth values, in
lists and under keys.
-/

namespace Deduction.Record

inductive Value
  | null
  | truth (value : Bool)
  | number (value : Int)
  | text (value : String)
  | list (items : List Value)
  | dict (fields : List (String × Value))
  deriving Inhabited

/-- Why a value is not the record that it should be. -/
inductive ShapeFault
  | missing (key : String)
  | illTyped (key : String)
  deriving DecidableEq

namespace Value

def get? (key : String) : Value → Option Value
  | dict fields => fields.lookup key
  | _ => none

def asText? : Value → Option String
  | text s => some s
  | _ => none

def asNumber? : Value → Option Int
  | number n => some n
  | _ => none

def asTruth? : Value → Option Bool
  | truth b => some b
  | _ => none

def asList? : Value → Option (List Value)
  | list items => some items
  | _ => none

def asTexts? (v : Value) : Option (List String) :=
  v.asList?.bind (·.mapM asText?)

def asNumbers? (v : Value) : Option (List Int) :=
  v.asList?.bind (·.mapM asNumber?)

/-- What counts as true: all but null, false, zero and what is empty. -/
def holds : Value → Bool
  | null => false
  | truth b => b
  | number n => n ≠ 0
  | text s => !s.isEmpty
  | list items => !items.isEmpty
  | dict fields => !fields.isEmpty

/-- What stands under a key that a record must have. -/
def required {α : Type} (key : String) (as? : Value → Option α) (v : Value) :
    Except ShapeFault α :=
  match v.get? key with
  | none => .error (.missing key)
  | some w => match as? w with
    | some a => .ok a
    | none => .error (.illTyped key)

/-- What stands under a key that a record may have, or what it means to have none. -/
def optional {α : Type} (key : String) (as? : Value → Option α) (absent : α) (v : Value) :
    Except ShapeFault α :=
  match v.get? key with
  | none => .ok absent
  | some w => match as? w with
    | some a => .ok a
    | none => .error (.illTyped key)

end Value

end Deduction.Record
