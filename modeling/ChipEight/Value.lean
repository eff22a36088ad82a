import ChipEight.Text.Decimal
import ChipEight.Text.Quoted

/-!
Values of any kind, as they come from outside the machine. `shown` writes a value for a reader;
`quoted` writes it so that a text can be told from what it spells, and is how the parts of a list or
a record are written.
-/

namespace ChipEight

/-- The kinds of value that are no integer. -/
inductive ValueKind where
  | text | real | nothing | list | record
  deriving DecidableEq, Repr

/-- How a kind of value is called in messages. -/
def ValueKind.label : ValueKind → String
  | text => "str"
  | real => "float"
  | nothing => "NoneType"
  | list => "list"
  | record => "dict"

/-- A value; a record has named fields. -/
inductive Value where
  | nothing
  | flag (b : Bool)
  | integer (v : Int)
  | real (d : Decimal)
  | text (s : String)
  | list (values : List Value)
  | record (fields : List (String × Value))
  deriving Inhabited, Repr

namespace Value

/-- A value as an integer, a flag counting as one or zero, or else what kind it is. -/
def toInt : Value → Except ValueKind Int
  | integer v => .ok v
  | flag b => .ok b.toInt
  | nothing => .error .nothing
  | real _ => .error .real
  | text _ => .error .text
  | list _ => .error .list
  | record _ => .error .record

/-- Parts between brackets. -/
def enclosed (opening closing : String) (parts : List String) : String :=
  opening ++ ", ".intercalate parts ++ closing

mutual

/-- The value with texts in quotes. -/
def quoted : Value → String
  | nothing => "None"
  | flag b => if b then "True" else "False"
  | integer v => toString v
  | real d => d.text
  | text s => Quoted.literal s
  | list values => enclosed "[" "]" (quotedAll values)
  | record fields => enclosed "\x7b" "\x7d" (quotedFields fields)

/-- Values with texts in quotes. -/
def quotedAll : List Value → List String
  | [] => []
  | v :: rest => v.quoted :: quotedAll rest

/-- Fields with their names and texts in quotes. -/
def quotedFields : List (String × Value) → List String
  | [] => []
  | (name, v) :: rest => (Quoted.literal name ++ ": " ++ v.quoted) :: quotedFields rest

end

/-- The value as a reader sees it: a text by itself stands without quotes. -/
def shown : Value → String
  | text s => s
  | v => v.quoted

/-- Values in a row: one stands by itself, several are quoted between brackets. -/
def row : List Value → String
  | [] => ""
  | [v] => v.shown
  | several => enclosed "(" ")" (quotedAll several)

end Value

end ChipEight
