import Campaign.Number
import Campaign.Text.Quoted

/-!
# Values

What a node stores, takes and answers: a `Value` is nothing, a truth value, a number, a text, bytes,
a list, a tuple, or a dictionary with its entries in order of insertion. `Value.written` is the text
of a value inside a message, `Value.shown` its text on its own (a text stands for itself).
-/

namespace Campaign

/-- Data of a node. -/
inductive Value where
  | null
  | bool (b : Bool)
  | int (n : Int)
  | float (x : Float)
  | text (s : String)
  | bytes (data : List UInt8)
  | list (items : List Value)
  | tuple (items : List Value)
  | dict (entries : List (Value × Value))

namespace Value

instance : Inhabited Value := ⟨.null⟩

instance : Coe String Value := ⟨.text⟩

/-- The name of a value's type, as messages give it. -/
def typeName : Value → String
  | .null => "NoneType"
  | .bool _ => "bool"
  | .int _ => "int"
  | .float _ => "float"
  | .text _ => "str"
  | .bytes _ => "bytes"
  | .list _ => "list"
  | .tuple _ => "tuple"
  | .dict _ => "dict"

/-- Nothing, zero and what is empty are false. -/
def truthy : Value → Bool
  | .null => false
  | .bool b => b
  | .int n => n ≠ 0
  | .float x => !(x == 0)
  | .text s => !s.isEmpty
  | .bytes data => !data.isEmpty
  | .list items => !items.isEmpty
  | .tuple items => !items.isEmpty
  | .dict entries => !entries.isEmpty

/-- A truth value counts as 0 or 1. -/
def number? : Value → Option Number
  | .bool b => some (.int (if b then 1 else 0))
  | .int n => some (.int n)
  | .float x => some (.float x)
  | _ => none

/-- A number as a value. -/
def ofNumber : Number → Value
  | .int n => .int n
  | .float x => .float x

/-- A dictionary whose keys are texts. -/
def object (fields : List (String × Value)) : Value := .dict (fields.map fun f => (.text f.1, f.2))

mutual

/-- The text of a value inside a message. -/
def written : Value → String
  | .null => "None"
  | .bool b => if b then "True" else "False"
  | .int n => toString n
  | .float x => Decimal.floatText x
  | .text s => Text.quoted s
  | .bytes data => Text.quotedBytes data
  | .list items => "[" ++ ", ".intercalate (writtenItems items) ++ "]"
  | .tuple [item] => "(" ++ written item ++ ",)"
  | .tuple items => "(" ++ ", ".intercalate (writtenItems items) ++ ")"
  | .dict entries => "\x7b" ++ ", ".intercalate (writtenEntries entries) ++ "\x7d"

def writtenItems : List Value → List String
  | [] => []
  | item :: rest => written item :: writtenItems rest

def writtenEntries : List (Value × Value) → List String
  | [] => []
  | (key, value) :: rest => (written key ++ ": " ++ written value) :: writtenEntries rest

end

/-- The text of a value on its own. -/
def shown : Value → String
  | .text s => s
  | v => v.written

end Value

end Campaign
