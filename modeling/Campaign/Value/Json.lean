import Campaign.Fault
import Campaign.Text.Hex
import Campaign.Value.Equality

/-!
# Values as JSON text

One item a line, two blanks deeper on each level; dictionaries keep their order. All characters
outside printable ASCII are escaped, those beyond four hexadecimal digits by a pair. Keys become
texts. Bytes have no form of their own: in `text` they stand as the text they are shown by, and
`strictText` refuses them.
-/

namespace Campaign.Value.Json

/-- A UTF-16 unit by its number. -/
def unit (n : Nat) : List Char := '\\' :: 'u' :: Text.Hex.padded 4 n

/-- A character inside a string. -/
def escaped (c : Char) : List Char :=
  let n := c.toNat
  if n = 34 || n = 92 then ['\\', c]
  else if n = 10 then ['\\', 'n']
  else if n = 13 then ['\\', 'r']
  else if n = 9 then ['\\', 't']
  else if n = 12 then ['\\', 'f']
  else if n = 8 then ['\\', 'b']
  else if 32 ≤ n && n < 127 then [c]
  else if n < 0x10000 then unit n
  else unit (0xd800 + (n - 0x10000) / 0x400) ++ unit (0xdc00 + (n - 0x10000) % 0x400)

/-- A text as a string. -/
def string (s : String) : String :=
  String.ofList (Char.ofNat 34 :: s.toList.flatMap escaped ++ [Char.ofNat 34])

/-- A float, with the words for what is not finite. -/
def float (x : Float) : String :=
  match Decimal.floatText x with
  | "nan" => "NaN"
  | "inf" => "Infinity"
  | "-inf" => "-Infinity"
  | digits => digits

/-- A key as a text. -/
def key : Value → Except Fault String
  | .text s => .ok s
  | .float x => .ok (float x)
  | .bool b => .ok (if b then "true" else "false")
  | .null => .ok "null"
  | .int n => .ok (toString n)
  | v => .error (.notKey v.typeName)

/-- A new line on a level. -/
def newline (level : Nat) : String := String.ofList ('\n' :: List.replicate (2 * level) ' ')

/-- Parts between brackets, one a line. -/
def block (left right : String) (level : Nat) (parts : List String) : String :=
  if parts.isEmpty then left ++ right
  else left ++ newline (level + 1) ++ ("," ++ newline (level + 1)).intercalate parts ++
    newline level ++ right

section

variable (bytesText : List UInt8 → Except Fault String)

mutual

/-- A value on a level, with `bytesText` for the form of bytes. -/
def render (level : Nat) : Value → Except Fault String
  | .null => .ok "null"
  | .bool b => .ok (if b then "true" else "false")
  | .int n => .ok (toString n)
  | .float x => .ok (float x)
  | .text s => .ok (string s)
  | .bytes data => bytesText data
  | .list items => (renderItems (level + 1) items).map (block "[" "]" level)
  | .tuple items => (renderItems (level + 1) items).map (block "[" "]" level)
  | .dict entries => (renderEntries (level + 1) entries).map (block "\x7b" "\x7d" level)

def renderItems (level : Nat) : List Value → Except Fault (List String)
  | [] => .ok []
  | v :: rest => do
    let head ← render level v
    return head :: (← renderItems level rest)

def renderEntries (level : Nat) : List (Value × Value) → Except Fault (List String)
  | [] => .ok []
  | (k, v) :: rest => do
    let name ← key k
    let body ← render level v
    return (string name ++ ": " ++ body) :: (← renderEntries level rest)

end

end

/-- The JSON text of a value. -/
def text (v : Value) : Except Fault String :=
  render (fun data => .ok (string (Value.bytes data).shown)) 0 v

/-- The JSON text of a value without bytes. -/
def strictText (v : Value) : Except Fault String :=
  render (fun data => .error (.notJson (Value.bytes data).typeName)) 0 v

end Campaign.Value.Json
