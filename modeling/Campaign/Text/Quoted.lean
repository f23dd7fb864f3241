import Campaign.Text.Hex
import Campaign.Text.Printable

/-!
# Quoted text

Messages show a text between quotation marks: apostrophes, unless the text holds an apostrophe and
no double quotation mark. The mark in use, the backslash and the three common controls are escaped
by a backslash; what is not printable is written by its number. Bytes are shown the same way after
a `b`, every byte outside printable ASCII by its number.
-/

namespace Campaign.Text

/-- The apostrophe. -/
def apostrophe : Char := Char.ofNat 39

/-- The double quotation mark. -/
def quotation : Char := Char.ofNat 34

/-- The mark to put around a text. -/
def quoteMark (cs : List Char) : Char :=
  if cs.contains apostrophe && !cs.contains quotation then quotation else apostrophe

/-- A character by its number, in the shortest of three widths. -/
def numbered (c : Char) : List Char :=
  let n := c.toNat
  if n < 256 then '\\' :: 'x' :: Hex.padded 2 n
  else if n < 65536 then '\\' :: 'u' :: Hex.padded 4 n
  else '\\' :: 'U' :: Hex.padded 8 n

/-- A character between the given marks. -/
def escaped (mark c : Char) : List Char :=
  if c = mark || c = '\\' then ['\\', c]
  else if c = '\n' then ['\\', 'n']
  else if c = '\r' then ['\\', 'r']
  else if c = '\t' then ['\\', 't']
  else if isPrintable c then [c]
  else numbered c

/-- The text between quotation marks. -/
def quoted (s : String) : String :=
  let mark := quoteMark s.toList
  String.ofList (mark :: s.toList.flatMap (escaped mark) ++ [mark])

/-- Bytes between quotation marks. -/
def quotedBytes (bytes : List UInt8) : String :=
  let cs := bytes.map fun b => Char.ofNat b.toNat
  let mark := quoteMark cs
  let show1 (c : Char) : List Char := if c.toNat < 127 then escaped mark c else numbered c
  String.ofList ('b' :: mark :: cs.flatMap show1 ++ [mark])

end Campaign.Text
