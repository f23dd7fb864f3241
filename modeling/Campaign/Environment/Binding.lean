import Campaign.Table
import Campaign.Text.Blank
import Campaign.Text.Quoted

/-!
# Binding files

A binding file gives names to texts, one binding a line: `NAME=value`, perhaps after `export`. A
name may stand in apostrophes and a value in quotation marks of either kind, which may span lines
and in which a backslash escapes. What follows a blank and `#` is a comment. A name without `=` has
no value. A line that is none of this is passed over from where it goes wrong.

`bindings` reads all bindings of a text in order. Each reader below takes the characters that are
left and gives the rest; it fails with the characters from where it went wrong.
-/

namespace Campaign.Environment

open Text

/-- A name with its value, if it has one. -/
structure Binding where
  name : String
  value : Option String
  deriving DecidableEq, Repr

namespace Binding

/-- A result with the characters after it, or the place where reading failed. -/
abbrev Reader (α : Type) := List Char → Except (List Char) (α × List Char)

/-- Line ends of any system as line feeds. -/
def normalLines : List Char → List Char
  | [] => []
  | '\r' :: '\n' :: rest => '\n' :: normalLines rest
  | '\r' :: rest => '\n' :: normalLines rest
  | c :: rest => c :: normalLines rest

/-- A blank inside a line. -/
def isGap (c : Char) : Bool := isBlank c && c != '\n'

/-- Drops the word `export` and the blanks behind it, if there are any. -/
def dropExport (cs : List Char) : List Char :=
  let rest := cs.drop 6
  if cs.take 6 = "export".toList && (rest.head?.map isGap).getD false then rest.dropWhile isGap
  else cs

/-- The name at the head; a comment has none. -/
def readName : Reader (Option String) := fun cs =>
  match cs with
  | '#' :: _ => .ok (none, cs)
  | c :: rest =>
    if c = apostrophe then
      let inner := rest.takeWhile (· ≠ apostrophe)
      match inner, rest.dropWhile (· ≠ apostrophe) with
      | _ :: _, _ :: rest => .ok (some (String.ofList inner), rest)
      | _, _ => .error cs
    else
      let isPart (c : Char) : Bool := c ≠ '=' && c ≠ '#' && !isBlank c
      match cs.takeWhile isPart with
      | [] => .error cs
      | part => .ok (some (String.ofList part), cs.dropWhile isPart)
  | [] => .error []

/-- The characters before the closing mark, and the rest. The character behind a backslash is taken
together with it, so it neither closes nor escapes. -/
def closing? (mark : Char) : List Char → Option (List Char × List Char)
  | [] => none
  | [c] => if c = mark then some ([], []) else none
  | c :: d :: rest =>
    if c = mark then some ([], d :: rest)
    else if c = '\\' then (closing? mark rest).map fun (inner, after) => (c :: d :: inner, after)
    else (closing? mark (d :: rest)).map fun (inner, after) => (c :: inner, after)

/-- The character that a backslash and a letter stand for between apostrophes. -/
def plainEscape? (c : Char) : Option Char :=
  if c = '\\' || c = apostrophe then some c else none

/-- The character that a backslash and a letter stand for between double quotation marks. -/
def fullEscape? (c : Char) : Option Char :=
  if c = '\\' || c = apostrophe || c = quotation then some c
  else match c with
    | 'a' => some (Char.ofNat 7)
    | 'b' => some (Char.ofNat 8)
    | 'f' => some (Char.ofNat 12)
    | 'n' => some '\n'
    | 'r' => some '\r'
    | 't' => some '\t'
    | 'v' => some (Char.ofNat 11)
    | _ => none

/-- Characters with their escapes resolved; a backslash before any other character stays. -/
def unescape (escape? : Char → Option Char) : List Char → List Char
  | [] => []
  | [c] => [c]
  | c :: d :: rest =>
    match if c = '\\' then escape? d else none with
    | some e => e :: unescape escape? rest
    | none => c :: unescape escape? (d :: rest)

/-- The characters before the first comment: blanks with a `#` behind them. -/
def beforeComment : List Char → List Char
  | [] => []
  | c :: rest =>
    if isBlank c && (rest.dropWhile isBlank).head? = some '#' then [] else c :: beforeComment rest

/-- The value at the head. -/
def readValue : Reader String := fun cs =>
  match cs with
  | [] => .ok ("", [])
  | c :: rest =>
    let quotedValue (escape? : Char → Option Char) : Except (List Char) (String × List Char) :=
      match closing? c rest with
      | some (inner, rest) => .ok (String.ofList (unescape escape? inner), rest)
      | none => .error cs
    if c = apostrophe then quotedValue plainEscape?
    else if c = quotation then quotedValue fullEscape?
    else
      let line := cs.takeWhile (· ≠ '\n')
      .ok (String.ofList (dropEnd isBlank (beforeComment line)), cs.dropWhile (· ≠ '\n'))

/-- Drops a comment, with the blanks in front of it. -/
def dropComment (cs : List Char) : List Char :=
  match cs.dropWhile isGap with
  | '#' :: rest => rest.dropWhile (· ≠ '\n')
  | _ => cs

/-- The value behind `=`, which may be nothing but a comment behind a blank. -/
def readSetting : Reader String := fun cs =>
  let rest := cs.dropWhile isGap
  if (cs.head?.map isGap).getD false && rest.head? = some '#' then .ok ("", rest)
  else readValue rest

/-- The end of the line. -/
def readLineEnd : Reader Unit := fun cs =>
  match cs.dropWhile isGap with
  | [] => .ok ((), [])
  | '\n' :: rest => .ok ((), rest)
  | _ => .error cs

/-- One binding, at its first character. -/
def readLine : Reader (Option Binding) := fun cs => do
  let (name, cs) ← readName (dropExport cs)
  let (value, cs) ←
    match cs.dropWhile isGap with
    | '=' :: rest => (readSetting rest).map fun (v, rest) => (some v, rest)
    | rest => .ok (none, rest)
  let ((), cs) ← readLineEnd (dropComment cs)
  return (name.map fun n => ⟨n, value⟩, cs)

/-- What is left after the end of the line. -/
def nextLine (cs : List Char) : List Char := (cs.dropWhile (· ≠ '\n')).drop 1

/-- The bindings of what is left of a text. -/
def readAll (cs : List Char) : List Binding :=
  match cs.dropWhile isBlank with
  | [] => []
  | c :: rest =>
    let (found, left) :=
      match readLine (c :: rest) with
      | .ok (found, left) => (found, left)
      | .error place => (none, nextLine place)
    if left.length < cs.length then found.toList ++ readAll left else found.toList
termination_by cs.length

end Binding

/-- The bindings of a text; a byte order mark at its head is no part of it. -/
def bindings (text : String) : List Binding :=
  let cs := text.toList
  let cs := if cs.head? = some (Char.ofNat 0xfeff) then cs.drop 1 else cs
  Binding.readAll (Binding.normalLines cs)

end Campaign.Environment
