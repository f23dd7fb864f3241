import Campaign.Environment.Binding
import Campaign.Environment.Reference
import Campaign.Files

/-!
# Loading a binding file

An environment is a table of variables. `load` adds to it the bindings of the nearest binding file,
looked for in the working directory and then in the directories above. A variable that is there
keeps its value, be it empty; a name without a value adds nothing. A text may refer to what is in
the environment and to the bindings before it, the environment first.

A binding that the system cannot hold ends the loading; the ones before it have been added.
-/

namespace Campaign

/-- Variables with their texts. -/
abbrev Environment := Table String String

namespace Environment

/-- Bindings as variables: references resolved in order, of equal names the last value. A name
without a value is empty where a text refers to it. -/
def resolveAll (env : Environment) (bs : List Binding) : Table String (Option String) :=
  bs.foldl (fun (seen : Table String (Option String)) b =>
    let get? (name : String) : Option String :=
      (env.get? name).or ((seen.get? name).map (·.getD ""))
    seen.put b.name (b.value.map (Reference.resolve get?))) .empty

/-- Why the system cannot hold a variable. -/
def refusal? (name value : String) : Option Fault :=
  let nul := Char.ofNat 0
  if name.toList.contains nul || value.toList.contains nul then some .nullCharacter
  else if name.toList.contains '=' then some .badVariableName
  else none

/-- The environment with the variables it lacked, up to one that cannot be held. -/
def addAll (env : Environment) : List (String × Option String) → Environment × Option Fault
  | [] => (env, none)
  | (_, none) :: rest => addAll env rest
  | (name, some value) :: rest =>
    if env.has name then addAll env rest
    else
      match refusal? name value with
      | some fault => (env, some fault)
      | none => addAll (env.put name value) rest

/-- The variable that switches loading off. -/
def switch : String := "PYTHON_DOTENV_DISABLED"

/-- A character with case folded away, as far as the words that follow need it. -/
def fold (c : Char) : Char := if c.toNat = 0x17f then 's' else c.toLower

/-- Whether loading is switched off. -/
def isOff (env : Environment) : Bool :=
  match env.get? switch with
  | none => false
  | some word => ["1", "true", "t", "yes", "y"].contains (String.ofList (word.toList.map fold))

/-- The environment with the nearest binding file loaded, and what ended the loading early. -/
def load (env : Environment) (files : Files) : Environment × Option Fault :=
  if env.isOff then (env, none)
  else
    match files.nearest? ".env" with
    | none => (env, none)
    | some text => env.addAll (env.resolveAll (bindings text)).entries

end Environment

end Campaign
