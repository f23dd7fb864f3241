/-!
# References

A text may refer to a variable as `${NAME}`, or as `${NAME:-text}` with a text to stand in when the
variable is absent. `resolve` puts the values in; a variable that is absent and has no such text
leaves nothing.
-/

namespace Campaign.Environment.Reference

/-- A reference behind its opening mark: name, text to stand in, and the rest. -/
def closing? (cs : List Char) : Option (String × String × List Char) :=
  let isName (c : Char) : Bool := c ≠ '\x7d' && c ≠ ':'
  let name := String.ofList (cs.takeWhile isName)
  match cs.dropWhile isName with
  | ':' :: '-' :: rest =>
    match rest.dropWhile (· ≠ '\x7d') with
    | _ :: after => some (name, String.ofList (rest.takeWhile (· ≠ '\x7d')), after)
    | [] => none
  | '\x7d' :: after => some (name, "", after)
  | _ => none

/-- Characters with the values of variables in place of references. -/
def resolveChars (get? : String → Option String) (cs : List Char) : List Char :=
  match cs with
  | [] => []
  | '$' :: '\x7b' :: rest =>
    match closing? rest with
    | some (name, standIn, after) =>
      if after.length < rest.length then
        ((get? name).getD standIn).toList ++ resolveChars get? after
      else []
    | none => '$' :: resolveChars get? ('\x7b' :: rest)
  | c :: rest => c :: resolveChars get? rest
termination_by cs.length
decreasing_by all_goals simp_all <;> omega

/-- The variables that characters refer to. -/
def names : List Char → List String
  | [] => []
  | '$' :: '\x7b' :: rest =>
    match closing? rest with
    | some (name, _, _) => name :: names rest
    | none => names rest
  | _ :: rest => names rest

/-- A text with the values of variables in place of references. -/
def resolve (get? : String → Option String) (text : String) : String :=
  String.ofList (resolveChars get? text.toList)

end Campaign.Environment.Reference
