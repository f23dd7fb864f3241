import Campaign.Fault
import Campaign.Table
import Campaign.Value.Equality

/-!
# Command lines

A grammar lists the options of a command and, perhaps, its subcommands with options of their own.
`Grammar.parse` reads the words of a command line into a table of values.

A word that begins with a hyphen is an option if it names one, in full or by a beginning that fits
no other, perhaps with a value behind `=`. A hyphen alone, a negative number and a word with a blank
in it are plain words, and so is everything after `--`. An option takes no plain word, one, or all
that follow it. The first plain word that no option takes names the subcommand, which gets all the
words behind it. Words that nobody takes are reported at the end, after what is missing.
-/

namespace Campaign

/-- The values read from a command line. -/
abbrev Arguments := Table String Value

/-- What an option takes. -/
inductive Takes where
  | nothing
  | one
  | many
  deriving DecidableEq, Repr

/-- An option. -/
structure Switch where
  /-- The words that name it. -/
  names : List String
  /-- Under which key its value is found. -/
  key : String
  takes : Takes := .one
  /-- Whether its values are whole numbers. -/
  whole : Bool := false
  /-- The values that are allowed, if not all are. -/
  choices : Option (List String) := none
  default : Value := .null
  required : Bool := false
  /-- Whether it asks for help instead. -/
  help : Bool := false

/-- A named set of subcommands. -/
structure Subcommands where
  /-- Under which key the name is found. -/
  key : String
  commands : List (String × List Switch)

/-- What a command line may hold. -/
structure Grammar where
  program : String
  switches : List Switch
  subcommands : Option Subcommands := none

namespace Switch

/-- The option that asks for help. -/
def helpSwitch : Switch := {
  names := ["-h", "--help"], key := "help", takes := .nothing, help := true }

/-- The name in messages. -/
def title (s : Switch) : String := "/".intercalate s.names

/-- A complaint about an option. -/
def complain {α : Type} (s : Switch) (message : String) : Except String α :=
  .error ("argument " ++ s.title ++ ": " ++ message)

/-- A word as a value of an option. -/
def read (s : Switch) (word : String) : Except String Value :=
  if s.whole then
    match Decimal.wholeOfText word with
    | .ok n => .ok (.int n)
    | .error _ => s.complain ("invalid int value: " ++ Text.quoted word)
  else .ok (.text word)

/-- Checks that a value is allowed. -/
def check (s : Switch) (v : Value) : Except String Unit :=
  match s.choices with
  | none => .ok ()
  | some allowed =>
    if allowed.any fun a => v == .text a then .ok ()
    else s.complain ("invalid choice: " ++ v.written ++ " (choose from " ++
      ", ".intercalate (allowed.map Text.quoted) ++ ")")

/-- The value of an option with the words it takes, all read before any is checked. Two hyphens are
no word of it; an option that is left without its one word has an empty list. -/
def value (s : Switch) (words : List String) : Except String Value := do
  let vs ← (words.erase "--").mapM s.read
  vs.forM s.check
  match s.takes, vs with
  | .nothing, _ => return .bool true
  | .one, [v] => return v
  | _, vs => return .list vs

end Switch

namespace Grammar

/-- What a word is for. -/
inductive Mark where
  /-- An option, if there is one of this name, and what the word holds behind the name: a value
  after `=`, or the characters right behind a short name. -/
  | option (found : Option (String × Switch)) (attached : Option String)
  | plain
  /-- Two hyphens. -/
  | rest

/-- The names of all options, with them. -/
def names (switches : List Switch) : List (String × Switch) :=
  switches.flatMap fun s => s.names.map fun n => (n, s)

/-- A word cut at its first `=`. -/
def cut (word : String) : String × Option String :=
  let cs := word.toList
  let head := String.ofList (cs.takeWhile (· ≠ '='))
  match cs.dropWhile (· ≠ '=') with
  | [] => (head, none)
  | _ :: rest => (head, some (String.ofList rest))

/-- The options that a word may stand for by its beginning. -/
def candidates (switches : List Switch) (word : String) : List (String × Switch × Option String) :=
  if word.startsWith "--" then
    let (head, attached) := cut word
    ((names switches).filter fun (n, _) => n.startsWith head).map fun (n, s) => (n, s, attached)
  else
    let cs := word.toList
    let short := String.ofList (cs.take 2)
    (names switches).filterMap fun (n, s) =>
      if n = short then some (n, s, some (String.ofList (cs.drop 2)))
      else if n.startsWith word then some (n, s, none)
      else none

/-- Whether a word is a negative number: digits, or a fraction that begins with a point or digits,
and perhaps a line end. -/
def isNegativeNumber (word : String) : Bool :=
  let isDigit (c : Char) : Bool := (Text.digit? c).isSome
  let cs := word.toList
  let cs := if cs.getLast? = some '\n' then cs.dropLast else cs
  match cs with
  | '-' :: body =>
    match body.dropWhile isDigit with
    | [] => !body.isEmpty
    | '.' :: fraction => !fraction.isEmpty && fraction.all isDigit
    | _ => false
  | _ => false

/-- What a word is for, before any `--`. -/
def mark (switches : List Switch) (word : String) : Except String Mark :=
  if !word.startsWith "-" || word = "-" then .ok .plain
  else
    let known (n : String) : Option (String × Switch) :=
      ((names switches).lookup n).map fun s => (n, s)
    let (head, attached) := cut word
    match known word, known head with
    | some found, _ => .ok (.option (some found) none)
    | none, some found => .ok (.option (some found) attached)
    | none, none =>
      match candidates switches word with
      | [(n, s, attached)] => .ok (.option (some (n, s)) attached)
      | [] =>
        if isNegativeNumber word || word.toList.contains ' ' then .ok .plain
        else .ok (.option none none)
      | several => .error ("ambiguous option: " ++ word ++ " could match " ++
          ", ".intercalate (several.map (·.1)))

/-- Words with what they are for. -/
def marks (switches : List Switch) : List String → Except String (List (String × Mark))
  | [] => .ok []
  | word :: rest =>
    if word = "--" then .ok ((word, .rest) :: rest.map fun w => (w, .plain))
    else do
      let m ← mark switches word
      return (word, m) :: (← marks switches rest)

/-- Whether a word is plain. -/
def isPlain (w : String × Mark) : Bool :=
  match w.2 with
  | .plain => true
  | _ => false

/-- What has been read so far. -/
structure Reading where
  values : Arguments
  /-- The keys of the options that were given. -/
  seen : List String := []
  /-- Words that nobody takes. -/
  extras : List String := []
  /-- The words from the subcommand on. -/
  command : Option (List String) := none

/-- How reading a command line ends early. -/
inductive Stop where
  | complaint (message : String)
  | help

/-- Takes note of an option with the words it takes. -/
def Reading.give (r : Reading) (s : Switch) (words : List String) : Except Stop Reading :=
  if s.help then .error .help
  else
    match s.value words with
    | .error message => .error (.complaint message)
    | .ok v => .ok { r with values := r.values.put s.key v, seen := s.key :: r.seen }

/-- Takes note of options with the words they take, in order. -/
def Reading.giveAll (r : Reading) : List (Switch × List String) → Except Stop Reading
  | [] => .ok r
  | (s, words) :: rest => do (← r.give s words).giveAll rest

/-- The complaint about characters that an option which takes nothing cannot use. -/
def ignored {α : Type} (s : Switch) (tail : List Char) : Except String α :=
  s.complain ("ignored explicit argument " ++ Text.quoted (String.ofList tail))

/-- What one word of options comes to: options with the values they have in it, and perhaps one more
that may take the words after it. -/
structure Cluster where
  given : List (Switch × List String)
  last : Option Switch := none

/-- Reads what is attached to an option. One that takes nothing may stand before others of one
letter in one word. -/
def cluster (switches : List Switch) (s : Switch) (tail : List Char) : Except String Cluster :=
  if s.takes ≠ .nothing then .ok { given := [(s, [String.ofList tail])] }
  else
    match tail with
    | [] => ignored s []
    | c :: rest =>
      match (names switches).lookup (String.ofList ['-', c]), rest with
      | none, _ => ignored s (c :: rest)
      | some next, [] => .ok { given := [(s, [])], last := some next }
      | some next, d :: rest => do
        let found ← cluster switches next (d :: rest)
        return { found with given := (s, []) :: found.given }

/-- What a word for an option comes to on its own; only a short name stands before others. -/
def alone (switches : List Switch) (name : String) (s : Switch) :
    Option String → Except String Cluster
  | none => .ok { given := [], last := some s }
  | some text =>
    if s.takes = .nothing && name.startsWith "--" then ignored s text.toList
    else cluster switches s text.toList

/-- The words after an option that it takes, and the others. -/
def following (s : Switch) (words : List (String × Mark)) :
    Except String (List String × List (String × Mark)) :=
  match s.takes, words with
  | .nothing, words => .ok ([], words)
  | .one, (word, .plain) :: rest => .ok ([word], rest)
  | .one, _ => s.complain "expected one argument"
  | .many, words => .ok ((words.takeWhile isPlain).map (·.1), words.dropWhile isPlain)

theorem length_following {s : Switch} {words : List (String × Mark)}
    {r : List String × List (String × Mark)} (h : following s words = .ok r) :
    r.2.length ≤ words.length := by
  unfold following at h
  split at h
  · cases h
    exact Nat.le_refl _
  · cases h
    exact Nat.le_succ _
  · cases h
  · cases h
    exact (List.dropWhile_sublist _).length_le

/-- Takes note of an option in marked words, with what it takes of them; gives the words left. -/
def Reading.takeOption (r : Reading) (switches : List Switch) (name : String) (s : Switch)
    (attached : Option String) (words : List (String × Mark)) :
    Except Stop (Reading × { rest : List (String × Mark) // rest.length ≤ words.length }) := do
  let c ← (alone switches name s attached).mapError .complaint
  match c.last with
  | none => return (← r.giveAll c.given, ⟨words, Nat.le_refl _⟩)
  | some s =>
    match h : following s words with
    | .error message => throw (.complaint message)
    | .ok (taken, rest) =>
      return (← r.giveAll (c.given ++ [(s, taken)]), ⟨rest, length_following h⟩)

/-- Reads marked words. `wantsCommand` says that a subcommand is still to come. -/
def readMarked (switches : List Switch) (wantsCommand : Bool) (r : Reading)
    (words : List (String × Mark)) : Except Stop Reading :=
  match words with
  | [] => .ok r
  | (word, .option none _) :: rest =>
    readMarked switches wantsCommand { r with extras := r.extras ++ [word] } rest
  | (_, .option (some (name, s)) attached) :: rest => do
    let (r, ⟨left, _⟩) ← r.takeOption switches name s attached rest
    readMarked switches wantsCommand r left
  | (word, .plain) :: rest =>
    if wantsCommand then .ok { r with command := some (word :: rest.map (·.1)) }
    else readMarked switches wantsCommand { r with extras := r.extras ++ [word] } rest
  | (word, .rest) :: rest =>
    if wantsCommand && !rest.isEmpty then .ok { r with command := some (word :: rest.map (·.1)) }
    else readMarked switches wantsCommand { r with extras := r.extras ++ [word] } rest
termination_by words.length
decreasing_by all_goals simp only [List.length_cons]; omega

/-- The values that options have when they are not given. -/
def defaults (switches : List Switch) : Arguments :=
  .ofList ((switches.filter fun s => !s.help).map fun s => (s.key, s.default))

/-- The names of the required options that were not given. -/
def missing (switches : List Switch) (r : Reading) : List String :=
  (switches.filter fun s => s.required && !r.seen.contains s.key).map Switch.title

/-- Reads words by a set of options. -/
def readWords (switches : List Switch) (wantsCommand : Bool) (words : List String) :
    Except Stop Reading := do
  let marked ← (marks switches words).mapError .complaint
  readMarked switches wantsCommand { values := defaults switches } marked

/-- The complaint about what is missing, if anything is. -/
def demand (absent : List String) : Except Stop Unit :=
  if absent.isEmpty then .ok ()
  else .error (.complaint ("the following arguments are required: " ++ ", ".intercalate absent))

/-- How a stop is reported by a program. -/
def report {α : Type} (program : String) : Except Stop α → Except Fault α
  | .ok a => .ok a
  | .error (.complaint message) => .error (.usage (program ++ ": error: " ++ message))
  | .error .help => .error .helpShown

/-- Reads words by a set of options alone. -/
def readAlone (program : String) (switches : List Switch) (words : List String) :
    Except Fault Reading :=
  report program do
    let r ← readWords switches false words
    demand (missing switches r)
    return r

/-- Reads a subcommand with its words into what has been read before it. -/
def readCommand (program : String) (sub : Subcommands) (r : Reading) (words : List String) :
    Except Fault Reading :=
  let name := words.headD ""
  match sub.commands.lookup name with
  | none => report program (.error (.complaint ("argument " ++ sub.key ++ ": invalid choice: " ++
      Text.quoted name ++ " (choose from " ++
      ", ".intercalate (sub.commands.map fun c => Text.quoted c.1) ++ ")")))
  | some switches => do
    let inner ← readAlone (program ++ " " ++ name) (.helpSwitch :: switches) (words.drop 1)
    let values := inner.values.entries.foldl (fun (t : Arguments) e => t.put e.1 e.2)
      (r.values.put sub.key (.text name))
    return { r with values, extras := r.extras ++ inner.extras }

/-- Reads the words of a command line. -/
def parse (g : Grammar) (words : List String) : Except Fault Arguments := do
  let switches := .helpSwitch :: g.switches
  let r ← match g.subcommands with
    | none => readAlone g.program switches words
    | some sub => do
      let r ← report g.program (readWords switches true words)
      match r.command with
      | none =>
        report g.program (demand (missing switches r ++ [sub.key]))
        pure r
      | some words =>
        let r ← readCommand g.program sub r words
        report g.program (demand (missing switches r))
        pure r
  if r.extras.isEmpty then return r.values
  else report g.program (.error (.complaint
    ("unrecognized arguments: " ++ " ".intercalate r.extras)))

end Grammar

end Campaign
