import Campaign.Fault
import Campaign.Table

/-!
# Files

A directory tree is its texts by path, with the working directory somewhere in it. A directory is
there when it lies on the way to a text or to the working directory. `Files.nearest?` looks for a
name from the working directory upward, and `Files.place` says where a path leads for writing, or
why nothing can be written there. What lies outside the tree is hardly known.
-/

namespace Campaign

/-- Texts by path below a directory, with the working directory somewhere in it. -/
structure Files where
  texts : Table String String := .empty
  /-- The names on the way to the working directory. -/
  here : List String := []

namespace Files

/-- The names on the way to a path. -/
def parts (path : String) : List String := path.splitOn "/"

/-- The path of some names. -/
def join (names : List String) : String := "/".intercalate names

/-- The text of the nearest file of a name, from a directory upward; the way is given from its
end. -/
def nearestFrom? (files : Files) (name : String) : List String → Option String
  | [] => files.texts.get? name
  | last :: above =>
    (files.texts.get? (join (name :: last :: above).reverse)).or (nearestFrom? files name above)

/-- The text of the nearest file of a name. -/
def nearest? (files : Files) (name : String) : Option String :=
  files.nearestFrom? name files.here.reverse

/-- Whether a directory is there. -/
def hasDirectory (files : Files) (names : List String) : Bool :=
  names.isPrefixOf files.here || files.texts.keys.any fun path =>
    names.isPrefixOf (parts path) && names.length < (parts path).length

/-- Where a walk over directories may begin: in the tree, at the top of all directories, or in a
directory that the tree lies in. -/
inductive Base where
  | tree
  | top
  | over
  deriving DecidableEq, Repr

/-- A place on a walk: the names behind its base, the last first. -/
structure Spot where
  base : Base
  names : List String
  deriving DecidableEq, Repr

/-- The directories that every system has next to the top. -/
def standardDirectories : List String :=
  ["bin", "dev", "etc", "home", "lib", "mnt", "opt", "proc", "root", "run", "sbin", "srv", "sys",
    "tmp", "usr", "var"]

/-- Whether a place is a directory. Of what is not in the tree, only the base itself and the
standard directories are known. -/
def isDirectory (files : Files) (spot : Spot) : Bool :=
  match spot.base, spot.names with
  | .tree, names => files.hasDirectory names.reverse
  | _, [] => true
  | .top, [name] => standardDirectories.contains name
  | _, _ => false

/-- Why a place that should be a directory is none. -/
def noDirectory (files : Files) (path : String) (spot : Spot) : Fault :=
  if spot.base = .tree && files.texts.has (join spot.names.reverse) then .notDirectory path
  else .missingFile path

/-- The place that holds another one. -/
def Spot.above (spot : Spot) : Spot :=
  match spot.base, spot.names with
  | .tree, [] => { base := .over, names := [] }
  | base, names => { base, names := names.tail }

/-- The place of a name in a directory. -/
def Spot.under (spot : Spot) (name : String) : Spot := { spot with names := name :: spot.names }

/-- How many bytes a name may have. -/
def nameLimit : Nat := 255

/-- How many bytes a path may have. -/
def pathLimit : Nat := 4095

/-- The directory that names lead to from another one. -/
def walk (files : Files) (path : String) (spot : Spot) : List String → Except Fault Spot
  | [] => .ok spot
  | "" :: rest | "." :: rest => walk files path spot rest
  | ".." :: rest => walk files path spot.above rest
  | name :: rest =>
    if nameLimit < name.utf8ByteSize then .error (.nameTooLong path)
    else if files.isDirectory (spot.under name) then walk files path (spot.under name) rest
    else .error (files.noDirectory path (spot.under name))

/-- Where a path leads for writing. A path that ends in a slash is one of a directory, be it there
or not. -/
def spot (files : Files) (path : String) : Except Fault Spot := do
  if path.toList.contains (Char.ofNat 0) then throw .nullCharacter
  if path.isEmpty then throw (.missingFile path)
  if pathLimit < path.utf8ByteSize then throw (.nameTooLong path)
  let names := ((parts path).reverse.dropWhile (· = "")).reverse
  let start : Spot := if path.startsWith "/" then { base := .top, names := [] }
    else { base := .tree, names := files.here.reverse }
  let directory ← files.walk path start names.dropLast
  match names.getLast? with
  | none | some "." | some ".." => throw (.isDirectory path)
  | some name =>
    if path.endsWith "/" || files.isDirectory (directory.under name) then throw (.isDirectory path)
    if nameLimit < name.utf8ByteSize then throw (.nameTooLong path)
    return directory.under name

/-- The path in the tree that a path leads to for writing, if it leads into the tree. -/
def place (files : Files) (path : String) : Except Fault (Option String) := do
  let spot ← files.spot path
  return if spot.base = .tree then some (join spot.names.reverse) else none

end Files

end Campaign
