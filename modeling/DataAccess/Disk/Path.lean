import DataAccess.Text.Split

set_option autoImplicit false

/-! # Paths

A path is a text of names with slashes between them. `steps` are its names in the order in which
they are followed; what they lead to depends on the disk. -/

namespace DataAccess.Path

/-- The path of an entry inside a directory. -/
def join (base name : String) : String :=
  if base.isEmpty then name
  else if base.toList.getLast? == some '/' then base ++ name
  else base ++ "/" ++ name

/-- The path that leads through several names. -/
def joinAll (base : String) (names : List String) : String := names.foldl join base

/-- The names of a path, with the names for a directory itself and for the one above it. Slashes
that follow each other count as one. -/
def steps (path : String) : List String :=
  ((Text.splitBy (· == '/') path.toList).filter fun name => !name.isEmpty).map String.ofList

/-- Whether a path starts at the root. -/
def isRooted (path : String) : Bool := path.toList.head? == some '/'

/-- Whether a path ends with a slash, so that only a directory can stand at its end. -/
def endsInSlash (path : String) : Bool := path.toList.getLast? == some '/'

/-- The name of a directory inside itself. -/
def here : String := "."

/-- The name of the directory above. -/
def above : String := ".."

/-- The step lists above one that is given from its end: one for every name but `here`, nearest
first. -/
def outer : List String → List (List String)
  | [] => []
  | name :: rest => if name = here then outer rest else (name :: rest).reverse :: outer rest

/-- A step list and those of the directories on its way, nearest first. The name `here` is no
directory of its own. -/
def trail (steps : List String) : List (List String) :=
  steps :: outer ((steps.reverse.dropWhile (· == here)).drop 1)

/-- What follows the last dot of a name that does not start there. -/
def extension? (name : String) : Option String :=
  let reversed := name.toList.reverse
  match reversed.dropWhile (· != '.') with
  | _ :: _ :: _ => some (String.ofList (reversed.takeWhile (· != '.')).reverse)
  | _ => none

end DataAccess.Path
