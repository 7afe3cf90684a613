import DataAccess.Disk.Path
import DataAccess.Disk.Tree

set_option autoImplicit false

/-! # Disks

A `Disk` is a tree with a working directory. A path is followed name by name (`step`), so every
directory on its way has to be there, also one that the next name leaves again. `locate` yields the
place at the end of a path, or the reason why there is none. -/

namespace DataAccess

/-- A file tree with the place where paths start that are not rooted. -/
structure Disk where
  root : Tree := .dir []
  home : Place := []
  deriving Inhabited

namespace Disk

/-- Why something cannot be done with a path. -/
inductive Failure where
  | missing
  | occupied
  | notDirectory
  | isDirectory
  | nameTooLong
  | nullCharacter
  deriving DecidableEq

/-- The wording of a failure. -/
def Failure.message : Failure → String
  | .missing => "No such file or directory (os error 2)"
  | .occupied => "File exists (os error 17)"
  | .notDirectory => "Not a directory (os error 20)"
  | .isDirectory => "Is a directory (os error 21)"
  | .nameTooLong => "File name too long (os error 36)"
  | .nullCharacter => "file name contained an unexpected NUL byte"

/-! ## Limits -/

/-- The largest number of bytes of a name. -/
def maxNameSize : Nat := 255

/-- The largest number of bytes of a path. -/
def maxPathSize : Nat := 4095

/-- Refuses a text that is no path on any disk. -/
def checkPath (path : String) : Except Failure Unit :=
  if path.toList.contains '\x00' then .error .nullCharacter
  else if maxPathSize < path.utf8ByteSize then .error .nameTooLong
  else if path.isEmpty then .error .missing
  else .ok ()

/-! ## Following a path -/

/-- The place one name leads to from a place. Above the root there is the root itself. -/
def step (d : Disk) (place : Place) (name : String) : Except Failure Place :=
  match d.root.get? place with
  | some (.dir entries) =>
    if name = Path.here then .ok place
    else if name = Path.above then .ok place.dropLast
    else if maxNameSize < name.utf8ByteSize then .error .nameTooLong
    else if (entries.lookup name).isSome then .ok (place ++ [name])
    else .error .missing
  | some (.file _) => .error .notDirectory
  | none => .error .missing

/-- The place several names lead to. -/
def follow (d : Disk) (place : Place) (names : List String) : Except Failure Place :=
  names.foldlM d.step place

/-- The place where a path starts. -/
def start (d : Disk) (path : String) : Place := if Path.isRooted path then [] else d.home

/-- The place at the end of a path. A slash at the end stands for the directory itself. -/
def locate (d : Disk) (path : String) : Except Failure Place := do
  checkPath path
  let names := Path.steps path
  d.follow (d.start path) (if Path.endsInSlash path then names ++ [Path.here] else names)

/-- What stands at the end of a path. -/
def find? (d : Disk) (path : String) : Option Tree :=
  match d.locate path with
  | .ok place => d.root.get? place
  | .error _ => none

end Disk

end DataAccess
