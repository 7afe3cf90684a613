import DataAccess.Disk.Basic

set_option autoImplicit false

/-! # Changing a disk

`makeDirectories` makes a directory and those on the way to it, `write` puts a text into a file.
What stands in the way of either is a `Failure`. -/

namespace DataAccess.Disk

/-- The disk with a tree put at a place. -/
def graft (d : Disk) (t : Tree) (place : Place) : Disk := { d with root := Tree.graft t place d.root }

/-! ## Directories -/

/-- Whether the names lead to a directory. -/
def leadsToDirectory (d : Disk) (place : Place) (names : List String) : Bool :=
  match d.follow place names with
  | .ok place => (d.root.get? place).any Tree.isDirectory
  | .error _ => false

/-- Makes the directory that the names lead to. Only the last one may be missing. -/
def makeDirectory (d : Disk) (place : Place) (names : List String) : Except Failure Disk :=
  match names.getLast? with
  | none => .error .occupied
  | some name => do
    let parent ← d.follow place names.dropLast
    match d.step parent name with
    | .ok _ => .error .occupied
    | .error .missing => .ok (d.graft (.dir []) (parent ++ [name]))
    | .error e => .error e

/-- What is left to say about a directory after an attempt to make it: it may be there already. -/
def settle (d : Disk) (place : Place) (names : List String) :
    Except Failure Disk → Except Failure Unit × Disk
  | .ok d => (.ok (), d)
  | .error .occupied => (if d.leadsToDirectory place names then .ok () else .error .occupied, d)
  | .error e => (.error e, d)

/-- Makes the first directory of a trail. Where the way to it is missing, the rest of the trail is
made before it. The disk comes back as it is left. -/
def makeTrail (d : Disk) (place : Place) : List (List String) → Except Failure Unit × Disk
  | [] => (.ok (), d)
  | names :: rest =>
    match d.makeDirectory place names with
    | .error .missing =>
      match d.makeTrail place rest with
      | (.ok (), d) => d.settle place names (d.makeDirectory place names)
      | (.error e, d) => (.error e, d)
    | attempt => d.settle place names attempt

/-- Makes the directory at a path and those on the way to it. The empty path needs none. -/
def makeDirectories (d : Disk) (path : String) : Except Failure Unit × Disk :=
  if path.isEmpty then (.ok (), d)
  else match checkPath path with
    | .error e => (.error e, d)
    | .ok () => d.makeTrail (d.start path) (Path.trail (Path.steps path))

/-! ## Files -/

/-- Puts a text into the file at a path. The file is made if its directory is there. -/
def write (d : Disk) (path : String) (text : Option String) : Except Failure Disk := do
  checkPath path
  let names := Path.steps path
  let parent ← d.follow (d.start path) names.dropLast
  if Path.endsInSlash path then throw .isDirectory
  let name := names.getLast?.getD Path.here
  match d.step parent name with
  | .error .missing => return d.graft (.file text) (parent ++ [name])
  | .error e => throw e
  | .ok place => match d.root.get? place with
    | some (.file _) => return d.graft (.file text) place
    | _ => throw .isDirectory

end DataAccess.Disk
