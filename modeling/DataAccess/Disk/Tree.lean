import DataAccess.Ordered

set_option autoImplicit false

/-! # File trees

A `Tree` is a file or a directory with named entries. `get?` tells what stands at a place,
`listing` and `files` tell everything a tree holds, and `graft` puts a tree at a place. -/

namespace DataAccess

/-- A place in a tree: the names that lead to it. -/
abbrev Place := List String

/-- A file or a directory. -/
inductive Tree where
  /-- A file with its text, or with bytes that are no text. -/
  | file (text : Option String)
  /-- A directory. Entries have different names and no order that matters. -/
  | dir (entries : List (String × Tree))
  deriving Inhabited

namespace Tree

/-! ## Reading -/

def isDirectory : Tree → Bool
  | .dir _ => true
  | .file _ => false

/-- What stands at a place. -/
def get? : Tree → Place → Option Tree
  | t, [] => some t
  | .file _, _ :: _ => none
  | .dir entries, name :: place => match entries.lookup name with
    | some t => t.get? place
    | none => none

theorem get?_cons_dir (entries : List (String × Tree)) (name : String) (place : Place) :
    (dir entries).get? (name :: place) = (entries.lookup name).bind fun t => t.get? place := by
  rw [get?]
  cases entries.lookup name <;> rfl

/-- The content of the file at a place. -/
def text? (t : Tree) (place : Place) : Option (Option String) :=
  match t.get? place with
  | some (.file text) => some text
  | _ => none

/-- A file with its place. -/
structure File where
  path : Place
  text : Option String
  deriving DecidableEq

/-- A directory or a file, with its place. -/
inductive Entry where
  | directory (path : Place)
  | file (f : File)
  deriving DecidableEq

namespace Entry

def path : Entry → Place
  | .directory path => path
  | .file f => f.path

def file? : Entry → Option File
  | .directory _ => none
  | .file f => some f

/-- The entry as seen from the directory above. -/
def below (name : String) : Entry → Entry
  | .directory path => .directory (name :: path)
  | .file f => .file { f with path := name :: f.path }

end Entry

mutual

/-- Everything in a tree, itself first. In a directory the entries follow each other by name, and a
directory is followed by what it holds. -/
def listing : Tree → List Entry
  | .file text => [.file ⟨[], text⟩]
  | .dir entries =>
    .directory [] ::
      (Ordered.ofListBy (fun a b => compare a.1 b.1) (listings entries)).flatMap
        fun e => e.2.map (Entry.below e.1)

/-- The listing of every entry, beside its name. -/
def listings : List (String × Tree) → List (String × List Entry)
  | [] => []
  | (name, t) :: entries => (name, t.listing) :: listings entries

end

/-- Every file of a tree, in the order of the listing. -/
def files (t : Tree) : List File := t.listing.filterMap Entry.file?

/-! ## Changing -/

/-- The entries with one replaced or added. -/
def setEntry (name : String) (t : Tree) : List (String × Tree) → List (String × Tree)
  | [] => [(name, t)]
  | (key, old) :: rest => if key = name then (key, t) :: rest else (key, old) :: setEntry name t rest

/-- The tree with another one put at a place, whatever is there. -/
def graft (t : Tree) : Place → Tree → Tree
  | [], _ => t
  | name :: place, .file _ => .dir [(name, graft t place (.dir []))]
  | name :: place, .dir entries =>
    .dir (setEntry name (graft t place ((entries.lookup name).getD (.dir []))) entries)

end Tree

end DataAccess
