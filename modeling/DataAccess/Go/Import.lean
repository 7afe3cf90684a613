import DataAccess.Ordered
import DataAccess.Text.Layout

set_option autoImplicit false

/-! # Imports

An `Import` names a Go package, possibly under an alias and possibly with the `Dependency` that
provides it. An `ImportSet` holds the imports of a file by path, of several with one path the
first, and all their dependencies; both are kept in order. `ImportSet.block` is the import
declaration. -/

namespace DataAccess.Go

/-- A module that provides packages, with its version. -/
structure Dependency where
  name : String
  version : String
  deriving DecidableEq

/-- Dependencies are ordered by name, then by version. -/
def Dependency.order (a b : Dependency) : Ordering :=
  (compare a.name b.name).then (compare a.version b.version)

/-- A package that is imported. -/
structure Import where
  path : String
  /-- The name the package goes by in the file, if it is not its own. -/
  localName : Option String := none
  dependency : Option Dependency := none
  deriving DecidableEq

namespace Import

/-- Imports are ordered by path. -/
def order (a b : Import) : Ordering := compare a.path b.path

/-- Whether the package belongs to the standard library: nothing else provides it, and the first
part of its path has no dot. -/
def isStandard (i : Import) : Bool :=
  i.dependency.isNone && !(i.path.toList.takeWhile (· != '/')).contains '.'

/-- The import as it stands in an import declaration. -/
def spec (i : Import) : String :=
  let path := "\"" ++ i.path ++ "\""
  match i.localName with
  | some name => name ++ " " ++ path
  | none => path

end Import

/-- The imports of a file. -/
structure ImportSet where
  /-- The imports, in increasing order of their paths. -/
  imports : List Import := []
  /-- The dependencies behind them, in increasing order. -/
  dependencies : List Dependency := []
  deriving DecidableEq

namespace ImportSet

/-- Adds a dependency. -/
def require (s : ImportSet) (d : Dependency) : ImportSet :=
  { s with dependencies := Ordered.insertBy Dependency.order d s.dependencies }

/-- Adds an import, unless its path is there. Its dependency is added in any case. -/
def insert (s : ImportSet) (i : Import) : ImportSet :=
  let s := i.dependency.elim s s.require
  { s with imports := Ordered.insertBy Import.order i s.imports }

/-- Adds several imports one after the other. -/
def insertAll (s : ImportSet) (is : List Import) : ImportSet := is.foldl insert s

/-- The set of several imports. -/
def ofList (is : List Import) : ImportSet := insertAll {} is

/-- Adds everything of another set. -/
def extend (s t : ImportSet) : ImportSet :=
  t.dependencies.foldl require (s.insertAll t.imports)

def size (s : ImportSet) : Nat := s.imports.length

def isEmpty (s : ImportSet) : Bool := s.imports.isEmpty

def paths (s : ImportSet) : List String := s.imports.map Import.path

def contains (s : ImportSet) (path : String) : Bool := s.paths.contains path

/-- The lines of an import declaration: the standard library, then the rest, with an empty line
between them. -/
def specs (s : ImportSet) : String :=
  let (standard, others) := s.imports.partition Import.isStandard
  let groups := [standard, others].filter fun g => !g.isEmpty
  String.intercalate "\n\n" (groups.map fun g => String.intercalate "\n" (g.map Import.spec))

/-- The import declaration; nothing if there are no imports. -/
def block (s : ImportSet) : String :=
  match s.imports with
  | [] => ""
  | [i] => "import " ++ i.spec
  | _ => "import (\n" ++ Text.indent 1 s.specs ++ "\n)"

end ImportSet

end DataAccess.Go
