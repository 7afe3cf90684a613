import DataAccess.Go.Import

set_option autoImplicit false

/-! # Types as they are written

A type of another package is written as a pointer, unless it is a reference already. A type of this
package and a built-in type are written as they are. -/

namespace DataAccess.Go

/-- A mention of a type. -/
structure TypeRef where
  name : String
  /-- The package the type comes from. -/
  origin : Option Import := none
  /-- Whether the type needs no pointer: an interface, a map, a slice. -/
  reference : Bool := false
  deriving DecidableEq

namespace TypeRef

/-- A built-in type, or a type of this package. -/
def builtin (name : String) : TypeRef := { name }

/-- A type of another package. -/
def external (origin : Import) (name : String) : TypeRef := { name, origin := some origin }

/-- A type of another package that is a reference already. -/
def handle (origin : Import) (name : String) : TypeRef :=
  { name, origin := some origin, reference := true }

/-- The type of all values. -/
def any : TypeRef := builtin "any"

/-- The type of errors. -/
def error : TypeRef := builtin "error"

/-- Whether the type needs no pointer, because it is a reference or is spelled as a pointer. -/
def isReference (t : TypeRef) : Bool := t.reference || t.name.toList.head? == some '*'

/-- The type as Go source. -/
def render (t : TypeRef) : String :=
  if t.origin.isSome && !t.isReference then "*" ++ t.name else t.name

/-- The import the type needs. -/
def imports (t : TypeRef) : List Import := t.origin.toList

end TypeRef

end DataAccess.Go
