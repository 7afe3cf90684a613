import DataAccess.Go.TypeRef
import DataAccess.Model.Attribute

set_option autoImplicit false

/-! # Go types of the generated code

The types of the standard library and of the database driver interface that generated functions
take, and the type of a column (`columnType`). -/

namespace DataAccess.Generation

open Go (Dependency Import TypeRef)

/-- The package that makes primary keys, with the module that provides it. -/
def uuidImport : Import :=
  let path := "github.com/google/uuid"
  { path, dependency := some { name := path, version := "v1.6.0" } }

/-- The import a generator function needs, told by its qualifier. -/
def generatorImport (function : String) : Option Import :=
  if "uuid.".toList.isPrefixOf function.toList then some uuidImport else none

def contextType : TypeRef := .handle { path := "context" } "context.Context"

def databaseType : TypeRef := .external { path := "database/sql" } "sql.DB"

/-- The prepared statements by method name. -/
def statementMapType : TypeRef := .handle { path := "database/sql" } "map[string]*sql.Stmt"

def timeType : TypeRef := .external { path := "time" } "time.Time"

def jsonType : TypeRef := .handle { path := "encoding/json" } "json.RawMessage"

/-- The type of a column that is a plain value; an optional one is a pointer, so that a missing
value can be told. -/
def scalarType (required : Bool) (name : String) : TypeRef :=
  .builtin (if required then name else "*" ++ name)

/-- The Go type of a column. -/
def columnType (a : Attribute) : TypeRef :=
  match a.type with
  | .text => scalarType a.isRequired "string"
  | .uuid => scalarType a.isRequired "string"
  | .int => scalarType a.isRequired "int32"
  | .bigint => scalarType a.isRequired "int64"
  | .float => scalarType a.isRequired "float64"
  | .bool => scalarType a.isRequired "bool"
  | .timestamp => timeType
  | .json => jsonType

end DataAccess.Generation
