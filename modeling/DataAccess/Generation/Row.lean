import DataAccess.Generation.Types
import DataAccess.Go.Declaration
import DataAccess.Sql.Identifier
import DataAccess.Validation.Resolution

set_option autoImplicit false

/-! # Rows

The struct that holds one row of a model (`rowStruct`): a field for every fixed column, then one
for every attribute. Each field is tagged with its column. -/

namespace DataAccess.Generation

open Go (Field Struct TypeRef)

/-- The columns of a table in order. -/
def allColumns (r : Resolved) : List String := Sql.fixedColumns ++ r.columns.map Attribute.name

/-- The tag of a field that holds a column. -/
def columnTag (column : String) : String := "db:\"" ++ column ++ "\""

/-- The field that holds a column. -/
def columnField (column : String) (type : TypeRef) : Field :=
  { name := Go.exported column, type, tag := some (columnTag column) }

/-- The fields of the fixed columns. -/
def fixedFields : List Field :=
  [{ name := "ID", type := .builtin "string", tag := some (columnTag Sql.idColumn) },
   { name := "Version", type := .builtin "int64", tag := some (columnTag Sql.versionColumn) },
   { name := "UpdatedAt", type := timeType, tag := some (columnTag Sql.updatedAtColumn) }]

/-- The struct of a row. -/
def rowStruct (r : Resolved) : Struct :=
  let name := Go.exported r.name
  { name
    doc := [name ++ " is one row of the " ++ r.model.tableName ++ " table."]
    fields := fixedFields ++ r.columns.map fun a => columnField a.name (columnType a) }

end DataAccess.Generation
