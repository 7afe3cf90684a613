import DataAccess.Model.Access
import DataAccess.Naming

set_option autoImplicit false

/-! # Models

A model names a table, lists its attributes by id and declares its access methods. -/

namespace DataAccess

/-- A model description. -/
structure Model where
  name : String
  /-- The schema that qualifies the table. -/
  schema : Option String := none
  /-- Attribute ids in column order. -/
  attributes : List String := []
  /-- Declared indexes, each a list of attribute ids. -/
  indexes : List (List String) := []
  access : Access := {}
  deriving Inhabited

/-- The table name, without its schema. -/
def Model.tableName (m : Model) : String := Naming.snake m.name

end DataAccess
