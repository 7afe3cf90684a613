import DataAccess.Unicode.CaseMap

set_option autoImplicit false

/-! # Attributes

An attribute has an id by which models refer to it, a column name, a storage type and the names of
its validations. -/

namespace DataAccess

/-- What a column stores, whatever the SQL dialect. -/
inductive StorageType where
  | text
  | int
  | bigint
  | float
  | bool
  | timestamp
  | uuid
  | json
  deriving DecidableEq, Inhabited

namespace StorageType

/-- All storage types. -/
def all : List StorageType := [.text, .int, .bigint, .float, .bool, .timestamp, .uuid, .json]

/-- The name of a storage type. -/
def name : StorageType → String
  | .text => "text"
  | .int => "int"
  | .bigint => "bigint"
  | .float => "float"
  | .bool => "bool"
  | .timestamp => "timestamp"
  | .uuid => "uuid"
  | .json => "json"

/-- The storage type with a name in lower case; some have a second name. -/
def ofName? : String → Option StorageType
  | "text" => some .text
  | "string" => some .text
  | "int" => some .int
  | "integer" => some .int
  | "bigint" => some .bigint
  | "float" => some .float
  | "double" => some .float
  | "bool" => some .bool
  | "boolean" => some .bool
  | "timestamp" => some .timestamp
  | "uuid" => some .uuid
  | "json" => some .json
  | _ => none

/-- Reads a storage type without regard to case. -/
def parse? (s : String) : Option StorageType := ofName? (Unicode.lowerText s)

end StorageType

/-- A registered attribute. -/
structure Attribute where
  id : String
  /-- The column name. -/
  name : String
  type : StorageType
  validations : List String := []
  deriving DecidableEq, Inhabited

/-- The validation that makes a column mandatory. -/
def requiredValidation : String := "required"

/-- Whether the column of an attribute is mandatory. -/
def Attribute.isRequired (a : Attribute) : Bool := a.validations.contains requiredValidation

end DataAccess
