import DataAccess.Error
import DataAccess.Model.Attribute

set_option autoImplicit false

/-! # SQL dialects

What differs between the SQL dialects: placeholders, column types, the current time, membership in
a list, and how an insertion tells whether it replaced a row. -/

namespace DataAccess.Sql

/-- A SQL dialect. -/
inductive Dialect where
  | postgres
  | sqlite
  deriving DecidableEq, Inhabited

namespace Dialect

/-- The name of a dialect. -/
def name : Dialect → String
  | .postgres => "postgres"
  | .sqlite => "sqlite"

/-- The dialect with a name in lower case; some have several names. -/
def ofName? : String → Option Dialect
  | "postgres" => some .postgres
  | "postgresql" => some .postgres
  | "pg" => some .postgres
  | "sqlite" => some .sqlite
  | "sqlite3" => some .sqlite
  | _ => none

/-- Reads the name of a dialect without regard to case. -/
def parse (s : String) : Except CompileError Dialect :=
  match ofName? (Unicode.lowerText s) with
  | some d => .ok d
  | none => .error (.unsupportedDialect s)

/-- The number of the first placeholder of a statement. -/
def firstPlaceholder : Dialect → Nat
  | _ => 1

/-- The placeholder with a number. -/
def placeholder : Dialect → Nat → String
  | .postgres, n => "$" ++ toString n
  | .sqlite, _ => "?"

/-- The column type for a storage type. -/
def columnType : Dialect → StorageType → String
  | .postgres, .text => "TEXT"
  | .postgres, .int => "INTEGER"
  | .postgres, .bigint => "BIGINT"
  | .postgres, .float => "DOUBLE PRECISION"
  | .postgres, .bool => "BOOLEAN"
  | .postgres, .timestamp => "TIMESTAMPTZ"
  | .postgres, .uuid => "UUID"
  | .postgres, .json => "JSONB"
  | .sqlite, .text => "TEXT"
  | .sqlite, .int => "INTEGER"
  | .sqlite, .bigint => "INTEGER"
  | .sqlite, .float => "REAL"
  | .sqlite, .bool => "INTEGER"
  | .sqlite, .timestamp => "TIMESTAMP"
  | .sqlite, .uuid => "TEXT"
  | .sqlite, .json => "TEXT"

/-- The current time. -/
def now : Dialect → String
  | .postgres => "NOW()"
  | .sqlite => "CURRENT_TIMESTAMP"

/-- What stands around the placeholder of a list when membership in it is tested. -/
def memberFrame : Dialect → String × String
  | .postgres => (" = ANY(", ")")
  | .sqlite => (" IN (SELECT value FROM json_each(", "))")

/-- The test whether a subject is in the list bound to a placeholder. -/
def membership (d : Dialect) (subject placeholder : String) : String :=
  subject ++ d.memberFrame.1 ++ placeholder ++ d.memberFrame.2

/-- The expression that is true when a row was inserted and not replaced. In SQLite only an
insertion moves the last row id. -/
def insertedFlag : Dialect → String
  | .postgres => "(xmax = 0)"
  | .sqlite => "(rowid = last_insert_rowid())"

end Dialect

end DataAccess.Sql
