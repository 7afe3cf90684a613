set_option autoImplicit false

/-! # SQL identifiers

How a name of a column, table, schema or index is written in a statement (`quote`), and the columns
that every table has (`fixedColumns`). -/

namespace DataAccess.Sql

/-- The words that are quoted when they are used as names. -/
def reservedWords : List String :=
  ["all", "and", "any", "as", "asc", "between", "by", "case", "check", "column", "constraint",
   "create", "default", "delete", "desc", "distinct", "else", "end", "exists", "false", "from",
   "group", "having", "in", "index", "insert", "into", "is", "join", "key", "like", "limit", "not",
   "null", "offset", "on", "or", "order", "primary", "references", "select", "set", "table",
   "then", "to", "true", "union", "unique", "update", "user", "using", "values", "when", "where",
   "with"]

/-- The characters a plain identifier may start with. -/
def isPlainStart (c : Char) : Bool := c.isLower || c == '_'

/-- The characters a plain identifier may go on with. -/
def isPlainPart (c : Char) : Bool := c.isLower || c.isDigit || c == '_'

/-- Whether the characters form a plain identifier: ASCII, in lower case, not starting with a
digit. -/
def isPlain : List Char → Bool
  | [] => false
  | c :: cs => isPlainStart c && cs.all isPlainPart

/-- A character inside double quotes; the quote itself is doubled. -/
def quoteChar (c : Char) : List Char := if c = '\"' then ['\"', '\"'] else [c]

/-- A name as a statement writes it: as it is if it is plain and not reserved, in double quotes
otherwise. -/
def quote (name : String) : String :=
  if isPlain name.toList && !reservedWords.contains name then name
  else "\"" ++ String.ofList (name.toList.flatMap quoteChar) ++ "\""

/-- Several names, separated by commas. -/
def quoteAll (names : List String) : String := String.intercalate ", " (names.map quote)

/-- A table name, qualified by its schema if it has one. -/
def qualified (schema : Option String) (table : String) : String :=
  match schema with
  | some s => quote s ++ "." ++ quote table
  | none => quote table

/-! ## Fixed columns -/

/-- The primary key. -/
def idColumn : String := "id"

/-- The counter for optimistic locking. -/
def versionColumn : String := "version"

/-- The time of the last change. -/
def updatedAtColumn : String := "updated_at"

/-- The columns every table starts with. -/
def fixedColumns : List String := [idColumn, versionColumn, updatedAtColumn]

end DataAccess.Sql
