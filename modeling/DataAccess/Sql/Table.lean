import DataAccess.Ordered
import DataAccess.Sql.Dialect
import DataAccess.Sql.Identifier

set_option autoImplicit false

/-! # Tables and indexes

The statements that create the table of a model and its indexes. Index statements are listed in the
order of their text, each once. -/

namespace DataAccess.Sql

/-- A column of a table, beside the fixed ones. -/
structure Column where
  name : String
  type : StorageType
  /-- Whether the column is mandatory. -/
  required : Bool
  deriving DecidableEq

/-- An index. -/
structure Index where
  columns : List String
  unique : Bool
  deriving DecidableEq

/-- A table with its indexes. -/
structure Table where
  schema : Option String
  name : String
  /-- The columns after the fixed ones. -/
  columns : List Column
  indexes : List Index

namespace Table

/-- The table as statements refer to it. -/
def reference (t : Table) : String := qualified t.schema t.name

/-- The lines of the fixed columns. -/
def fixedLines (d : Dialect) : List String :=
  [quote idColumn ++ " " ++ d.columnType .uuid ++ " PRIMARY KEY",
   quote versionColumn ++ " " ++ d.columnType .bigint ++ " NOT NULL DEFAULT 1",
   quote updatedAtColumn ++ " " ++ d.columnType .timestamp ++ " NOT NULL DEFAULT " ++ d.now]

/-- The line of a column. -/
def columnLine (d : Dialect) (c : Column) : String :=
  quote c.name ++ " " ++ d.columnType c.type ++ if c.required then " NOT NULL" else ""

/-- The statement that creates the table. -/
def create (d : Dialect) (t : Table) : String :=
  let lines := fixedLines d ++ t.columns.map (columnLine d)
  "CREATE TABLE IF NOT EXISTS " ++ t.reference ++ " (\n" ++
    String.intercalate ",\n" (lines.map ("    " ++ ·)) ++ "\n);\n"

/-- The name of an index: table, columns and a suffix for its kind. -/
def indexName (t : Table) (i : Index) : String :=
  t.name ++ "_" ++ String.intercalate "_" i.columns ++ "_" ++ if i.unique then "key" else "idx"

/-- The statement that creates an index. -/
def indexStatement (t : Table) (i : Index) : String :=
  "CREATE " ++ (if i.unique then "UNIQUE INDEX" else "INDEX") ++ " IF NOT EXISTS " ++
    quote (t.indexName i) ++ " ON " ++ t.reference ++ " (" ++ quoteAll i.columns ++ ");"

/-- The statements that create the indexes; an index on no column is none. -/
def createIndexes (t : Table) : List String :=
  Ordered.ofListBy compare
    ((t.indexes.filter fun i => !i.columns.isEmpty).map t.indexStatement)

/-- The whole schema of the table. -/
def schemaText (d : Dialect) (t : Table) : String :=
  match t.createIndexes with
  | [] => t.create d
  | statements => t.create d ++ "\n" ++ String.join (statements.map (· ++ "\n"))

end Table

end DataAccess.Sql
