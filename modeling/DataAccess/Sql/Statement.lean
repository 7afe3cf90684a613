import DataAccess.Model.Basic
import DataAccess.Sql.Builder

set_option autoImplicit false

/-! # Statements

Every access method compiles to one statement. Its attributes must already be column names. The
statement is one fragment, so its bind values stand in the order of its placeholders. -/

namespace DataAccess.Sql

/-- A compiled statement. -/
structure Statement where
  /-- The name of the access method, under which the statement is prepared. -/
  name : String
  kind : MethodKind
  sql : String
  params : List Parameter
  warnings : List Warning

/-- The WHERE clause. It starts with a condition that always holds, so that it is complete when
nothing is left of the filters. -/
def whereTail (d : Dialect) (fs : List Filter) : Fragment :=
  match Filter.whereFragment d fs with
  | [] => [.text "WHERE 1=1"]
  | f => .text "WHERE 1=1 AND " :: f

/-- The table of a model. -/
def tableOf (m : Model) : String := qualified m.schema m.tableName

/-- The columns a find reads. -/
def projection (columns : List String) : String :=
  if columns.isEmpty then "*" else quoteAll columns

/-- The slots of an inserted row. -/
def slots (params : List Parameter) : Fragment :=
  Fragment.join ", " (params.map fun p => [.slot p])

/-- Everything of an insertion up to the values. -/
def insertFragment (m : Model) (values : List Assignment) : Fragment :=
  .text ("INSERT INTO " ++ tableOf m ++ " (" ++ String.intercalate ", " (insertColumns values) ++
    ") VALUES (") :: slots (insertParameters values) ++ [.text ")"]

/-- The statement of a method, as a fragment. -/
def methodFragment (d : Dialect) (m : Model) : Method → Fragment
  | .find q =>
    .text ("SELECT " ++ projection q.attributes ++ " FROM " ++ tableOf m ++ " ") ::
      whereTail d q.filters
  | .update q =>
    .text ("UPDATE " ++ tableOf m ++ " SET ") ::
      setFragment d q.set q.increment q.timestamp ++ .text " " :: whereTail d q.filters
  | .add q => insertFragment m q.values ++ [.text (" RETURNING " ++ quote idColumn)]
  | .addOrReplace q =>
    insertFragment m q.values ++
      .text (" ON CONFLICT (" ++ quoteAll q.conflictTarget ++ ") DO UPDATE SET ") ::
      setFragment d q.values [] [] ++
      [.text (" RETURNING " ++ quote idColumn ++ ", " ++ d.insertedFlag ++ " AS inserted")]
  | .delete q => .text ("DELETE FROM " ++ tableOf m ++ " ") :: whereTail d q.filters

/-- Compiles a method. -/
def compileMethod (d : Dialect) (m : Model) (q : Method) : Statement :=
  let (sql, b) := (Builder.start d).emit (methodFragment d m q) (Filter.allWarnings q.filters)
  { name := q.name, kind := q.kind, sql, params := b.params, warnings := b.warnings }

/-- Compiles every method of a model. -/
def compileModel (d : Dialect) (m : Model) : List Statement :=
  m.access.methods.map (compileMethod d m)

end DataAccess.Sql
