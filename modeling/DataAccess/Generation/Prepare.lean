import DataAccess.Generation.Names
import DataAccess.Generation.Types
import DataAccess.Go.Declaration
import DataAccess.Go.Node.Directives
import DataAccess.Sql.Statement

set_option autoImplicit false

/-! # Preparing statements

The SQL of every statement is a constant (`queryConst`). A list pairs the name of each method with
its constant (`statementsVar`), and a function prepares them all (`prepareFunction`). -/

namespace DataAccess.Generation

open Go (Call Element Func Node TypeRef Value)
open Sql (Statement)

/-- The constant with the SQL of a statement. -/
def queryConst (s : Statement) : Value := { name := queryName s.name, value := .raw s.sql }

/-- The entry of a statement in the list of a model: the name of its method and its constant. -/
def statementEntry (s : Statement) : Element :=
  .positional (.composite none
    [.positional (.str s.name), .positional (.ident (queryName s.name))])

/-- The list of a model's statements. -/
def statementsVar (goName : String) (statements : List Statement) : Value :=
  { name := statementsName goName
    value := .compositeBlock (some (.builtin "[][2]string")) (statements.map statementEntry) }

/-- The body of the function that prepares the statements of a list. -/
def prepareBody (list : String) : Except CompileError (List Node) := do
  let prepare ←
    (Node.call (.method (.ident "db") "PrepareContext" [.ident "ctx", .ident "entry[1]"])).direct
      { define := some ["stmt", "err"], onError := some (.err [.nil]) }
  let store ← (Node.ident "stmt").direct { assign := some ["stmts[entry[0]]"] }
  let make ←
    (Node.call (.function "make"
      [.ident statementMapType.name, .call (.function "len" [.ident list])])).direct
      { define := some ["stmts"] }
  return [make, .range none (some "entry") (.ident list) [prepare, store],
    .ret [.ident "stmts", .nil]]

/-- The function that prepares the statements of a model. -/
def prepareFunction (goName : String) : Except CompileError Func := do
  let name := prepareName goName
  let body ← prepareBody (statementsName goName)
  return {
    name
    doc := [name ++ " prepares every " ++ goName ++ " statement, keyed by access method name."]
    params := [⟨"ctx", contextType⟩, ⟨"db", databaseType⟩]
    returns := [statementMapType, .error]
    body }

end DataAccess.Generation
