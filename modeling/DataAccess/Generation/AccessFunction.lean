import DataAccess.Generation.Names
import DataAccess.Generation.Types
import DataAccess.Go.Declaration
import DataAccess.Go.Node.Directives
import DataAccess.Sql.Statement

set_option autoImplicit false

/-! # Access functions

The Go function of an access method: it takes the bind values from its request, looks its prepared
statement up by name, runs it and returns what the kind of method promises. -/

namespace DataAccess.Generation

open Go (Call Func Handler Node TypeRef)
open Sql (Statement)

/-- The values that are returned beside an error. -/
def zeros : MethodKind → List Node
  | .find => [.nil]
  | .update => [.int 0]
  | .delete => [.int 0]
  | .add => [.str ""]
  | .addOrReplace => [.str "", .bool false]

/-- Returns the error, if there is one. -/
def onError (kind : MethodKind) : Handler := .err (zeros kind)

/-- What a method of a kind returns. -/
def resultTypes (row : String) : MethodKind → List TypeRef
  | .find => [.builtin ("[]*" ++ row), .error]
  | .update => [.builtin "int64", .error]
  | .delete => [.builtin "int64", .error]
  | .add => [.builtin "string", .error]
  | .addOrReplace => [.builtin "string", .builtin "bool", .error]

/-- The fields of a row that columns are read into. -/
def scanTargets (columns : List String) : List Node :=
  columns.map fun c => .unary .addressOf (.ident ("item." ++ Go.exported c))

/-- Runs the prepared statement with the bind values. -/
def runStatement (method : String) : Call :=
  (Call.method (.ident "stmt") method [.ident "ctx", .ident "args"]).spreading

/-! ## Statements shared by all kinds -/

/-- Takes the bind values, looks the statement up and stops if it is not there. -/
def prologue (s : Statement) : Except CompileError (List Node) := do
  let args ← (Node.call (.method (.ident "req") "Args" [])).direct
    { define := some ["args", "err"], onError := some (onError s.kind) }
  let stmt ← (Node.index (.ident "stmts") (.str s.name)).direct { define := some ["stmt", "ok"] }
  let missing := Node.branch (.unary .not (.ident "ok"))
    [.ret (zeros s.kind ++ [.ident notPreparedError])]
  return [args, stmt, missing]

/-! ## Results by kind -/

/-- Reads every row of the result into a list. -/
def queryRows (row : String) (columns : List String) : Except CompileError (List Node) := do
  let item ← (Node.unary .addressOf (.composite (some (.builtin row)) [])).direct
    { define := some ["item"] }
  let scan ← (Node.call (.method (.ident "rows") "Scan" (scanTargets columns))).direct
    { assign := some ["err"], onError := some (onError .find) }
  let append ← (Node.call (.function "append" [.ident "items", .ident "item"])).direct
    { assign := some ["items"] }
  let query ← (Node.call (runStatement "QueryContext")).direct
    { define := some ["rows", "err"], onError := some (onError .find),
      cleanup := some (.method (.ident "rows") "Close" []) }
  let finish ← (Node.call (.method (.ident "rows") "Err" [])).direct
    { assign := some ["err"], onError := some (onError .find) }
  return [query, .declare "items" (.builtin ("[]*" ++ row)),
    .loop (.call (.method (.ident "rows") "Next" [])) [item, scan, append],
    finish, .ret [.ident "items", .nil]]

/-- Counts the rows that were changed. -/
def execute (kind : MethodKind) : Except CompileError (List Node) := do
  let run ← (Node.call (runStatement "ExecContext")).direct
    { define := some ["result", "err"], onError := some (onError kind) }
  return [run, .ret [.call (.method (.ident "result") "RowsAffected" [])]]

/-- Reads the one row of the result into variables and returns them. -/
def queryRow (kind : MethodKind) (targets : List (String × String)) :
    Except CompileError (List Node) := do
  let read := Call.method (.call (runStatement "QueryRowContext")) "Scan"
    (targets.map fun t => .unary .addressOf (.ident t.1))
  let scan ← (Node.call read).direct { assign := some ["err"], onError := some (onError kind) }
  return targets.map (fun t => .declare t.1 (.builtin t.2)) ++
    [scan, .ret (targets.map (fun t => .ident t.1) ++ [.nil])]

/-- The statements that run a method of a kind and return its result. -/
def resultNodes (row : String) (columns : List String) :
    MethodKind → Except CompileError (List Node)
  | .find => queryRows row columns
  | .update => execute .update
  | .delete => execute .delete
  | .add => queryRow .add [("id", "string")]
  | .addOrReplace => queryRow .addOrReplace [("id", "string"), ("inserted", "bool")]

/-! ## The function -/

/-- The access function of a statement. `row` is the struct that a find returns, `columns` are the
columns it reads. -/
def accessFunction (s : Statement) (row : String) (columns : List String) :
    Except CompileError Func := do
  let start ← prologue s
  let results ← resultNodes row columns s.kind
  return {
    name := s.name
    doc := [s.name ++ " runs the prepared " ++ s.kind.text ++ " statement."]
    params := [⟨"ctx", contextType⟩, ⟨"stmts", statementMapType⟩,
      ⟨"req", .builtin ("*" ++ requestName s.name)⟩]
    returns := resultTypes row s.kind
    body := start ++ results }

end DataAccess.Generation
