import DataAccess.Generation.AccessFunction
import DataAccess.Generation.Prepare
import DataAccess.Generation.Request
import DataAccess.Generation.Row
import DataAccess.Go.SourceFile

set_option autoImplicit false

/-! # The unit of a model

Everything that is generated for one model: its declarations and the statements they hold. -/

namespace DataAccess.Generation

open Go (Func SourceFile Struct Value)
open Sql (Dialect Statement)

/-- What is generated for one method. -/
structure MethodUnit where
  statement : Statement
  params : Struct
  request : Struct
  access : Func

/-- What is generated for one model. -/
structure ModelUnit where
  /-- The Go name of the model. -/
  goName : String
  structs : List Struct
  funcs : List Func
  vars : List Value
  consts : List Value
  statements : List Statement

/-- The columns that a method reads if it is a find. -/
def scanColumns (r : Resolved) : Method → List String
  | .find q => if q.attributes.isEmpty then allColumns r else q.attributes
  | _ => allColumns r

/-- The declarations of a method. -/
def methodUnit (d : Dialect) (r : Resolved) (q : Method) : Except CompileError MethodUnit := do
  let statement := Sql.compileMethod d r.model q
  let request ← requestStruct statement
  let access ← accessFunction statement (Go.exported r.name) (scanColumns r q)
  return { statement, params := paramsStruct statement, request, access }

/-- The declarations that a model has only if it has methods. -/
def prepareFunctions (goName : String) (methods : List MethodUnit) :
    Except CompileError (List Func) :=
  if methods.isEmpty then .ok [] else do
    let f ← prepareFunction goName
    return [f]

/-- The declarations of a model. -/
def modelUnit (d : Dialect) (r : Resolved) : Except CompileError ModelUnit := do
  let goName := Go.exported r.name
  let methods ← r.model.access.methods.mapM fun q =>
    (methodUnit d r q).mapError (.inMethod r.name q.name)
  let prepare ← (prepareFunctions goName methods).mapError (.inModel r.name)
  let statements := methods.map MethodUnit.statement
  return {
    goName
    structs := rowStruct r :: methods.flatMap fun u => [u.params, u.request]
    funcs := methods.map MethodUnit.access ++ prepare
    vars := if statements.isEmpty then [] else [statementsVar goName statements]
    consts := statements.map queryConst
    statements }

namespace ModelUnit

/-- The name of the unit's file. -/
def fileName (u : ModelUnit) : String := Naming.snake u.goName ++ ".go"

/-- The warnings of the unit's statements. -/
def warnings (u : ModelUnit) : List Warning := u.statements.flatMap Statement.warnings

/-- The unit as a file of a package. -/
def sourceFile (u : ModelUnit) (package : String) : SourceFile :=
  { package, vars := u.vars, consts := u.consts, structs := u.structs, funcs := u.funcs }

end ModelUnit

end DataAccess.Generation
