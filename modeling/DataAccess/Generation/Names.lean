import DataAccess.Go.Identifier
import DataAccess.Model.Basic

set_option autoImplicit false

/-! # Names of the generated declarations

The Go names that are derived from a model and its methods, and the list of all of them
(`declaredNames`), each with a description of what it names. All models share one package, so
these names must not meet each other nor the names the generated code takes for granted
(`reservedNames`). -/

namespace DataAccess.Generation

/-- The error of an access function whose statement was not prepared. -/
def notPreparedError : String := "ErrStatementNotPrepared"

/-- The helper that takes one end of a range. -/
def rangeBound : String := "rangeBound"

/-- The names the generated code takes for granted: built-in types and functions, imported packages
and the shared helpers. -/
def reservedNames : List String :=
  ["any", "append", "error", "int64", "len", "make", "nil", "string", "context", "errors", "fmt",
   "json", "reflect", "sql", "time", "uuid", notPreparedError, rangeBound]

/-- The struct of a method's parameters. -/
def paramsName (method : String) : String := method ++ "Params"

/-- The struct of a method's input. -/
def requestName (method : String) : String := method ++ "Request"

/-- The constant with the SQL of a method. -/
def queryName (method : String) : String := Naming.camel method ++ "Query"

/-- The list of a model's statements. -/
def statementsName (goName : String) : String := Naming.camel goName ++ "Statements"

/-- The function that prepares a model's statements. -/
def prepareName (goName : String) : String := "Prepare" ++ goName ++ "Statements"

/-- A name that is declared, with a description of what declares it. -/
structure Declared where
  name : String
  role : String
  deriving DecidableEq

/-- The names declared for a method. -/
def methodNames (model method : String) : List Declared :=
  let owner := model ++ "." ++ method
  [⟨method, "access method " ++ owner⟩,
   ⟨paramsName method, "the params struct of " ++ owner⟩,
   ⟨requestName method, "the request struct of " ++ owner⟩,
   ⟨queryName method, "the query constant of " ++ owner⟩]

/-- Every package-level name declared for a model. -/
def declaredNames (m : Model) : List Declared :=
  let goName := Go.exported m.name
  [⟨goName, "the " ++ m.name ++ " model struct"⟩] ++
  (m.access.methods.flatMap fun q => methodNames m.name q.name) ++
  if m.access.isEmpty then []
  else
    [⟨prepareName goName, "the prepare function of " ++ m.name⟩,
     ⟨statementsName goName, "the statement list of " ++ m.name⟩]

end DataAccess.Generation
