import DataAccess.Generation.Names
import DataAccess.Generation.Types
import DataAccess.Go.Declaration
import DataAccess.Go.Node.Directives
import DataAccess.Sql.Statement

set_option autoImplicit false

/-! # Requests

The input of an access function: a struct with the caller's parameters (`paramsStruct`), and a
request around it (`requestStruct`) whose method `Args` lists the bind values of the statement in
the order of its placeholders. -/

namespace DataAccess.Generation

open Go (Call Func Handler Import Node Struct TypeRef)
open Sql (Parameter Statement)

/-- The struct with one field for every parameter of the caller, in order of first appearance. -/
def paramsStruct (s : Statement) : Struct :=
  let name := paramsName s.name
  { name
    doc := [name ++ " holds the caller-supplied values of " ++ s.name ++ "."]
    fields := (Parameter.distinctNames s.params).map fun p =>
      { name := Go.exported p, type := TypeRef.any } }

/-- The field of a request with a parameter. -/
def parameterNode (name : String) : Node := .ident ("r.Params." ++ Go.exported name)

/-- Appends a value to the bind values. -/
def appendArg (value : Node) : Except CompileError Node :=
  (Node.call (.function "append" [.ident "args", value])).direct { assign := some ["args"] }

/-- Takes one element of a parameter. -/
def takeElement (bound name : String) (element : Int) : Except CompileError Node :=
  (Node.call (.function rangeBound [parameterNode name, .int element])).direct
    { define := some [bound, "err"], onError := some (.err [.nil]) }

/-- The statements that append the bind value of a placeholder. -/
def bindNodes (position : Nat) : Parameter → Except CompileError (List Node)
  | .named name none => do
    let append ← appendArg (parameterNode name)
    return [append]
  | .named name (some element) => do
    let bound := "bound" ++ toString position
    let take ← takeElement bound name element
    let append ← appendArg (.ident bound)
    return [take, append]
  | .generated function args => do
    let value := Node.call (.function function (args.map Node.ident) (generatorImport function))
    let append ← appendArg value
    return [append]

/-- The statements that append all bind values, from the given position on. -/
def bindAll (position : Nat) : List Parameter → Except CompileError (List Node)
  | [] => .ok []
  | p :: ps => do
    let nodes ← bindNodes position p
    let rest ← bindAll (position + 1) ps
    return nodes ++ rest

/-- Makes the list of bind values, with room for all of them. -/
def makeArgs (count : Nat) : Except CompileError Node :=
  (Node.call (.function "make" [.ident "[]any", .int 0, .int count])).direct
    { define := some ["args"] }

/-- The body of `Args`. -/
def argsBody (params : List Parameter) : Except CompileError (List Node) := do
  let start ← makeArgs params.length
  let binds ← bindAll 1 params
  return start :: binds ++ [.ret [.ident "args", .nil]]

/-- The method that lists the bind values. -/
def argsMethod (s : Statement) : Except CompileError Func := do
  let body ← argsBody s.params
  return {
    name := "Args"
    doc := ["Args returns the bind values in placeholder order."]
    receiver := some ⟨"r", requestName s.name⟩
    returns := [.builtin "[]any", .error]
    body }

/-- The input of an access function. -/
def requestStruct (s : Statement) : Except CompileError Struct := do
  let name := requestName s.name
  let args ← argsMethod s
  let struct : Struct := {
    name
    doc := [name ++ " is the input of " ++ s.name ++ "."]
    fields := [{ name := "Params", type := .builtin (paramsName s.name) }] }
  return struct.addMethod args

end DataAccess.Generation
