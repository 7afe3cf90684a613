import DataAccess.Generation.Names
import DataAccess.Go.Node.Directives
import DataAccess.Go.SourceFile

set_option autoImplicit false

/-! # The support file

The file that all units of a package rely on: the error for a statement that was not prepared, and
the function that takes one end of a range. -/

namespace DataAccess.Generation

open Go (Call Func Node SourceFile TypeRef Value)

/-- The error for a statement that was not prepared. -/
def notPreparedVar : Value :=
  { name := notPreparedError
    doc := [notPreparedError ++
      " is returned when an access function runs before its statement was prepared."]
    value := .call (.function "errors.New" [.str "dalgen: statement not prepared"]
      (some { path := "errors" })) }

/-- Returns an error with a message about a value. -/
def rangeError (message : String) (value : Node) : Node :=
  .ret [.nil, .call (.function "fmt.Errorf" [.str message, value] (some { path := "fmt" }))]

/-- A call without arguments of a method of the reflected value. -/
def reflected (method : String) : Node := .call (.method (.ident "v") method [])

/-- The body of the function that takes one end of a range. -/
def rangeBoundBody : Except CompileError (List Node) := do
  let reflect ←
    (Node.call (.function "reflect.ValueOf" [.ident "value"] (some { path := "reflect" }))).direct
      { define := some ["v"] }
  let wrongKind := Node.branch
    (.binary .and (.binary .ne (reflected "Kind") (.ident "reflect.Slice"))
      (.binary .ne (reflected "Kind") (.ident "reflect.Array")))
    [rangeError "dalgen: range parameter must be a slice or array, got %T" (.ident "value")]
  let wrongLength := Node.branch (.binary .ne (reflected "Len") (.int 2))
    [rangeError "dalgen: range parameter must have 2 elements, got %d" (reflected "Len")]
  let element := Node.call
    (.method (.call (.method (.ident "v") "Index" [.ident "i"])) "Interface" [])
  return [reflect, wrongKind, wrongLength, .ret [element, .nil]]

/-- The function that takes one end of a range. -/
def rangeBoundFunction : Except CompileError Func := do
  let body ← rangeBoundBody
  return {
    name := rangeBound
    doc := [rangeBound ++ " returns element i of a two-element range value."]
    params := [⟨"value", .any⟩, ⟨"i", .builtin "int"⟩]
    returns := [.any, .error]
    body }

/-- The support file of a package. -/
def supportFile (package : String) : Except CompileError SourceFile := do
  let f ← rangeBoundFunction
  return { package, vars := [notPreparedVar], funcs := [f] }

end DataAccess.Generation
