set_option autoImplicit false

/-! # Bind values

The value that a placeholder of a statement is bound to: a parameter of the caller, one element of
such a parameter, or a value that the generated code makes itself. -/

namespace DataAccess.Sql

/-- A bind value. -/
inductive Parameter where
  /-- A parameter of the caller: the whole value, or one of its elements. -/
  | named (name : String) (element : Option Int)
  /-- The result of a call in the generated code. -/
  | generated (function : String) (args : List String)
  deriving DecidableEq

namespace Parameter

/-- The function that makes primary keys. -/
def idGenerator : String := "uuid.NewString"

/-- A whole parameter of the caller. -/
def whole (name : String) : Parameter := .named name none

/-- The primary key of a new row. -/
def newId : Parameter := .generated idGenerator []

/-- The name the caller knows it by. -/
def name? : Parameter → Option String
  | .named name _ => some name
  | .generated _ _ => none

/-- A bind value as a listing shows it. -/
def text : Parameter → String
  | .named name none => ":" ++ name
  | .named name (some i) => ":" ++ name ++ "[" ++ toString i ++ "]"
  | .generated function args => function ++ "(" ++ String.intercalate ", " args ++ ")"

/-- The names of the caller's parameters in order of their first appearance. -/
def distinctNames (params : List Parameter) : List String :=
  (params.filterMap name?).eraseDups

end Parameter

end DataAccess.Sql
