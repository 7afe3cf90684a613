import DataAccess.Go.Identifier
import DataAccess.Go.Node.Imports
import DataAccess.Go.Node.Printer

set_option autoImplicit false

/-! # Declarations

Functions, structs with their methods, and the values of `var` and `const` groups. Each has a text
(`render`) and the imports it needs (`imports`). -/

namespace DataAccess.Go

/-- Lines of documentation above a declaration. -/
def docText (doc : List String) : String := String.join (doc.map fun line => "// " ++ line ++ "\n")

/-! ## Functions -/

/-- A parameter of a function. -/
structure Param where
  name : String
  type : TypeRef
  deriving DecidableEq

/-- The receiver of a method. -/
structure Receiver where
  name : String
  type : String
  deriving DecidableEq

/-- A receiver as Go source: always a pointer. -/
def Receiver.render (r : Receiver) : String :=
  "(" ++ r.name ++ " *" ++ String.ofList (r.type.toList.dropWhile (· == '*')) ++ ") "

/-- A function or method. -/
structure Func where
  name : String
  doc : List String := []
  receiver : Option Receiver := none
  params : List Param := []
  returns : List TypeRef := []
  body : List Node := []
  /-- Imports beyond those of the signature and the body. -/
  extra : List Import := []

namespace Func

/-- The result types behind the parameters. -/
def results : List TypeRef → String
  | [] => ""
  | [t] => " " ++ t.render
  | ts => " (" ++ String.intercalate ", " (ts.map TypeRef.render) ++ ")"

def signature (f : Func) : String :=
  "func " ++ f.receiver.elim "" Receiver.render ++ f.name ++ "(" ++
    String.intercalate ", " (f.params.map fun p => p.name ++ " " ++ p.type.render) ++ ")" ++
    results f.returns

def render (f : Func) : String :=
  docText f.doc ++ f.signature ++ " " ++
    if f.body.isEmpty then "\x7b\n\x7d" else braced (block f.body)

def imports (f : Func) : List Import :=
  f.params.flatMap (·.type.imports) ++ f.returns.flatMap TypeRef.imports ++
    Node.allImports f.body ++ f.extra

end Func

/-! ## Structs -/

/-- A field of a struct. -/
structure Field where
  name : String
  type : TypeRef
  /-- The text behind the field that is read at run time. -/
  tag : Option String := none
  deriving DecidableEq

/-- A struct with its methods. -/
structure Struct where
  name : String
  doc : List String := []
  fields : List Field := []
  methods : List Func := []
  /-- Imports beyond those of the fields and methods. -/
  extra : List Import := []

namespace Struct

/-- Adds a method. Its receiver is the struct, under the variable it names or the customary one. -/
def addMethod (s : Struct) (f : Func) : Struct :=
  let name := f.receiver.elim (receiverName s.name) Receiver.name
  { s with methods := s.methods ++ [{ f with receiver := some ⟨name, s.name⟩ }] }

/-- The largest number of bytes of several texts. -/
def width (texts : List String) : Nat := (texts.map String.utf8ByteSize).foldl max 0

/-- The line of a field. Names and the types before tags are padded to the given widths. -/
def fieldLine (nameWidth typeWidth : Nat) (f : Field) : String :=
  "\t" ++ Text.padRight nameWidth f.name ++ " " ++
  match f.tag with
  | some tag => Text.padRight typeWidth f.type.render ++ " \x60" ++ tag ++ "\x60"
  | none => f.type.render

/-- The lines of the fields in columns, as wide as the longest entries. -/
def fieldLines (fields : List Field) : String :=
  let nameWidth := width (fields.map Field.name)
  let typeWidth := width ((fields.filter (·.tag.isSome)).map (·.type.render))
  String.intercalate "\n" (fields.map (fieldLine nameWidth typeWidth))

def render (s : Struct) : String :=
  docText s.doc ++ "type " ++ s.name ++ " struct" ++
    (if s.fields.isEmpty then "\x7b\x7d" else " " ++ braced (fieldLines s.fields)) ++
    String.join (s.methods.map fun f => "\n\n" ++ f.render)

def imports (s : Struct) : List Import :=
  s.fields.flatMap (·.type.imports) ++ s.methods.flatMap Func.imports ++ s.extra

end Struct

/-! ## Values -/

/-- A name bound to a value in a `var` or `const` group. -/
structure Value where
  name : String
  doc : List String := []
  type : Option TypeRef := none
  value : Node

namespace Value

/-- The name, its type and its value. -/
def binding (v : Value) : String :=
  v.name ++ v.type.elim "" (fun t => " " ++ t.render) ++ " = " ++ v.value.expr

/-- A group of values; one alone stands without parentheses. -/
def group (keyword : String) : List Value → String
  | [] => ""
  | [v] => docText v.doc ++ keyword ++ " " ++ v.binding
  | vs =>
    keyword ++ " (\n" ++
      Text.indent 1 (String.intercalate "\n" (vs.map fun v => docText v.doc ++ v.binding)) ++ "\n)"

def imports (v : Value) : List Import := v.type.elim [] TypeRef.imports ++ v.value.imports

end Value

end DataAccess.Go
