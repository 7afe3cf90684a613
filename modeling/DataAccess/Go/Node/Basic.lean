import DataAccess.Go.Literal
import DataAccess.Go.TypeRef

set_option autoImplicit false

/-! # Nodes of Go code

A `Node` is one expression or statement (its `Shape`) together with directives: where its result
goes (`Capture`), how an error it returns is handled (`Handler`), and which call runs when the
function ends. -/

namespace DataAccess.Go

/-! ## Operators -/

inductive BinaryOp where
  | eq | ne | lt | le | gt | ge | and | or | add | sub
  deriving DecidableEq

namespace BinaryOp

def all : List BinaryOp := [.eq, .ne, .lt, .le, .gt, .ge, .and, .or, .add, .sub]

def symbol : BinaryOp → String
  | eq => "=="
  | ne => "!="
  | lt => "<"
  | le => "<="
  | gt => ">"
  | ge => ">="
  | and => "&&"
  | or => "||"
  | add => "+"
  | sub => "-"

/-- How tightly an operator binds; a higher number binds tighter. -/
def precedence : BinaryOp → Nat
  | add | sub => 4
  | eq | ne | lt | le | gt | ge => 3
  | and => 2
  | or => 1

end BinaryOp

/-- Unary operators bind tighter than every binary operator. -/
def unaryPrecedence : Nat := 5

inductive UnaryOp where
  | addressOf | deref | not | neg
  deriving DecidableEq

namespace UnaryOp

def all : List UnaryOp := [.addressOf, .deref, .not, .neg]

def symbol : UnaryOp → String
  | addressOf => "&"
  | deref => "*"
  | not => "!"
  | neg => "-"

end UnaryOp

/-! ## Directives -/

/-- Where the result of a node goes. -/
inductive Capture where
  | discard
  /-- Into variables that exist. -/
  | assign (names : List String)
  /-- Into new variables. -/
  | define (names : List String)
  deriving DecidableEq

/-- The start of a statement that captures a result. -/
def Capture.render : Capture → String
  | discard => ""
  | assign names => String.intercalate ", " names ++ " = "
  | define names => String.intercalate ", " names ++ " := "

/-- When a call runs. -/
inductive CallMode where
  | immediate
  /-- At the same time as what follows. -/
  | go
  /-- When the function ends. -/
  | defer
  deriving DecidableEq

/-- The word in front of a call. -/
def CallMode.keyword : CallMode → String
  | immediate => ""
  | go => "go"
  | defer => "defer"

/-! ## Nodes -/

mutual

/-- One expression or statement with its directives. -/
structure Node where
  shape : Shape
  capture : Capture
  /-- What happens if an error comes back. -/
  handler : Option Handler
  /-- The call that runs when the function ends. -/
  cleanup : Option Call

/-- An expression or statement. -/
inductive Shape where
  | literal (value : Literal)
  | ident (name : String)
  | binary (op : BinaryOp) (left right : Node)
  | unary (op : UnaryOp) (operand : Node)
  | index (target key : Node)
  /-- A variable, with a value or without. -/
  | declare (name : String) (type : TypeRef) (value : Option Node)
  | branch (condition : Node) (yes no : List Node)
  /-- A loop under a condition. -/
  | loop (condition : Node) (body : List Node)
  /-- A loop under a condition that starts with a statement. -/
  | loopFrom (start condition : Node) (body : List Node)
  /-- A loop under a condition that starts with a statement and ends each round with another. -/
  | loopStep (start condition step : Node) (body : List Node)
  /-- A loop over the elements of a collection. -/
  | range (key value : Option String) (collection : Node) (body : List Node)
  | call (call : Call)
  /-- A composite literal; the type may be left out inside another one. -/
  | composite (type : Option TypeRef) (elements : List Element) (multiline : Bool)
  | ret (values : List Node)
  /-- Several statements, one after the other. -/
  | steps (nodes : List Node)

/-- A call. -/
structure Call where
  callee : Callee
  args : List Node
  /-- Whether the last argument is a list that stands for several arguments. -/
  spread : Bool
  mode : CallMode
  /-- The package the function comes from. -/
  origin : Option Import

/-- What is called. -/
inductive Callee where
  | function (name : String)
  | method (receiver : Node) (name : String)

/-- The return that is taken if an error variable holds an error. -/
structure Handler where
  name : String
  /-- The values that are returned, the error last. -/
  returns : List Node

/-- One element of a composite literal. -/
structure Element where
  key : Option String
  value : Node

end

/-! ## Building nodes -/

namespace Node

/-- A node without directives. -/
def ofShape (shape : Shape) : Node := ⟨shape, .discard, none, none⟩

def literal (value : Literal) : Node := ofShape (.literal value)

def nil : Node := literal .nil

def bool (value : Bool) : Node := literal (.bool value)

def int (value : Int) : Node := literal (.int value)

def str (value : String) : Node := literal (.str value)

def raw (value : String) : Node := literal (.raw value)

def ident (name : String) : Node := ofShape (.ident name)

def binary (op : BinaryOp) (left right : Node) : Node := ofShape (.binary op left right)

def unary (op : UnaryOp) (operand : Node) : Node := ofShape (.unary op operand)

def index (target key : Node) : Node := ofShape (.index target key)

def declare (name : String) (type : TypeRef) : Node := ofShape (.declare name type none)

def branch (condition : Node) (yes : List Node) (no : List Node := []) : Node :=
  ofShape (.branch condition yes no)

def loop (condition : Node) (body : List Node) : Node := ofShape (.loop condition body)

def range (key value : Option String) (collection : Node) (body : List Node) : Node :=
  ofShape (.range key value collection body)

def call (c : Call) : Node := ofShape (.call c)

/-- A composite literal on one line. -/
def composite (type : Option TypeRef) (elements : List Element) : Node :=
  ofShape (.composite type elements false)

/-- A composite literal with one line for each element. -/
def compositeBlock (type : Option TypeRef) (elements : List Element) : Node :=
  ofShape (.composite type elements true)

def ret (values : List Node) : Node := ofShape (.ret values)

def steps (nodes : List Node) : Node := ofShape (.steps nodes)

end Node

namespace Call

/-- A call of a function. -/
def function (name : String) (args : List Node) (origin : Option Import := none) : Call :=
  ⟨.function name, args, false, .immediate, origin⟩

/-- A call of a method. -/
def method (receiver : Node) (name : String) (args : List Node) : Call :=
  ⟨.method receiver name, args, false, .immediate, none⟩

/-- The call with its last argument spread. -/
def spreading (c : Call) : Call := { c with spread := true }

end Call

namespace Element

def positional (value : Node) : Element := ⟨none, value⟩

def keyed (key : String) (value : Node) : Element := ⟨some key, value⟩

end Element

namespace Handler

/-- The handler that returns zero values and the error. -/
def returning (name : String) (zeros : List Node) : Handler := ⟨name, zeros ++ [Node.ident name]⟩

/-- The handler of the variable `err`. -/
def err (zeros : List Node) : Handler := returning "err" zeros

end Handler

end DataAccess.Go
