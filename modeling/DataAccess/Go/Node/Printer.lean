import DataAccess.Go.Node.Basic

set_option autoImplicit false

/-! # Nodes as Go source

`Node.expr` is the text of a node where an expression stands; its own directives do not appear
there. `Node.render` is the text of a node where a statement stands: the capture, the expression,
the error handler and the cleanup. `block` is a list of statements, indented. -/

namespace DataAccess.Go

/-! ## Pieces -/

/-- The text, in parentheses if asked for. -/
def parenthesize (needed : Bool) (text : String) : String :=
  if needed then "(" ++ text ++ ")" else text

/-- Whether a node is a binary expression that binds looser than `least`. -/
def Node.bindsBelow (least : Nat) (n : Node) : Bool :=
  match n.shape with
  | .binary op _ _ => op.precedence < least
  | _ => false

/-- A text in braces, on lines of its own. -/
def braced (body : String) : String := "\x7b\n" ++ body ++ "\n\x7d"

/-- The variables of a loop over a collection. -/
def rangeBindings : Option String → Option String → String
  | some k, some v => k ++ ", " ++ v ++ " := "
  | some k, none => k ++ " := "
  | none, some v => "_, " ++ v ++ " := "
  | none, none => ""

/-- The arguments of a call, with dots after the last one if it is spread. -/
def arguments (spread : Bool) (args : List String) : String :=
  String.intercalate ", " args ++ if spread && !args.isEmpty then "..." else ""

/-- A call with the word for its mode. -/
def CallMode.apply (mode : CallMode) (call : String) : String :=
  match mode with
  | .immediate => call
  | _ => mode.keyword ++ " " ++ call

/-- The elements of a composite literal behind its type. -/
def compositeBody (multiline : Bool) (elements : List String) : String :=
  if elements.isEmpty then "\x7b\x7d"
  else if multiline then
    braced (Text.indent 1 (String.intercalate "\n" (elements.map (· ++ ","))))
  else "\x7b" ++ String.intercalate ", " elements ++ "\x7d"

/-- A return of values. -/
def returnText (values : List String) : String :=
  if values.isEmpty then "return" else "return " ++ String.intercalate ", " values

/-- The lines of a block, indented. -/
def blockText (lines : List String) : String := Text.indent 1 (String.intercalate "\n" lines)

/-! ## Nodes -/

mutual

/-- A node where an expression stands. -/
def Node.expr : Node → String
  | ⟨shape, _, _, _⟩ => shape.render

/-- A node where a simple statement stands: the capture and the expression. -/
def Node.simple : Node → String
  | ⟨shape, capture, _, _⟩ => capture.render ++ shape.render

/-- A node where a statement stands. -/
def Node.render : Node → String
  | ⟨shape, capture, handler, cleanup⟩ =>
    capture.render ++ shape.render ++
    (match handler with
      | some h => "\n" ++ h.render
      | none => "") ++
    (match cleanup with
      | some c => "\ndefer " ++ c.render
      | none => "")

def Shape.render : Shape → String
  | .literal value => value.render
  | .ident name => name
  | .binary op left right =>
    parenthesize (left.bindsBelow op.precedence) left.expr ++ " " ++ op.symbol ++ " " ++
      parenthesize (right.bindsBelow (op.precedence + 1)) right.expr
  | .unary op operand =>
    op.symbol ++ parenthesize (operand.bindsBelow unaryPrecedence) operand.expr
  | .index target key => target.expr ++ "[" ++ key.expr ++ "]"
  | .declare name type value =>
    "var " ++ name ++ " " ++ type.render ++
    (match value with
      | some v => " = " ++ v.expr
      | none => "")
  | .branch condition yes no =>
    "if " ++ condition.expr ++ " " ++ braced (blockText (Node.renders yes)) ++
    if no.isEmpty then "" else " else " ++ braced (blockText (Node.renders no))
  | .loop condition body =>
    "for " ++ condition.expr ++ " " ++ braced (blockText (Node.renders body))
  | .loopFrom start condition body =>
    "for " ++ start.simple ++ "; " ++ condition.expr ++ "; " ++
      braced (blockText (Node.renders body))
  | .loopStep start condition step body =>
    "for " ++ start.simple ++ "; " ++ condition.expr ++ "; " ++ step.simple ++ " " ++
      braced (blockText (Node.renders body))
  | .range key value collection body =>
    "for " ++ rangeBindings key value ++ "range " ++ collection.expr ++ " " ++
      braced (blockText (Node.renders body))
  | .call c => c.render
  | .composite type elements multiline =>
    (type.elim "" TypeRef.name) ++ compositeBody multiline (Element.renders elements)
  | .ret values => returnText (Node.exprs values)
  | .steps nodes => String.intercalate "\n" (Node.renders nodes)

def Call.render : Call → String
  | ⟨callee, args, spread, mode, _⟩ =>
    mode.apply (callee.render ++ "(" ++ arguments spread (Node.exprs args) ++ ")")

/-- What is called, as it is named in messages too. -/
def Callee.render : Callee → String
  | .function name => name
  | .method receiver name => receiver.expr ++ "." ++ name

def Handler.render : Handler → String
  | ⟨name, returns⟩ =>
    "if " ++ name ++ " != nil " ++ braced (Text.indent 1 (returnText (Node.exprs returns)))

def Element.render : Element → String
  | ⟨key, value⟩ => match key with
    | some k => k ++ ": " ++ value.expr
    | none => value.expr

def Node.exprs : List Node → List String
  | [] => []
  | n :: ns => n.expr :: Node.exprs ns

def Node.renders : List Node → List String
  | [] => []
  | n :: ns => n.render :: Node.renders ns

def Element.renders : List Element → List String
  | [] => []
  | e :: es => e.render :: Element.renders es

end

/-- Statements, indented. -/
def block (nodes : List Node) : String := blockText (Node.renders nodes)

/-! ## Lists of nodes -/

theorem Node.exprs_eq_map (ns : List Node) : Node.exprs ns = ns.map Node.expr := by
  induction ns with
  | nil => rfl
  | cons n ns ih => simp [Node.exprs, ih]

theorem Element.renders_eq_map (es : List Element) : Element.renders es = es.map Element.render := by
  induction es with
  | nil => rfl
  | cons e es ih => simp [Element.renders, ih]

end DataAccess.Go
