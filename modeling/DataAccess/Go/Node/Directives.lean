import DataAccess.Error
import DataAccess.Go.Node.Printer

set_option autoImplicit false

/-! # Putting directives on nodes

`Node.direct` puts directives on a node. What is not given stays as it is. The node must not both
assign and define, and a call that does not run at once has no result and no error. -/

namespace DataAccess.Go

/-- Directives for a node. -/
structure Directives where
  assign : Option (List String) := none
  define : Option (List String) := none
  onError : Option Handler := none
  cleanup : Option Call := none

namespace Capture

/-- The variables that are assigned. -/
def assigned? : Capture → Option (List String)
  | assign names => some names
  | _ => none

/-- The variables that are defined. -/
def defined? : Capture → Option (List String)
  | define names => some names
  | _ => none

/-- The capture that assigns or defines variables; it cannot do both. -/
def ofSides : Option (List String) → Option (List String) → Except CompileError Capture
  | some a, some d => .error (.conflictingCapture a d)
  | some a, none => .ok (assign a)
  | none, some d => .ok (define d)
  | none, none => .ok discard

end Capture

/-- Checks that a call which does not run at once has neither a capture nor a handler. -/
def Call.check (c : Call) (capture : Capture) (handler : Option Handler) :
    Except CompileError Unit :=
  if c.mode = .immediate then .ok ()
  else if capture ≠ .discard then
    .error (.conflictingCallMode c.callee.render
      ("a " ++ c.mode.keyword ++ " call has no result to capture"))
  else if handler.isSome then
    .error (.conflictingCallMode c.callee.render
      ("a " ++ c.mode.keyword ++ " call has no error to handle"))
  else .ok ()

/-- Checks that the directives suit a shape. -/
def Shape.check (s : Shape) (capture : Capture) (handler : Option Handler) :
    Except CompileError Unit :=
  match s with
  | .call c => c.check capture handler
  | _ => .ok ()

/-- The node with directives put on it. -/
def Node.direct (n : Node) (d : Directives) : Except CompileError Node := do
  let capture ← Capture.ofSides (d.assign <|> n.capture.assigned?) (d.define <|> n.capture.defined?)
  let handler := d.onError <|> n.handler
  n.shape.check capture handler
  return ⟨n.shape, capture, handler, d.cleanup <|> n.cleanup⟩

end DataAccess.Go
