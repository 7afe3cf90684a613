import DataAccess.Go.Node.Basic

set_option autoImplicit false

/-! # The imports of nodes

`Node.imports` lists every import that a type or a call below a node names, in the order of the
text. -/

namespace DataAccess.Go

mutual

/-- The imports of a node: those of its shape, of its handler and of its cleanup. -/
def Node.imports : Node → List Import
  | ⟨shape, _, handler, cleanup⟩ =>
    shape.imports ++
    (match handler with
      | some h => h.imports
      | none => []) ++
    (match cleanup with
      | some c => c.imports
      | none => [])

def Shape.imports : Shape → List Import
  | .literal _ => []
  | .ident _ => []
  | .binary _ left right => left.imports ++ right.imports
  | .unary _ operand => operand.imports
  | .index target key => target.imports ++ key.imports
  | .declare _ type value =>
    type.imports ++
    (match value with
      | some v => v.imports
      | none => [])
  | .branch condition yes no => condition.imports ++ Node.allImports yes ++ Node.allImports no
  | .loop condition body => condition.imports ++ Node.allImports body
  | .loopFrom start condition body =>
    start.imports ++ condition.imports ++ Node.allImports body
  | .loopStep start condition step body =>
    start.imports ++ condition.imports ++ step.imports ++ Node.allImports body
  | .range _ _ collection body => collection.imports ++ Node.allImports body
  | .call c => c.imports
  | .composite type elements _ => type.elim [] TypeRef.imports ++ Element.allImports elements
  | .ret values => Node.allImports values
  | .steps nodes => Node.allImports nodes

def Call.imports : Call → List Import
  | ⟨callee, args, _, _, origin⟩ => origin.toList ++ callee.imports ++ Node.allImports args

def Callee.imports : Callee → List Import
  | .function _ => []
  | .method receiver _ => receiver.imports

def Handler.imports : Handler → List Import
  | ⟨_, returns⟩ => Node.allImports returns

def Element.imports : Element → List Import
  | ⟨_, value⟩ => value.imports

def Node.allImports : List Node → List Import
  | [] => []
  | n :: ns => n.imports ++ Node.allImports ns

def Element.allImports : List Element → List Import
  | [] => []
  | e :: es => e.imports ++ Element.allImports es

end

theorem Node.allImports_eq_flatMap (ns : List Node) :
    Node.allImports ns = ns.flatMap Node.imports := by
  induction ns with
  | nil => rfl
  | cons n ns ih => simp [Node.allImports, ih]

theorem Element.allImports_eq_flatMap (es : List Element) :
    Element.allImports es = es.flatMap Element.imports := by
  induction es with
  | nil => rfl
  | cons e es ih => simp [Element.allImports, ih]

end DataAccess.Go
