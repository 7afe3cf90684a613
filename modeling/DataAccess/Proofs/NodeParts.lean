import DataAccess.Go.Node.Imports
import DataAccess.Go.Node.Printer

set_option autoImplicit false

/-! # The parts of a node

Which directives of a node appear in its text depends on where the node stands (`Position`): all of
them where a statement stands, the capture only in the head of a loop, and none where an expression
stands. `Node.parts` lists the nodes that the text of a node is made of, each with the position in
which it stands there, and `Node.attached` the imports that belong to the node itself.

A node has a property if it follows from that of its parts (`Node.induction_parts`). The imports of
a shape are those attached to it and those of its parts (`Shape.imports_eq`). -/

namespace DataAccess.Go

/-- Where a node stands. -/
inductive Position where
  | expression
  /-- In the head of a loop, at its start or at the end of a round. -/
  | simple
  | statement
  deriving DecidableEq

/-- The text of a node where it stands. -/
def Node.text : Position → Node → String
  | .expression, n => n.expr
  | .simple, n => n.simple
  | .statement, n => n.render

/-- Nodes that all stand in the same position. -/
def Position.each (p : Position) (ns : List Node) : List (Position × Node) := ns.map (p, ·)

/-! ## Parts and attached imports -/

/-- The receiver and the arguments. -/
def Call.parts (c : Call) : List (Position × Node) :=
  match c.callee with
  | .function _ => Position.each .expression c.args
  | .method receiver _ => (.expression, receiver) :: Position.each .expression c.args

/-- The import of the function that is called. -/
def Call.attached (c : Call) : List Import := c.origin.toList

def Handler.parts (h : Handler) : List (Position × Node) := Position.each .expression h.returns

def Shape.parts : Shape → List (Position × Node)
  | .literal _ => []
  | .ident _ => []
  | .binary _ left right => [(.expression, left), (.expression, right)]
  | .unary _ operand => [(.expression, operand)]
  | .index target key => [(.expression, target), (.expression, key)]
  | .declare _ _ value => Position.each .expression value.toList
  | .branch condition yes no =>
    (.expression, condition) :: (Position.each .statement yes ++ Position.each .statement no)
  | .loop condition body => (.expression, condition) :: Position.each .statement body
  | .loopFrom start condition body =>
    (.simple, start) :: (.expression, condition) :: Position.each .statement body
  | .loopStep start condition step body =>
    (.simple, start) :: (.expression, condition) :: (.simple, step) ::
      Position.each .statement body
  | .range _ _ collection body => (.expression, collection) :: Position.each .statement body
  | .call c => c.parts
  | .composite _ elements _ => Position.each .expression (elements.map Element.value)
  | .ret values => Position.each .expression values
  | .steps nodes => Position.each .statement nodes

/-- The imports of the types that a shape names and of the function that it calls. -/
def Shape.attached : Shape → List Import
  | .declare _ type _ => type.imports
  | .call c => c.attached
  | .composite type _ _ => type.elim [] TypeRef.imports
  | _ => []

/-- The parts of a node that appear where it stands. -/
def Node.parts (p : Position) (n : Node) : List (Position × Node) :=
  n.shape.parts ++
    if p = .statement then n.handler.elim [] Handler.parts ++ n.cleanup.elim [] Call.parts else []

/-- The imports of what a node itself shows where it stands. -/
def Node.attached (p : Position) (n : Node) : List Import :=
  n.shape.attached ++ if p = .statement then n.cleanup.elim [] Call.attached else []

/-! ## Induction -/

/-- All nodes of a list are smaller than a size. -/
def SmallerThan (size : Nat) (qs : List (Position × Node)) : Prop := ∀ q ∈ qs, sizeOf q.2 < size

theorem smallerThan_each {p : Position} {ns : List Node} {size : Nat} (h : sizeOf ns ≤ size) :
    SmallerThan size (Position.each p ns) := by
  intro q hq
  obtain ⟨n, hn, rfl⟩ := List.mem_map.1 hq
  exact Nat.lt_of_lt_of_le (List.sizeOf_lt_of_mem hn) h

theorem smallerThan_nil (size : Nat) : SmallerThan size [] := fun _ hq => nomatch hq

theorem smallerThan_cons {size : Nat} {p : Position} {n : Node} {qs : List (Position × Node)} :
    SmallerThan size ((p, n) :: qs) ↔ sizeOf n < size ∧ SmallerThan size qs :=
  List.forall_mem_cons

theorem smallerThan_append {size : Nat} {qs rs : List (Position × Node)} :
    SmallerThan size (qs ++ rs) ↔ SmallerThan size qs ∧ SmallerThan size rs :=
  List.forall_mem_append

theorem SmallerThan.mono {size size' : Nat} {qs : List (Position × Node)}
    (h : SmallerThan size qs) (hle : size ≤ size') : SmallerThan size' qs :=
  fun q hq => Nat.lt_of_lt_of_le (h q hq) hle

theorem sizeOf_map_value (es : List Element) : sizeOf (es.map Element.value) ≤ sizeOf es := by
  induction es with
  | nil => exact Nat.le_refl _
  | cons e es ih =>
      obtain ⟨key, value⟩ := e
      simp only [List.map_cons, List.cons.sizeOf_spec, Element.mk.sizeOf_spec]
      omega

theorem Call.smallerThan_parts (c : Call) : SmallerThan (sizeOf c) c.parts := by
  obtain ⟨callee, args, spread, mode, origin⟩ := c
  cases callee with
  | function name =>
      simp (disch := omega) only [Call.parts, smallerThan_each, Call.mk.sizeOf_spec]
  | method receiver name =>
      simp (disch := omega) only [Call.parts, smallerThan_cons, smallerThan_each,
        Call.mk.sizeOf_spec, Callee.method.sizeOf_spec, and_true]
      omega

theorem Shape.smallerThan_parts (s : Shape) : SmallerThan (sizeOf s) s.parts := by
  cases s with
  | call c => exact c.smallerThan_parts.mono (by simp)
  | composite type elements multiline =>
      have := sizeOf_map_value elements
      exact smallerThan_each (by simp only [Shape.composite.sizeOf_spec]; omega)
  | declare name type value =>
      cases value with
      | none => exact smallerThan_nil _
      | some v => simp [Shape.parts, Position.each, smallerThan_cons, smallerThan_nil]; omega
  | _ =>
      simp (disch := omega) [Shape.parts, smallerThan_nil, smallerThan_cons, smallerThan_append,
        smallerThan_each] <;> omega

theorem Node.smallerThan_parts (p : Position) (n : Node) : SmallerThan (sizeOf n) (n.parts p) := by
  obtain ⟨shape, capture, handler, cleanup⟩ := n
  rw [Node.mk.sizeOf_spec, Node.parts, smallerThan_append]
  refine ⟨shape.smallerThan_parts.mono (by omega), ?_⟩
  split
  · rw [smallerThan_append]
    constructor
    · cases handler with
      | none => exact smallerThan_nil _
      | some h =>
          obtain ⟨name, returns⟩ := h
          refine smallerThan_each ?_
          simp only [Option.some.sizeOf_spec, Handler.mk.sizeOf_spec]
          omega
    · cases cleanup with
      | none => exact smallerThan_nil _
      | some c =>
          refine c.smallerThan_parts.mono ?_
          simp only [Option.some.sizeOf_spec]
          omega
  · exact smallerThan_nil _

/-- A property of nodes where they stand follows from that of their parts. -/
theorem Node.induction_parts {P : Position → Node → Prop}
    (h : ∀ p n, (∀ q ∈ n.parts p, P q.1 q.2) → P p n) (p : Position) (n : Node) : P p n :=
  h p n fun q hq =>
    have := n.smallerThan_parts p q hq
    Node.induction_parts h q.1 q.2
termination_by sizeOf n

/-! ## Imports by parts -/

/-- The imports of several nodes. -/
def partImports (qs : List (Position × Node)) : List Import := qs.flatMap fun q => q.2.imports

@[simp] theorem partImports_nil : partImports [] = [] := rfl

@[simp] theorem partImports_cons (p : Position) (n : Node) (qs : List (Position × Node)) :
    partImports ((p, n) :: qs) = n.imports ++ partImports qs := List.flatMap_cons

@[simp] theorem partImports_append (qs rs : List (Position × Node)) :
    partImports (qs ++ rs) = partImports qs ++ partImports rs := List.flatMap_append

@[simp] theorem partImports_each (p : Position) (ns : List Node) :
    partImports (Position.each p ns) = Node.allImports ns := by
  rw [Node.allImports_eq_flatMap, partImports, Position.each, List.flatMap_map]

theorem Element.allImports_eq (es : List Element) :
    Element.allImports es = Node.allImports (es.map Element.value) := by
  induction es with
  | nil => rfl
  | cons e es ih =>
      obtain ⟨key, value⟩ := e
      rw [Element.allImports, ih]
      rfl

theorem Call.imports_eq (c : Call) : c.imports = c.attached ++ partImports c.parts := by
  obtain ⟨callee, args, spread, mode, origin⟩ := c
  cases callee <;> simp [Call.imports, Callee.imports, Call.attached, Call.parts]

theorem Handler.imports_eq (h : Handler) : h.imports = partImports h.parts := by
  obtain ⟨name, returns⟩ := h
  exact (partImports_each .expression returns).symm

/-- The imports of a shape are attached to it or belong to a part. -/
theorem Shape.imports_eq (s : Shape) : s.imports = s.attached ++ partImports s.parts := by
  cases s with
  | call c => exact c.imports_eq
  | declare name type value =>
      cases value <;> simp [Shape.imports, Shape.attached, Shape.parts, Node.allImports]
  | _ => simp [Shape.imports, Shape.attached, Shape.parts, Element.allImports_eq]

end DataAccess.Go
