import DataAccess.Proofs.ImportSets
import DataAccess.Proofs.NodeParts

set_option autoImplicit false

/-! # Directives that do not appear

`Node.pruned` is a node without the directives that its text ignores, at any depth. It has the same
text (`Node.text_pruned`), and its imports are exactly those that are attached to something in the
text (`Node.mem_imports_pruned_iff`).

Imports are collected from all directives, also from those that the text ignores
(`Node.thinned_imports`). So a node may import more than its text needs; `ignored_directives_iff`
says when it does not. -/

namespace DataAccess.Go

/-! ## Pruning -/

mutual

/-- The node without the directives that do not appear where it stands. -/
def Node.pruned : Position → Node → Node
  | .expression, ⟨shape, _, _, _⟩ => ⟨shape.pruned, .discard, none, none⟩
  | .simple, ⟨shape, capture, _, _⟩ => ⟨shape.pruned, capture, none, none⟩
  | .statement, ⟨shape, capture, handler, cleanup⟩ =>
    ⟨shape.pruned, capture,
      match handler with
        | some h => some h.pruned
        | none => none,
      match cleanup with
        | some c => some c.pruned
        | none => none⟩

def Shape.pruned : Shape → Shape
  | .literal value => .literal value
  | .ident name => .ident name
  | .binary op left right => .binary op (left.pruned .expression) (right.pruned .expression)
  | .unary op operand => .unary op (operand.pruned .expression)
  | .index target key => .index (target.pruned .expression) (key.pruned .expression)
  | .declare name type value =>
    .declare name type (match value with
      | some v => some (v.pruned .expression)
      | none => none)
  | .branch condition yes no =>
    .branch (condition.pruned .expression) (Node.allPruned .statement yes)
      (Node.allPruned .statement no)
  | .loop condition body => .loop (condition.pruned .expression) (Node.allPruned .statement body)
  | .loopFrom start condition body =>
    .loopFrom (start.pruned .simple) (condition.pruned .expression)
      (Node.allPruned .statement body)
  | .loopStep start condition step body =>
    .loopStep (start.pruned .simple) (condition.pruned .expression) (step.pruned .simple)
      (Node.allPruned .statement body)
  | .range key value collection body =>
    .range key value (collection.pruned .expression) (Node.allPruned .statement body)
  | .call c => .call c.pruned
  | .composite type elements multiline => .composite type (Element.allPruned elements) multiline
  | .ret values => .ret (Node.allPruned .expression values)
  | .steps nodes => .steps (Node.allPruned .statement nodes)

def Call.pruned : Call → Call
  | ⟨callee, args, spread, mode, origin⟩ =>
    ⟨callee.pruned, Node.allPruned .expression args, spread, mode, origin⟩

def Callee.pruned : Callee → Callee
  | .function name => .function name
  | .method receiver name => .method (receiver.pruned .expression) name

def Handler.pruned : Handler → Handler
  | ⟨name, returns⟩ => ⟨name, Node.allPruned .expression returns⟩

def Element.pruned : Element → Element
  | ⟨key, value⟩ => ⟨key, value.pruned .expression⟩

def Node.allPruned : Position → List Node → List Node
  | _, [] => []
  | p, n :: ns => n.pruned p :: Node.allPruned p ns

def Element.allPruned : List Element → List Element
  | [] => []
  | e :: es => e.pruned :: Element.allPruned es

end

/-- Parts, each pruned where it stands. -/
def prunedParts (qs : List (Position × Node)) : List (Position × Node) :=
  qs.map fun q => (q.1, q.2.pruned q.1)

theorem prunedParts_each (p : Position) (ns : List Node) :
    prunedParts (Position.each p ns) = Position.each p (Node.allPruned p ns) := by
  induction ns with
  | nil => rfl
  | cons n ns ih => exact congrArg _ ih

theorem Element.map_value_allPruned (es : List Element) :
    (Element.allPruned es).map Element.value =
      Node.allPruned .expression (es.map Element.value) := by
  induction es with
  | nil => rfl
  | cons e es ih =>
      obtain ⟨key, value⟩ := e
      exact congrArg _ ih

theorem Call.parts_pruned (c : Call) : c.pruned.parts = prunedParts c.parts := by
  obtain ⟨callee, args, spread, mode, origin⟩ := c
  cases callee with
  | function name => exact (prunedParts_each _ args).symm
  | method receiver name => exact congrArg _ (prunedParts_each _ args).symm

theorem Call.attached_pruned (c : Call) : c.pruned.attached = c.attached := by
  obtain ⟨callee, args, spread, mode, origin⟩ := c
  rfl

theorem Handler.parts_pruned (h : Handler) : h.pruned.parts = prunedParts h.parts := by
  obtain ⟨name, returns⟩ := h
  exact (prunedParts_each _ returns).symm

/-- Pruning a shape prunes its parts and nothing else. -/
theorem Shape.parts_pruned (s : Shape) : s.pruned.parts = prunedParts s.parts := by
  cases s with
  | call c => exact c.parts_pruned
  | declare name type value => cases value <;> rfl
  | composite type elements multiline =>
      show Position.each .expression ((Element.allPruned elements).map Element.value) = _
      rw [Element.map_value_allPruned, ← prunedParts_each]
      rfl
  | _ => simp [Shape.pruned, Shape.parts, ← prunedParts_each, prunedParts]

theorem Shape.attached_pruned (s : Shape) : s.pruned.attached = s.attached := by
  cases s with
  | call c => exact c.attached_pruned
  | _ => rfl

/-! ## The text is kept -/

/-- Pruning keeps the texts of parts where they stand. -/
def KeepsTexts (qs : List (Position × Node)) : Prop :=
  ∀ q ∈ qs, (q.2.pruned q.1).text q.1 = q.2.text q.1

theorem keepsTexts_cons {p : Position} {n : Node} {qs : List (Position × Node)} :
    KeepsTexts ((p, n) :: qs) ↔ (n.pruned p).text p = n.text p ∧ KeepsTexts qs :=
  List.forall_mem_cons

theorem keepsTexts_append {qs rs : List (Position × Node)} :
    KeepsTexts (qs ++ rs) ↔ KeepsTexts qs ∧ KeepsTexts rs :=
  List.forall_mem_append

theorem KeepsTexts.exprs {ns : List Node} (h : KeepsTexts (Position.each .expression ns)) :
    Node.exprs (Node.allPruned .expression ns) = Node.exprs ns := by
  induction ns with
  | nil => rfl
  | cons n ns ih =>
      obtain ⟨hn, hns⟩ := keepsTexts_cons.1 h
      rw [Node.allPruned, Node.exprs, ih hns, Node.exprs]
      exact congrArg (· :: Node.exprs ns) hn

theorem KeepsTexts.renders {ns : List Node} (h : KeepsTexts (Position.each .statement ns)) :
    Node.renders (Node.allPruned .statement ns) = Node.renders ns := by
  induction ns with
  | nil => rfl
  | cons n ns ih =>
      obtain ⟨hn, hns⟩ := keepsTexts_cons.1 h
      rw [Node.allPruned, Node.renders, ih hns, Node.renders]
      exact congrArg (· :: Node.renders ns) hn

theorem KeepsTexts.elements {es : List Element}
    (h : KeepsTexts (Position.each .expression (es.map Element.value))) :
    Element.renders (Element.allPruned es) = Element.renders es := by
  induction es with
  | nil => rfl
  | cons e es ih =>
      obtain ⟨he, hes⟩ := keepsTexts_cons.1 h
      obtain ⟨key, value⟩ := e
      have hvalue : (value.pruned .expression).expr = value.expr := he
      cases key <;>
        simp only [Element.allPruned, Element.renders, Element.pruned, Element.render, ih hes,
          hvalue]

/-- Whether an operand needs parentheses is told from its shape. -/
theorem Node.bindsBelow_pruned (least : Nat) (p : Position) (n : Node) :
    (n.pruned p).bindsBelow least = n.bindsBelow least := by
  obtain ⟨shape, capture, handler, cleanup⟩ := n
  cases p <;> cases shape <;> rfl

theorem Call.render_pruned {c : Call} (h : KeepsTexts c.parts) : c.pruned.render = c.render := by
  obtain ⟨callee, args, spread, mode, origin⟩ := c
  cases callee with
  | function name =>
      have hargs := KeepsTexts.exprs h
      rw [Call.pruned, Call.render, Call.render, Callee.pruned, hargs]
  | method receiver name =>
      obtain ⟨hreceiver, hargs⟩ := keepsTexts_cons.1 h
      have hexpr : (receiver.pruned .expression).expr = receiver.expr := hreceiver
      rw [Call.pruned, Call.render, Call.render, Callee.pruned, Callee.render, Callee.render, hexpr,
        hargs.exprs]

theorem Handler.render_pruned {h : Handler} (hparts : KeepsTexts h.parts) :
    h.pruned.render = h.render := by
  obtain ⟨name, returns⟩ := h
  rw [Handler.pruned, Handler.render, Handler.render, KeepsTexts.exprs hparts]

/-- The text of a shape depends on the texts of its parts where they stand. -/
theorem Shape.render_pruned {s : Shape} (h : KeepsTexts s.parts) : s.pruned.render = s.render := by
  cases s with
  | literal value => rfl
  | ident name => rfl
  | binary op left right =>
      simp only [Shape.parts, keepsTexts_cons, Node.text] at h
      simp only [Shape.pruned, Shape.render, Node.bindsBelow_pruned, h]
  | unary op operand =>
      simp only [Shape.parts, keepsTexts_cons, Node.text] at h
      simp only [Shape.pruned, Shape.render, Node.bindsBelow_pruned, h]
  | index target key =>
      simp only [Shape.parts, keepsTexts_cons, Node.text] at h
      simp only [Shape.pruned, Shape.render, h]
  | declare name type value =>
      cases value with
      | none => rfl
      | some v =>
          have hvalue : (v.pruned .expression).expr = v.expr := (keepsTexts_cons.1 h).1
          simp only [Shape.pruned, Shape.render, hvalue]
  | branch condition yes no =>
      simp only [Shape.parts, keepsTexts_cons, keepsTexts_append, Node.text] at h
      obtain ⟨hcondition, hyes, hno⟩ := h
      have hempty : (Node.allPruned .statement no).isEmpty = no.isEmpty := by cases no <;> rfl
      simp only [Shape.pruned, Shape.render, hcondition, hyes.renders, hno.renders, hempty]
  | loop condition body =>
      simp only [Shape.parts, keepsTexts_cons, Node.text] at h
      simp only [Shape.pruned, Shape.render, h, h.2.renders]
  | loopFrom start condition body =>
      simp only [Shape.parts, keepsTexts_cons, Node.text] at h
      simp only [Shape.pruned, Shape.render, h, h.2.2.renders]
  | loopStep start condition step body =>
      simp only [Shape.parts, keepsTexts_cons, Node.text] at h
      simp only [Shape.pruned, Shape.render, h, h.2.2.2.renders]
  | range key value collection body =>
      simp only [Shape.parts, keepsTexts_cons, Node.text] at h
      simp only [Shape.pruned, Shape.render, h, h.2.renders]
  | call c => exact Call.render_pruned h
  | composite type elements multiline =>
      simp only [Shape.pruned, Shape.render, KeepsTexts.elements h]
  | ret values => simp only [Shape.pruned, Shape.render, KeepsTexts.exprs h]
  | steps nodes => simp only [Shape.pruned, Shape.render, KeepsTexts.renders h]

/-- What is pruned does not appear. -/
theorem Node.text_pruned (p : Position) (n : Node) : (n.pruned p).text p = n.text p := by
  induction p, n using Node.induction_parts with
  | h p n ih =>
      obtain ⟨hshape, hdirectives⟩ := keepsTexts_append.1 (show KeepsTexts (n.parts p) from ih)
      obtain ⟨shape, capture, handler, cleanup⟩ := n
      have hrender : shape.pruned.render = shape.render := Shape.render_pruned hshape
      cases p with
      | expression => exact hrender
      | simple => exact congrArg (capture.render ++ ·) hrender
      | statement =>
          -- Only here the handler and the cleanup have parts.
          obtain ⟨hhandler, hcleanup⟩ := keepsTexts_append.1 hdirectives
          cases handler with
          | none =>
              cases cleanup with
              | none => simp only [Node.pruned, Node.text, Node.render, hrender]
              | some c =>
                  simp only [Node.pruned, Node.text, Node.render, hrender,
                    Call.render_pruned (c := c) hcleanup]
          | some h =>
              have hh : h.pruned.render = h.render := Handler.render_pruned hhandler
              cases cleanup with
              | none => simp only [Node.pruned, Node.text, Node.render, hrender, hh]
              | some c =>
                  simp only [Node.pruned, Node.text, Node.render, hrender, hh,
                    Call.render_pruned (c := c) hcleanup]

/-! ## Imports of what appears -/

/-- An import is attached to something that appears in the text of a node where it stands. -/
inductive Node.Shows : Position → Node → Import → Prop where
  | attached {p : Position} {n : Node} {i : Import} (h : i ∈ n.attached p) : Shows p n i
  | part {p : Position} {n : Node} {i : Import} {q : Position × Node} (hq : q ∈ n.parts p)
      (h : Shows q.1 q.2 i) : Shows p n i

/-- An import belongs to a directive that the text of a node ignores, on the node itself or on
something that appears in its text. -/
inductive Node.Ignores : Position → Node → Import → Prop where
  | handler {p : Position} {n : Node} {i : Import} {h : Handler} (hp : p ≠ .statement)
      (hn : n.handler = some h) (hi : i ∈ h.imports) : Ignores p n i
  | cleanup {p : Position} {n : Node} {i : Import} {c : Call} (hp : p ≠ .statement)
      (hn : n.cleanup = some c) (hi : i ∈ c.imports) : Ignores p n i
  | part {p : Position} {n : Node} {i : Import} {q : Position × Node} (hq : q ∈ n.parts p)
      (h : Ignores q.1 q.2 i) : Ignores p n i

/-- The imports of a node belong to its shape, its handler or its cleanup. -/
theorem Node.imports_eq (n : Node) : n.imports =
    n.shape.imports ++ n.handler.elim [] Handler.imports ++ n.cleanup.elim [] Call.imports := by
  obtain ⟨shape, capture, handler, cleanup⟩ := n
  cases handler <;> cases cleanup <;> rfl

theorem Shape.imports_pruned (s : Shape) :
    s.pruned.imports = s.attached ++ partImports (prunedParts s.parts) := by
  rw [Shape.imports_eq, s.attached_pruned, s.parts_pruned]

theorem Call.imports_pruned (c : Call) :
    c.pruned.imports = c.attached ++ partImports (prunedParts c.parts) := by
  rw [Call.imports_eq, c.attached_pruned, c.parts_pruned]

theorem Handler.imports_pruned (h : Handler) :
    h.pruned.imports = partImports (prunedParts h.parts) := by
  rw [Handler.imports_eq, h.parts_pruned]

theorem Node.imports_pruned_statement (n : Node) : (n.pruned .statement).imports =
    n.shape.pruned.imports ++ n.handler.elim [] (fun h => h.pruned.imports) ++
      n.cleanup.elim [] fun c => c.pruned.imports := by
  obtain ⟨shape, capture, handler, cleanup⟩ := n
  cases handler <;> cases cleanup <;> rfl

theorem Node.imports_pruned_of_ne {p : Position} (h : p ≠ .statement) (n : Node) :
    (n.pruned p).imports = n.shape.pruned.imports := by
  obtain ⟨shape, capture, handler, cleanup⟩ := n
  cases p with
  | statement => exact absurd rfl h
  | expression => simp [Node.pruned, Node.imports]
  | simple => simp [Node.pruned, Node.imports]

theorem prunedParts_append (qs rs : List (Position × Node)) :
    prunedParts (qs ++ rs) = prunedParts qs ++ prunedParts rs := List.map_append

theorem mem_partImports_prunedParts {qs : List (Position × Node)} {i : Import} :
    i ∈ partImports (prunedParts qs) ↔ ∃ q ∈ qs, i ∈ (q.2.pruned q.1).imports := by
  simp [partImports, prunedParts]

/-- The imports of a pruned node are attached to it or belong to a pruned part. -/
theorem Node.mem_imports_pruned {p : Position} {n : Node} {i : Import} :
    i ∈ (n.pruned p).imports ↔
      i ∈ n.attached p ∨ ∃ q ∈ n.parts p, i ∈ (q.2.pruned q.1).imports := by
  rw [← mem_partImports_prunedParts, Node.parts, prunedParts_append, partImports_append,
    Node.attached]
  by_cases hp : p = .statement
  · subst hp
    rw [Node.imports_pruned_statement, Shape.imports_pruned, if_pos rfl, if_pos rfl,
      prunedParts_append, partImports_append]
    have hhandler : n.handler.elim [] (fun h => h.pruned.imports) =
        partImports (prunedParts (n.handler.elim [] Handler.parts)) := by
      cases n.handler with
      | none => rfl
      | some h => exact h.imports_pruned
    have hcleanup : n.cleanup.elim [] (fun c => c.pruned.imports) =
        n.cleanup.elim [] Call.attached ++
          partImports (prunedParts (n.cleanup.elim [] Call.parts)) := by
      cases n.cleanup with
      | none => rfl
      | some c => exact c.imports_pruned
    rw [hhandler, hcleanup]
    simp only [List.mem_append]
    tauto
  · rw [Node.imports_pruned_of_ne hp, Shape.imports_pruned, if_neg hp, if_neg hp]
    simp [prunedParts]

/-- The imports of a pruned node are those of what appears in the text. -/
theorem Node.mem_imports_pruned_iff {p : Position} {n : Node} {i : Import} :
    i ∈ (n.pruned p).imports ↔ n.Shows p i := by
  induction p, n using Node.induction_parts with
  | h p n ih =>
      rw [Node.mem_imports_pruned]
      constructor
      · rintro (hi | ⟨q, hq, hi⟩)
        · exact .attached hi
        · exact .part hq ((ih q hq).1 hi)
      · intro hshows
        cases hshows with
        | attached hi => exact .inl hi
        | part hq h => exact .inr ⟨_, hq, (ih _ hq).2 h⟩

/-! ## Imports of what is ignored -/

/-- A list of imports without some of them, all of which have a property. -/
inductive Thinned (P : Import → Prop) : List Import → List Import → Prop where
  | nil : Thinned P [] []
  | keep {is js : List Import} (i : Import) (h : Thinned P is js) : Thinned P (i :: is) (i :: js)
  | drop {is js : List Import} {i : Import} (hi : P i) (h : Thinned P is js) :
      Thinned P (i :: is) js

namespace Thinned

variable {P : Import → Prop} {is is' js js' : List Import}

theorem refl (is : List Import) : Thinned P is is := by
  induction is with
  | nil => exact .nil
  | cons i is ih => exact .keep i ih

/-- All imports may be left out if all have the property. -/
theorem all (h : ∀ i ∈ is, P i) : Thinned P is [] := by
  induction is with
  | nil => exact .nil
  | cons i is ih =>
      obtain ⟨hi, his⟩ := List.forall_mem_cons.1 h
      exact .drop hi (ih his)

theorem append (h : Thinned P is js) (h' : Thinned P is' js') :
    Thinned P (is ++ is') (js ++ js') := by
  induction h with
  | nil => exact h'
  | keep i _ ih => exact .keep i ih
  | drop hi _ ih => exact .drop hi ih

theorem mem_or (h : Thinned P is js) {i : Import} (hi : i ∈ is) : i ∈ js ∨ P i := by
  induction h with
  | nil => cases hi
  | keep j _ ih =>
      rcases List.mem_cons.1 hi with rfl | hi
      · exact .inl List.mem_cons_self
      · exact (ih hi).imp_left (List.mem_cons_of_mem j)
  | drop hj _ ih =>
      rcases List.mem_cons.1 hi with rfl | hi
      · exact .inr hj
      · exact ih hi

theorem subset (h : Thinned P is js) : js ⊆ is := by
  induction h with
  | nil => exact List.Subset.refl []
  | keep i _ ih => exact List.cons_subset_cons i ih
  | @drop _ _ i _ _ ih => exact List.subset_cons_of_subset i ih

/-- The first import that is looked for stays if none that is left out is looked for. -/
theorem find?_eq (h : Thinned P is js) {f : Import → Bool} (hf : ∀ i, P i → f i = false) :
    is.find? f = js.find? f := by
  induction h with
  | nil => rfl
  | keep i _ ih => rw [List.find?_cons, List.find?_cons, ih]
  | drop hi _ ih => rw [List.find?_cons, hf _ hi, ih]

theorem mono {Q : Import → Prop} (h : Thinned P is js) (hle : ∀ i, P i → Q i) :
    Thinned Q is js := by
  induction h with
  | nil => exact .nil
  | keep i _ ih => exact .keep i ih
  | drop hi _ ih => exact .drop (hle _ hi) ih

theorem parts {qs : List (Position × Node)}
    (h : ∀ q ∈ qs, Thinned P q.2.imports (q.2.pruned q.1).imports) :
    Thinned P (partImports qs) (partImports (prunedParts qs)) := by
  induction qs with
  | nil => exact .nil
  | cons q qs ih =>
      obtain ⟨hq, hqs⟩ := List.forall_mem_cons.1 h
      exact hq.append (ih hqs)

end Thinned

/-- Pruning leaves out the imports of ignored directives only. -/
theorem Node.thinned_imports (p : Position) (n : Node) :
    Thinned (n.Ignores p) n.imports (n.pruned p).imports := by
  induction p, n using Node.induction_parts with
  | h p n ih =>
      have hparts {qs : List (Position × Node)} (hqs : qs ⊆ n.parts p) :
          Thinned (n.Ignores p) (partImports qs) (partImports (prunedParts qs)) :=
        .parts fun q hq => (ih q (hqs hq)).mono fun i hi => .part (hqs hq) hi
      have hshape : Thinned (n.Ignores p) n.shape.imports n.shape.pruned.imports := by
        rw [Shape.imports_eq, Shape.imports_pruned]
        exact (Thinned.refl _).append (hparts (List.subset_append_left _ _))
      rw [Node.imports_eq]
      by_cases hp : p = .statement
      · subst hp
        rw [Node.imports_pruned_statement]
        have hdirectives : n.handler.elim [] Handler.parts ++ n.cleanup.elim [] Call.parts ⊆
            n.parts .statement := List.subset_append_right _ _
        refine (hshape.append ?_).append ?_
        · cases hn : n.handler with
          | none => exact .nil
          | some h =>
              rw [hn] at hdirectives
              simp only [Option.elim_some, Handler.imports_eq, Handler.parts_pruned]
              exact hparts (List.Subset.trans (List.subset_append_left _ _) hdirectives)
        · cases hn : n.cleanup with
          | none => exact .nil
          | some c =>
              rw [hn] at hdirectives
              simp only [Option.elim_some, Call.imports_eq, Call.attached_pruned, Call.parts_pruned]
              exact (Thinned.refl _).append
                (hparts (List.Subset.trans (List.subset_append_right _ _) hdirectives))
      · -- Elsewhere the handler and the cleanup are ignored as a whole.
        rw [Node.imports_pruned_of_ne hp, ← List.append_nil n.shape.pruned.imports,
          ← List.append_nil (n.shape.pruned.imports ++ [])]
        refine (hshape.append (.all fun i hi => ?_)).append (.all fun i hi => ?_)
        · cases hn : n.handler with
          | none => rw [hn] at hi; cases hi
          | some h => rw [hn] at hi; exact .handler hp hn hi
        · cases hn : n.cleanup with
          | none => rw [hn] at hi; cases hi
          | some c => rw [hn] at hi; exact .cleanup hp hn hi

/-- The imports of a part are imports of the node. -/
theorem Node.imports_part_subset {p : Position} {n : Node} {q : Position × Node}
    (hq : q ∈ n.parts p) : q.2.imports ⊆ n.imports := by
  intro i hi
  have hparts {qs : List (Position × Node)} (hqs : q ∈ qs) : i ∈ partImports qs :=
    List.mem_flatMap.2 ⟨q, hqs, hi⟩
  rw [Node.imports_eq, List.mem_append, List.mem_append]
  rcases List.mem_append.1 hq with hq | hq
  · refine .inl (.inl ?_)
    rw [Shape.imports_eq]
    exact List.mem_append_right _ (hparts hq)
  · split at hq
    · rcases List.mem_append.1 hq with hq | hq
      · cases hn : n.handler with
        | none => rw [hn] at hq; cases hq
        | some h =>
            rw [hn] at hq
            rw [Option.elim_some, Handler.imports_eq]
            exact .inl (.inr (hparts hq))
      · cases hn : n.cleanup with
        | none => rw [hn] at hq; cases hq
        | some c =>
            rw [hn] at hq
            rw [Option.elim_some, Call.imports_eq]
            exact .inr (List.mem_append_right _ (hparts hq))
    · cases hq

/-- Also what is ignored is collected. -/
theorem Node.Ignores.mem_imports {p : Position} {n : Node} {i : Import} (h : n.Ignores p i) :
    i ∈ n.imports := by
  induction h with
  | handler _ hn hi => simp [Node.imports_eq, hn, hi]
  | cleanup _ hn hi => simp [Node.imports_eq, hn, hi]
  | part hq _ ih => exact Node.imports_part_subset hq ih

/-- **Everything in the text is imported, and sometimes more.** Without the directives that the text
of a node ignores the text stays the same, and the imports are then exactly those of what appears in
it. All of these are collected from the node. The set of imports stays the same, too, exactly if
every import of an ignored directive is idle: the first import of its path is the same without the
ignored directives, and something that appears has the same dependency. -/
theorem ignored_directives_iff (p : Position) (n : Node) :
    (n.pruned p).text p = n.text p ∧
    (∀ i, i ∈ (n.pruned p).imports ↔ n.Shows p i) ∧
    (∀ i, n.Shows p i → i ∈ n.imports ∧ i.path ∈ (ImportSet.ofList n.imports).paths ∧
      ∀ d, i.dependency = some d → d ∈ (ImportSet.ofList n.imports).dependencies) ∧
    (ImportSet.ofList (n.pruned p).imports = ImportSet.ofList n.imports ↔
      ∀ i, n.Ignores p i →
        (n.pruned p).imports.find? (fun j => j.path = i.path) =
          n.imports.find? (fun j => j.path = i.path) ∧
        ∀ d, i.dependency = some d → ∃ j, n.Shows p j ∧ j.dependency = some d) := by
  have hthinned := n.thinned_imports p
  refine ⟨n.text_pruned p, fun i => Node.mem_imports_pruned_iff, fun i hi => ?_, ?_⟩
  · have hmem : i ∈ n.imports := hthinned.subset (Node.mem_imports_pruned_iff.2 hi)
    refine ⟨hmem, ImportSet.mem_paths_ofList.2 ⟨i, hmem, rfl⟩, fun d hd => ?_⟩
    exact ImportSet.mem_dependencies_insertAll.2 (.inr ⟨i, hmem, hd⟩)
  · rw [ImportSet.ofList_eq_iff]
    constructor
    · rintro ⟨hfind, hdependencies⟩ i hi
      refine ⟨hfind i.path, fun d hd => ?_⟩
      obtain ⟨j, hj, hjd⟩ := (hdependencies d).2 ⟨i, hi.mem_imports, hd⟩
      exact ⟨j, Node.mem_imports_pruned_iff.1 hj, hjd⟩
    · intro hidle
      refine ⟨fun path => ?_, fun d => ⟨fun ⟨j, hj, hd⟩ => ⟨j, hthinned.subset hj, hd⟩, ?_⟩⟩
      · by_cases hpath : ∃ i, n.Ignores p i ∧ i.path = path
        · obtain ⟨i, hi, rfl⟩ := hpath
          exact (hidle i hi).1
        · -- No import that is left out has this path.
          refine (hthinned.find?_eq fun i hi => ?_).symm
          exact decide_eq_false fun heq => hpath ⟨i, hi, heq⟩
      · rintro ⟨i, hi, hd⟩
        rcases hthinned.mem_or hi with hi | hi
        · exact ⟨i, hi, hd⟩
        · obtain ⟨j, hj, hjd⟩ := (hidle i hi).2 d hd
          exact ⟨j, Node.mem_imports_pruned_iff.2 hj, hjd⟩

/-- An operand with a cleanup, which its text ignores. -/
def cleanedOperand : Node :=
  .unary .not ⟨.ident "ok", .discard, none,
    some (.function "fmt.Println" [] (some ⟨"fmt", none, none⟩))⟩

theorem cleanedOperand_imports_more :
    cleanedOperand.render = "!ok" ∧ (cleanedOperand.pruned .statement).render = "!ok" ∧
      ImportSet.ofList (cleanedOperand.pruned .statement).imports ≠
        ImportSet.ofList cleanedOperand.imports := by
  refine ⟨by decide +kernel, by decide +kernel, by decide⟩

end DataAccess.Go
