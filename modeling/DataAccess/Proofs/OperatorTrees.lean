import DataAccess.Proofs.PrintedOperators

set_option autoImplicit false

/-! # Printed operator trees

A node of binary operators over names is printed with parentheses only where an operand binds too
loosely. The text is read back by the grammar of expressions (`formula?`). No sign of a binary
operator runs into another one, so every such node is read back as the tree that it is
(`formulas_read_back`). -/

namespace DataAccess.Go

/-- A tree of binary operators over names. -/
inductive Formula where
  | name (s : String)
  | binary (op : BinaryOp) (left right : Formula)
  deriving DecidableEq

namespace Formula

/-- The names at the leaves. -/
def names : Formula → List String
  | name s => [s]
  | binary _ f g => f.names ++ g.names

/-- The node of a tree, without directives. -/
def node : Formula → Node
  | name s => .ident s
  | binary op f g => .binary op f.node g.node

/-- The tree as an expression. -/
def term : Formula → Term
  | name s => .name s
  | binary op f g => .binary op f.term g.term

end Formula

/-- The tree that an expression is, if it is one. -/
def Term.formula? : Term → Option Formula
  | .name s => some (.name s)
  | .binary op l r => l.formula?.bind fun f => r.formula?.map fun g => .binary op f g
  | _ => none

/-- Reads a text as one tree of binary operators. -/
def formula? (text : String) : Option Formula := (term? text).bind Term.formula?

theorem Term.formula?_eq_some_iff {t : Term} {f : Formula} :
    t.formula? = some f ↔ t = f.term := by
  constructor
  · intro h
    fun_induction Term.formula? t generalizing f with
    | case1 s =>
        cases h
        rfl
    | case2 op l r ihl ihr =>
        obtain ⟨g, hg, h⟩ := Option.bind_eq_some_iff.1 h
        obtain ⟨g', hg', rfl⟩ := Option.map_eq_some_iff.1 h
        rw [ihl hg, ihr hg', Formula.term]
    | case3 => cases h
  · rintro rfl
    induction f with
    | name s => rfl
    | binary op f g ihf ihg => simp [Formula.term, Term.formula?, ihf, ihg]

/-- A text is read as the tree that its lexemes spell. -/
theorem formula?_eq_some_iff {text : String} {f : Formula} :
    formula? text = some f ↔ ∃ ls, lexemes? text = some ls ∧ Spells 1 ls f.term := by
  simp only [formula?, Option.bind_eq_some_iff, Term.formula?_eq_some_iff, exists_eq_right,
    term?_eq_some_iff]

/-! ## Nodes of operators over names -/

/-- A node is an operator tree, whatever directives it and its operands have. -/
inductive Node.IsFormula : Node → Formula → Prop where
  | ident {s : String} {capture : Capture} {handler : Option Handler} {cleanup : Option Call} :
      IsFormula ⟨.ident s, capture, handler, cleanup⟩ (.name s)
  | binary {op : BinaryOp} {left right : Node} {f g : Formula} {capture : Capture}
      {handler : Option Handler} {cleanup : Option Call} (hf : left.IsFormula f)
      (hg : right.IsFormula g) :
      IsFormula ⟨.binary op left right, capture, handler, cleanup⟩ (.binary op f g)

theorem Formula.isFormula_node (f : Formula) : f.node.IsFormula f := by
  induction f with
  | name s => exact .ident
  | binary op f g ihf ihg => exact .binary ihf ihg

theorem Node.IsFormula.isTerm {n : Node} {f : Formula} (h : n.IsFormula f)
    (hnames : ∀ s ∈ f.names, isName s = true) : n.IsTerm f.term := by
  induction h with
  | @ident s => exact .ident (hnames s List.mem_cons_self)
  | binary _ _ ihf ihg =>
      obtain ⟨hf, hg⟩ := List.forall_mem_append.1 hnames
      exact .binary (ihf hf) (ihg hg)

theorem Formula.unfused_term (f : Formula) : f.term.unfused = true := by
  induction f with
  | name s => rfl
  | binary op f g ihf ihg => rw [term, Term.unfused, ihf, ihg, Bool.and_self]

theorem formula?_expr {n : Node} {f : Formula} (h : n.IsFormula f)
    (hnames : ∀ s ∈ f.names, isName s = true) : formula? n.expr = some f := by
  rw [formula?, (h.isTerm hnames).term?_expr, if_pos f.unfused_term, Option.bind_some]
  exact Term.formula?_eq_some_iff.2 rfl

/-- **Printed operator trees are read back.** Reading a text gives exactly the trees that its
lexemes spell by the grammar of Go. The text of a node of binary operators over identifiers is read
as the tree of the node, whatever directives stand at it; without directives this gives the node
itself. So nodes with one text are the same tree, and no operand is moved to another operator. -/
theorem formulas_read_back :
    (∀ text f, formula? text = some f ↔ ∃ ls, lexemes? text = some ls ∧ Spells 1 ls f.term) ∧
    (∀ (n : Node) (f : Formula), n.IsFormula f → (∀ s ∈ f.names, isName s = true) →
      formula? n.expr = some f) ∧
    (∀ f : Formula, (∀ s ∈ f.names, isName s = true) →
      (formula? f.node.expr).map Formula.node = some f.node) ∧
    ∀ (n n' : Node) (f f' : Formula), n.IsFormula f → n'.IsFormula f' →
      (∀ s ∈ f.names ++ f'.names, isName s = true) → n.expr = n'.expr → f = f' := by
  refine ⟨fun _ _ => formula?_eq_some_iff, fun _ _ => formula?_expr, ?_, ?_⟩
  · intro f hnames
    rw [formula?_expr f.isFormula_node hnames, Option.map_some]
  · intro n n' f f' h h' hnames heq
    obtain ⟨hf, hf'⟩ := List.forall_mem_append.1 hnames
    have hread := formula?_expr h hf
    rw [heq, formula?_expr h' hf'] at hread
    exact (Option.some.inj hread).symm

/-- Operators of all levels; the operands at the right need parentheses, the one at the left does
not. -/
def mixedFormula : Formula :=
  .binary .or (.binary .lt (.binary .sub (.binary .sub (.name "a") (.name "b")) (.name "c"))
      (.binary .add (.name "_") (.binary .add (.name "e") (.name "π"))))
    (.binary .and (.name "x") (.binary .or (.name "y") (.binary .eq (.name "z") (.name "a"))))

theorem mixedFormula_read_back :
    mixedFormula.node.expr = "a - b - c < _ + (e + π) || x && (y || z == a)" ∧
      (formula? mixedFormula.node.expr).map Formula.node = some mixedFormula.node := by
  have hnames : ∀ s ∈ mixedFormula.names, isName s = true := by
    decide +kernel
  exact ⟨by decide +kernel, formulas_read_back.2.2.1 mixedFormula hnames⟩

end DataAccess.Go
