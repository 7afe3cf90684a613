import DataAccess.Go.Node.Printer
import DataAccess.Proofs.ExpressionTokens

set_option autoImplicit false

/-! # Printed expressions of operators

Nodes built from identifiers, integers, unary and binary operators (`Node.IsTerm`) are printed with
parentheses around a binary operand that binds too loosely, and with no blank behind a unary
operator. The lexemes of the text are those of the expression (`Node.IsTerm.printed`), unless a
minus sign or an ampersand stands directly in front of the same sign and the two are read as one;
such a text cannot start an expression (`Node.IsTerm.misplaced`). So a printed expression is read
back, unless signs run into each other (`Node.IsTerm.term?_expr`).

The lexemes of an expression spell it (`Node.IsTerm.spells`). With an index, a selector or arguments
behind them they spell another one, in which these belong to the last operand
(`Node.IsTerm.spells_attach`). -/

namespace DataAccess.Go

/-! ## Expressions of names, numbers and operators -/

/-- A node is an expression of identifiers, integers and operators, whatever directives it and its
operands have. A negative integer is a negation. -/
inductive Node.IsTerm : Node → Term → Prop where
  | ident {s : String} {capture : Capture} {handler : Option Handler} {cleanup : Option Call}
      (hs : isName s = true) : IsTerm ⟨.ident s, capture, handler, cleanup⟩ (.name s)
  | natural {n : Nat} {capture : Capture} {handler : Option Handler} {cleanup : Option Call} :
      IsTerm ⟨.literal (.int (.ofNat n)), capture, handler, cleanup⟩ (.number n)
  | negative {n : Nat} {capture : Capture} {handler : Option Handler} {cleanup : Option Call} :
      IsTerm ⟨.literal (.int (.negSucc n)), capture, handler, cleanup⟩
        (.unary .neg (.number (n + 1)))
  | unary {op : UnaryOp} {operand : Node} {t : Term} {capture : Capture}
      {handler : Option Handler} {cleanup : Option Call} (ht : operand.IsTerm t) :
      IsTerm ⟨.unary op operand, capture, handler, cleanup⟩ (.unary op t)
  | binary {op : BinaryOp} {left right : Node} {l r : Term} {capture : Capture}
      {handler : Option Handler} {cleanup : Option Call} (hl : left.IsTerm l)
      (hr : right.IsTerm r) :
      IsTerm ⟨.binary op left right, capture, handler, cleanup⟩ (.binary op l r)

namespace Term

/-- The level at which an expression is spelled. -/
def level : Term → Nat
  | joint j _ _ => j.level
  | unary _ _ => unaryLevel
  | _ => primaryLevel

/-- Lexemes in parentheses, if asked for. -/
def bracketed (needed : Bool) (ls : List Lexeme) : List Lexeme :=
  if needed then .open :: (ls ++ [.close]) else ls

/-- The lexemes of an expression of names, numbers and operators. -/
def lexemes : Term → List Lexeme
  | name s => [.name s]
  | number n => [.number n]
  | unary op t => op.lexeme :: bracketed (t.level < unaryLevel) t.lexemes
  | joint j l r =>
    bracketed (l.level < j.level) l.lexemes ++
      .joint j :: bracketed (r.level < j.level + 1) r.lexemes
  | _ => []

/-- Whether the last lexeme is a number. -/
def endsInNumber : Term → Bool
  | number _ => true
  | unary _ t => !decide (t.level < unaryLevel) && t.endsInNumber
  | joint j _ r => !decide (r.level < j.level + 1) && r.endsInNumber
  | _ => false

/-- Puts something behind the last operand that has no parentheses of its own, in place of putting
it behind the whole expression. -/
def attach (f : Term → Term) : Term → Term
  | unary op t => unary op (if t.level < unaryLevel then f t else t.attach f)
  | joint j l r => joint j l (if r.level < j.level + 1 then f r else r.attach f)
  | t => f t

end Term

/-- The signs that form another sign if they are doubled. -/
def UnaryOp.doubles : UnaryOp → Bool
  | neg => true
  | addressOf => true
  | _ => false

namespace Term

/-- Whether an expression starts with the sign of a unary operator. -/
def startsWith (op : UnaryOp) : Term → Bool
  | unary op' _ => op' == op
  | _ => false

/-- Whether no sign runs into the next one. -/
def unfused : Term → Bool
  | unary op t => !(op.doubles && t.startsWith op) && t.unfused
  | joint _ l r => l.unfused && r.unfused
  | _ => true

end Term

section Spelling

variable {n : Node} {t : Term}

theorem Node.IsTerm.one_le_level (h : n.IsTerm t) : 1 ≤ t.level := by
  cases h with
  | @binary op => exact op.level_bounds.1
  | ident | natural => exact (by decide : 1 ≤ primaryLevel)
  | negative | unary => exact (by decide : 1 ≤ unaryLevel)

/-- An expression fits where it stands, in parentheses if it binds too loosely. -/
theorem spells_bracketed {ls : List Lexeme} (h : Spells t.level ls t) (hlevel : 1 ≤ t.level)
    {least : Nat} (hle : least ≤ primaryLevel) :
    Spells least (Term.bracketed (t.level < least) ls) t := by
  by_cases hlow : t.level < least
  · rw [Term.bracketed, if_pos (decide_eq_true hlow)]
    exact (Spells.parens (h.loosen hlevel)).loosen hle
  · rw [Term.bracketed, if_neg (by simpa using hlow)]
    exact h.loosen (Nat.le_of_not_lt hlow)

/-- The lexemes of an expression spell it. -/
theorem Node.IsTerm.spells (h : n.IsTerm t) : Spells t.level t.lexemes t := by
  induction h with
  | ident _ => exact .leaf rfl
  | natural => exact .leaf rfl
  | @negative m =>
      have hnumber : Spells primaryLevel [.number (m + 1)] (.number (m + 1)) := .leaf rfl
      exact .unary .neg hnumber.tighter
  | @unary op _ t _ _ _ ht ih =>
      exact .unary op (spells_bracketed ih ht.one_le_level (by decide))
  | @binary op _ _ l r _ _ _ hl hr ihl ihr =>
      have hlow : op.level < unaryLevel := op.level_bounds.2
      have hprimary : op.level + 1 ≤ primaryLevel := Nat.succ_le_succ (Nat.le_of_lt hlow)
      exact Spells.joint (j := .operator op)
        (spells_bracketed ihl hl.one_le_level (Nat.le_of_succ_le hprimary))
        (spells_bracketed ihr hr.one_le_level hprimary)

/-- What follows an operand belongs to it. -/
def Suffix (suffix : List Lexeme) (f : Term → Term) : Prop :=
  ∀ ls t, Spells primaryLevel ls t → Spells primaryLevel (ls ++ suffix) (f t)

/-- What follows an operand in parentheses belongs to it; without them, it belongs to the last
operand in it. -/
theorem spells_bracketed_append {ls suffix : List Lexeme} {f : Term → Term}
    (hsuffix : Suffix suffix f) (h : Spells t.level ls t) (hlevel : 1 ≤ t.level)
    (hattach : Spells t.level (ls ++ suffix) (t.attach f)) {least : Nat}
    (hle : least ≤ primaryLevel) :
    Spells least (Term.bracketed (t.level < least) ls ++ suffix)
      (if t.level < least then f t else t.attach f) := by
  by_cases hlow : t.level < least
  · rw [Term.bracketed, if_pos (decide_eq_true hlow), if_pos hlow]
    exact (hsuffix _ _ (.parens (h.loosen hlevel))).loosen hle
  · rw [Term.bracketed, if_neg (by simpa using hlow), if_neg hlow]
    exact hattach.loosen (Nat.le_of_not_lt hlow)

/-- What stands behind an expression belongs to its last operand. -/
theorem Node.IsTerm.spells_attach (h : n.IsTerm t) {suffix : List Lexeme} {f : Term → Term}
    (hsuffix : Suffix suffix f) : Spells t.level (t.lexemes ++ suffix) (t.attach f) := by
  induction h with
  | ident _ => exact hsuffix _ _ (.leaf rfl)
  | natural => exact hsuffix _ _ (.leaf rfl)
  | @negative m =>
      have hnumber := hsuffix [.number (m + 1)] _ (.leaf rfl)
      exact .unary .neg hnumber.tighter
  | @unary op _ t _ _ _ ht ih =>
      exact .unary op (spells_bracketed_append hsuffix ht.spells ht.one_le_level ih (by decide))
  | @binary op _ _ l r _ _ _ hl hr _ ihr =>
      have hlow : op.level < unaryLevel := op.level_bounds.2
      have hprimary : op.level + 1 ≤ primaryLevel := Nat.succ_le_succ (Nat.le_of_lt hlow)
      have hleft := spells_bracketed hl.spells hl.one_le_level (Nat.le_of_succ_le hprimary)
      have hright := spells_bracketed_append hsuffix hr.spells hr.one_le_level ihr hprimary
      rw [Term.lexemes, List.append_assoc, List.cons_append]
      exact Spells.joint (j := .operator op) hleft hright

end Spelling

/-! ## Printed expressions -/

/-- What is being read is a number or not; if it is not, a point does not go on with it. -/
def Scan.EndsIn (p : Scan) : Bool → Prop
  | true => ∃ read, p = .word true read
  | false => p.takes '.' = false

/-- A text has these lexemes, the last of which is a number or not. -/
def Printed (text : String) (ls : List Lexeme) (number : Bool) : Prop :=
  ∃ p, Scanned text.toList ls p ∧ p.EndsIn number

/-- A text in parentheses, if asked for. -/
theorem Printed.parenthesize {text : String} {ls : List Lexeme} {number : Bool}
    (h : Printed text ls number) (needed : Bool) :
    Printed (Go.parenthesize needed text) (Term.bracketed needed ls) (!needed && number) := by
  obtain ⟨p, hscanned, hends⟩ := h
  cases needed with
  | true =>
      refine ⟨.sign [')'], ?_, (by decide : (Scan.sign [')']).takes '.' = false)⟩
      simpa [Go.parenthesize, Term.bracketed] using hscanned.parens
  | false => exact ⟨p, hscanned, hends⟩

theorem toList_render_ofNat (n : Nat) :
    (Literal.int (.ofNat n)).render.toList = Nat.toDigits 10 n :=
  Nat.toList_repr

theorem toList_render_negSucc (n : Nat) :
    (Literal.int (.negSucc n)).render.toList = '-' :: Nat.toDigits 10 (n + 1) := by
  show ("-" ++ (n + 1).repr).toList = _
  rw [String.toList_append, Nat.toList_repr]
  rfl

/-- The text of an operand of a unary operator. -/
def operandText (n : Node) : List Char :=
  (parenthesize (n.bindsBelow unaryPrecedence) n.expr).toList

theorem toList_render_unary (op : UnaryOp) (operand : Node) :
    (Shape.unary op operand).render.toList = op.char :: operandText operand := by
  rw [Shape.render, String.toList_append, op.toList_symbol]
  rfl

theorem BinaryOp.precedence_eq_level (op : BinaryOp) : op.precedence = op.level := by
  cases op <;> rfl

theorem toList_render_binary (op : BinaryOp) (left right : Node) :
    (Shape.binary op left right).render.toList =
      (parenthesize (left.bindsBelow op.level) left.expr).toList ++ ' ' :: (op.symbol.toList ++
        ' ' :: (parenthesize (right.bindsBelow (op.level + 1)) right.expr).toList) := by
  rw [← op.precedence_eq_level]
  simp [Shape.render]

theorem exists_cons_toDigits (n : Nat) :
    ∃ c cs, Nat.toDigits 10 n = c :: cs ∧ isWordPart c = true := by
  obtain ⟨c, cs, hchars⟩ := List.exists_cons_of_ne_nil (Nat.toDigits_ne_nil (n := n) (b := 10))
  have hc : c ∈ Nat.toDigits 10 n := hchars ▸ List.mem_cons_self
  have hdigit := Nat.isDigit_of_mem_toDigits (by decide) (by decide) hc
  exact ⟨c, cs, hchars, isWordPart_of_isDigit hdigit⟩

/-- A sign goes on with a sign if the two are a doubled sign. -/
theorem UnaryOp.takes_char (op op' : UnaryOp) :
    (Scan.sign [op.char]).takes op'.char = (op.doubles && op' == op) := by
  cases op <;> cases op' <;> decide

theorem UnaryOp.misplaced_double (op : UnaryOp) (h : op.doubles = true) :
    Misplaced [op.char, op.char] := by
  cases op with
  | deref | not => cases h
  | addressOf | neg => exact misplaced_sign (by decide) (by decide) (by decide) (by decide)

/-- Parentheses do not help. -/
theorem Misplaced.parenthesize {text : String} (h : Misplaced text.toList) (needed : Bool) :
    Misplaced (Go.parenthesize needed text).toList := by
  cases needed with
  | false => exact h
  | true =>
      have hinner := h.append [')']
      obtain ⟨d, ds, hchars⟩ : ∃ d ds, text.toList ++ [')'] = d :: ds :=
        List.exists_cons_of_ne_nil (by simp)
      rw [hchars] at hinner
      have hmisplaced := hinner.behind scanned_open (Scan.takes_of_wholeSign (by decide) d) rfl
      simpa [Go.parenthesize, ← hchars] using hmisplaced

namespace Node.IsTerm

variable {n : Node} {t : Term}

/-- An operand gets parentheses exactly if it is spelled at a lower level only. -/
theorem bindsBelow (h : n.IsTerm t) {least : Nat} (hle : least ≤ unaryLevel) :
    n.bindsBelow least = decide (t.level < least) := by
  cases h with
  | ident | natural =>
      exact (decide_eq_false (Nat.not_lt.2 (Nat.le_succ_of_le hle))).symm
  | negative | unary => exact (decide_eq_false (Nat.not_lt.2 hle)).symm
  | @binary op =>
      show decide (op.precedence < least) = decide (op.level < least)
      rw [BinaryOp.precedence_eq_level]

/-- An operand of a unary operator starts with a parenthesis, a word or a sign of its own. -/
theorem operand_first (h : n.IsTerm t) :
    ∃ c cs, operandText n = c :: cs ∧
      (c = '(' ∨ isWordPart c = true ∨ ∃ op u, t = .unary op u ∧ c = op.char) := by
  cases h with
  | @ident s _ _ _ hs =>
      obtain ⟨c, cs, hchars, -, hparts⟩ := exists_cons_of_isName hs
      exact ⟨c, cs, hchars, .inr (.inl (hparts c List.mem_cons_self))⟩
  | @natural m =>
      obtain ⟨c, cs, hchars, hc⟩ := exists_cons_toDigits m
      exact ⟨c, cs, (toList_render_ofNat m).trans hchars, .inr (.inl hc)⟩
  | @negative m => exact ⟨'-', _, toList_render_negSucc m, .inr (.inr ⟨.neg, _, rfl, rfl⟩)⟩
  | @unary op operand u =>
      refine ⟨op.char, operandText operand, ?_, .inr (.inr ⟨op, u, rfl, rfl⟩)⟩
      exact toList_render_unary op operand
  | @binary op left right _ _ capture handler cleanup =>
      have hlow : op.precedence < unaryPrecedence := by cases op <;> decide
      have htext : operandText ⟨.binary op left right, capture, handler, cleanup⟩ =
          ("(" ++ (Shape.binary op left right).render ++ ")").toList :=
        congrArg String.toList (if_pos (decide_eq_true hlow))
      refine ⟨'(', ((Shape.binary op left right).render ++ ")").toList, ?_, .inl rfl⟩
      rw [htext, String.append_assoc, String.toList_append]
      rfl

/-- A sign ends in front of an operand, unless the two start another sign. -/
theorem sign_ends (h : n.IsTerm t) {op : UnaryOp} (hop : (op.doubles && t.startsWith op) = false) :
    ∃ c cs, operandText n = c :: cs ∧ (Scan.sign [op.char]).takes c = false := by
  obtain ⟨c, cs, hchars, rfl | hword | ⟨op', u, rfl, rfl⟩⟩ := h.operand_first
  · exact ⟨_, cs, hchars, (scanned_unary op).takes_of_parts (by decide)⟩
  · exact ⟨c, cs, hchars, Scan.takes_sign_of_isWordPart hword _⟩
  · exact ⟨op'.char, cs, hchars, (op.takes_char op').trans hop⟩

/-- The lexemes of an operand in its place. -/
theorem printed_operand (h : n.IsTerm t) (hprinted : Printed n.expr t.lexemes t.endsInNumber)
    {least : Nat} (hle : least ≤ unaryLevel) :
    Printed (parenthesize (n.bindsBelow least) n.expr)
      (Term.bracketed (t.level < least) t.lexemes)
      (!decide (t.level < least) && t.endsInNumber) := by
  rw [h.bindsBelow hle]
  exact hprinted.parenthesize _

/-- The text of an expression has its lexemes, if no sign runs into the next one. -/
theorem printed (h : n.IsTerm t) (hunfused : t.unfused = true) :
    Printed n.expr t.lexemes t.endsInNumber := by
  induction h with
  | @ident s _ _ _ hs =>
      exact ⟨_, scanned_name hs, (by decide : (Scan.word false []).takes '.' = false)⟩
  | @natural m =>
      refine ⟨_, ?_, Nat.toDigits 10 m, rfl⟩
      exact (toList_render_ofNat m).symm ▸ scanned_number m
  | @negative m =>
      refine ⟨_, ?_, Nat.toDigits 10 (m + 1), rfl⟩
      obtain ⟨c, cs, hchars, hc⟩ := exists_cons_toDigits (m + 1)
      have hnumber := scanned_number (m + 1)
      have hsign := Scan.takes_sign_of_isWordPart hc ['-']
      rw [hchars] at hnumber ⊢
      have htext := (toList_render_negSucc m).trans (congrArg ('-' :: ·) hchars)
      exact htext.symm ▸ (scanned_unary .neg).append hnumber hsign
  | @unary op operand t _ _ _ ht ih =>
      rw [Term.unfused, Bool.and_eq_true, Bool.not_eq_true'] at hunfused
      obtain ⟨c, cs, hchars, hsign⟩ := ht.sign_ends hunfused.1
      obtain ⟨p, hp, hends⟩ := ht.printed_operand (ih hunfused.2) (Nat.le_refl _)
      refine ⟨p, ?_, hends⟩
      rw [Node.expr, toList_render_unary, hchars]
      exact (scanned_unary op).append (hchars ▸ hp) hsign
  | @binary op left right l r _ _ _ hl hr ihl ihr =>
      rw [Term.unfused, Bool.and_eq_true] at hunfused
      obtain ⟨p, hp, -⟩ := hl.printed_operand (ihl hunfused.1) (Nat.le_of_lt op.level_bounds.2)
      obtain ⟨q, hq, hends⟩ := hr.printed_operand (ihr hunfused.2) op.level_bounds.2
      refine ⟨q, ?_, hends⟩
      rw [Node.expr, toList_render_binary]
      exact hp.behind_blank ((scanned_operator op).behind_blank hq)

/-- An operand that starts with the sign of an operator does so in its place, too. -/
theorem operandText_of_startsWith (h : n.IsTerm t) {op : UnaryOp} (hop : t.startsWith op = true) :
    ∃ cs, operandText n = op.char :: cs := by
  cases h with
  | ident | natural | binary => cases hop
  | @negative m =>
      obtain rfl : UnaryOp.neg = op := by simpa [Term.startsWith] using hop
      exact ⟨_, toList_render_negSucc m⟩
  | @unary op' operand =>
      obtain rfl : op' = op := by simpa [Term.startsWith] using hop
      exact ⟨_, toList_render_unary op' operand⟩

/-- An expression in which a sign runs into the next one is not read, whatever follows. -/
theorem misplaced (h : n.IsTerm t) (hfused : t.unfused = false) : Misplaced n.expr.toList := by
  induction h with
  | ident | natural | negative => cases hfused
  | @unary op operand t _ _ _ ht ih =>
      rw [Node.expr, toList_render_unary]
      cases hdouble : op.doubles && t.startsWith op with
      | true =>
          -- The operator and the first sign of its operand are one sign.
          rw [Bool.and_eq_true] at hdouble
          obtain ⟨cs, hchars⟩ := ht.operandText_of_startsWith hdouble.2
          rw [hchars]
          exact (op.misplaced_double hdouble.1).append cs
      | false =>
          have hoperand : t.unfused = false := by simpa [Term.unfused, hdouble] using hfused
          obtain ⟨c, cs, hchars, hsign⟩ := ht.sign_ends hdouble
          have hmisplaced : Misplaced (operandText operand) := (ih hoperand).parenthesize _
          rw [hchars] at hmisplaced ⊢
          have hplaced : placed true [op.lexeme] = some true := by
            rw [placed_cons, op.follow_lexeme]
            rfl
          exact hmisplaced.behind (scanned_unary op) hsign hplaced
  | @binary op left right l r _ _ _ hl hr ihl ihr =>
      rw [Node.expr, toList_render_binary]
      cases hleft : l.unfused with
      | false => exact ((ihl hleft).parenthesize _).append _
      | true =>
          -- The left operand and the operator are read, and ask for an operand.
          have hright : r.unfused = false := by simpa [Term.unfused, hleft] using hfused
          have hlow : op.level ≤ unaryLevel := Nat.le_of_lt op.level_bounds.2
          obtain ⟨p, hp, -⟩ := hl.printed_operand (hl.printed hleft) hlow
          have hscanned := hp.behind_blank (scanned_operator op)
          have hspells := spells_bracketed hl.spells hl.one_le_level (Nat.le_succ_of_le hlow)
          have hplaced := placed_append true (Term.bracketed (l.level < op.level) l.lexemes)
            [.joint (.operator op)]
          rw [hspells.placed] at hplaced
          have hplace := (ihr hright).parenthesize (right.bindsBelow (op.level + 1))
          have hblank := hscanned.takes_of_parts (d := ' ') (by decide)
          simpa using hplace.blank.behind hscanned hblank hplaced

theorem term?_expr (h : n.IsTerm t) : term? n.expr = if t.unfused then some t else none := by
  cases hunfused : t.unfused with
  | false => exact (h.misplaced hunfused).term?_eq_none
  | true =>
      obtain ⟨p, hp, -⟩ := h.printed hunfused
      exact term?_eq_some_iff_scanned.2 ⟨_, p, hp, h.spells.loosen h.one_le_level⟩

end Node.IsTerm

end DataAccess.Go
