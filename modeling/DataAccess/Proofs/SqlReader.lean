import DataAccess.Model.Operator
import DataAccess.Proofs.SqlTokens
import Mathlib.Data.List.Forall2

set_option autoImplicit false

/-! # Reading an SQL condition

The second step of reading a condition: a parser by recursive descent, in which NOT binds tighter
than AND, and AND tighter than OR. The AND between the ends of a range belongs to its BETWEEN. A
bare word is a column only if it is plain and not reserved.

An expression is evaluated (`Expr.eval`) under any truth values of its comparisons, except that two
numbers are compared as numbers. `readWhere?` reads a whole WHERE clause.

Tokens that are read as one operand wherever they stand (`Parses`) can be joined by AND or by OR and
put in parentheses, and are one operand again. -/

namespace DataAccess.Sql

/-! ## Expressions -/

/-- An operand of a comparison. -/
inductive Operand where
  | column (name : String)
  | number (n : Nat)
  | slot (n : Nat)
  | call (function : String) (argument : Operand)
  deriving DecidableEq

/-- A comparison, as it is read. -/
inductive Atom where
  | compare (left : Operand) (operator : Operator) (right : Operand)
  | between (subject low high : Operand)
  /-- Membership in a list, in either of its forms. -/
  | member (subject list : Operand)
  deriving DecidableEq

/-- A boolean expression. -/
inductive Expr where
  | atom (a : Atom)
  | not (e : Expr)
  | and (e f : Expr)
  | or (e f : Expr)
  deriving DecidableEq

/-- The truth of a comparison: numbers are compared, everything else is as assumed. -/
def Atom.truth (v : Atom → Bool) : Atom → Bool
  | .compare (.number m) .eq (.number n) => m == n
  | a => v a

/-- The value of an expression. -/
def Expr.eval (v : Atom → Bool) : Expr → Bool
  | .atom a => a.truth v
  | .not e => !e.eval v
  | .and e f => e.eval v && f.eval v
  | .or e f => e.eval v || f.eval v

/-! ## The parser -/

/-- Reads an operand. -/
def operand? : List Token → Option (Operand × List Token)
  | .number n :: ts => some (.number n, ts)
  | .slot n :: ts => some (.slot n, ts)
  | .quoted name :: ts => some (.column name, ts)
  | .word f :: .sign .open :: ts =>
    match operand? ts with
    | some (x, .sign .close :: rest) => some (.call f x, rest)
    | _ => none
  | .word w :: ts =>
    if isPlain w.toList && !reservedWords.contains w then some (.column w, ts) else none
  | _ => none

/-- Reads the operator of a comparison. -/
def operator? : List Token → Option (Operator × List Token)
  | .sign .eq :: ts => some (.eq, ts)
  | .sign .ne :: ts => some (.ne, ts)
  | .sign .lt :: ts => some (.lt, ts)
  | .sign .le :: ts => some (.le, ts)
  | .sign .gt :: ts => some (.gt, ts)
  | .sign .ge :: ts => some (.ge, ts)
  | .keyword .like :: ts => some (.like, ts)
  | .keyword .not :: .keyword .like :: ts => some (.notLike, ts)
  | .keyword .ilike :: ts => some (.ilike, ts)
  | .keyword .is :: .keyword .not :: ts => some (.isNot, ts)
  | .keyword .is :: ts => some (.is, ts)
  | _ => none

/-- Reads the ends of a range behind BETWEEN. -/
def range? (subject : Operand) (ts : List Token) : Option (Atom × List Token) :=
  match operand? ts with
  | some (low, .keyword .and :: ts) =>
    (operand? ts).map fun (high, rest) => (.between subject low high, rest)
  | _ => none

/-- Reads what a comparison has behind its left side. -/
def comparison? (subject : Operand) : List Token → Option (Atom × List Token)
  | .keyword .between :: ts => range? subject ts
  | .sign .eq :: .keyword .any :: .sign .open :: ts =>
    match operand? ts with
    | some (list, .sign .close :: rest) => some (.member subject list, rest)
    | _ => none
  | .keyword .in :: .sign .open :: .keyword .select :: .word "value" :: .keyword .from ::
      .word "json_each" :: .sign .open :: ts =>
    match operand? ts with
    | some (list, .sign .close :: .sign .close :: rest) => some (.member subject list, rest)
    | _ => none
  | ts =>
    (operator? ts).bind fun (op, ts) =>
      (operand? ts).map fun (right, rest) => (.compare subject op right, rest)

/-- Reads a comparison. -/
def atom? (ts : List Token) : Option (Atom × List Token) :=
  (operand? ts).bind fun (subject, ts) => comparison? subject ts

mutual

/-- Reads conjunctions joined by OR. -/
def disjunction? : Nat → List Token → Option (Expr × List Token)
  | 0, _ => none
  | fuel + 1, ts =>
    match conjunction? fuel ts with
    | some (e, .keyword .or :: ts) =>
      (disjunction? fuel ts).map fun (f, rest) => (.or e f, rest)
    | r => r

/-- Reads negations joined by AND. -/
def conjunction? : Nat → List Token → Option (Expr × List Token)
  | 0, _ => none
  | fuel + 1, ts =>
    match negation? fuel ts with
    | some (e, .keyword .and :: ts) =>
      (conjunction? fuel ts).map fun (f, rest) => (.and e f, rest)
    | r => r

/-- Reads a negation, something in parentheses or a comparison. -/
def negation? : Nat → List Token → Option (Expr × List Token)
  | 0, _ => none
  | fuel + 1, .keyword .not :: ts => (negation? fuel ts).map fun (e, rest) => (.not e, rest)
  | fuel + 1, .sign .open :: ts =>
    match disjunction? fuel ts with
    | some (e, .sign .close :: rest) => some (e, rest)
    | _ => none
  | _ + 1, ts => (atom? ts).map fun (a, rest) => (.atom a, rest)

end

/-- Reads an expression; no token is passed more than three times without being taken. -/
def expression? (ts : List Token) : Option Expr :=
  match disjunction? (3 * ts.length + 3) ts with
  | some (e, []) => some e
  | _ => none

/-- Reads a WHERE clause whose placeholders without a number are counted from `next` on. -/
def readWhere? (next : Nat) (text : String) : Option Expr :=
  match tokens? next text with
  | some (.keyword .where :: ts) => expression? ts
  | _ => none

/-! ## One step of the parser -/

theorem conjunction?_single {fuel : Nat} {ts rest : List Token} {e : Expr}
    (h : negation? fuel ts = some (e, rest)) (hrest : rest.head? ≠ some (.keyword .and)) :
    conjunction? (fuel + 1) ts = some (e, rest) := by
  rw [conjunction?, h]
  split
  · next heq => simp_all
  · rfl

theorem conjunction?_and {fuel : Nat} {ts us rest : List Token} {e f : Expr}
    (h : negation? fuel ts = some (e, .keyword .and :: us))
    (h' : conjunction? fuel us = some (f, rest)) :
    conjunction? (fuel + 1) ts = some (.and e f, rest) := by
  rw [conjunction?, h]
  simp [h']

theorem disjunction?_single {fuel : Nat} {ts rest : List Token} {e : Expr}
    (h : conjunction? fuel ts = some (e, rest)) (hrest : rest.head? ≠ some (.keyword .or)) :
    disjunction? (fuel + 1) ts = some (e, rest) := by
  rw [disjunction?, h]
  split
  · next heq => simp_all
  · rfl

theorem disjunction?_or {fuel : Nat} {ts us rest : List Token} {e f : Expr}
    (h : conjunction? fuel ts = some (e, .keyword .or :: us))
    (h' : disjunction? fuel us = some (f, rest)) :
    disjunction? (fuel + 1) ts = some (.or e f, rest) := by
  rw [disjunction?, h]
  simp [h']

theorem negation?_not {fuel : Nat} {ts rest : List Token} {e : Expr}
    (h : negation? fuel ts = some (e, rest)) :
    negation? (fuel + 1) (.keyword .not :: ts) = some (.not e, rest) := by
  rw [negation?, h]
  rfl

theorem negation?_parens {fuel : Nat} {ts rest : List Token} {e : Expr}
    (h : disjunction? fuel ts = some (e, .sign .close :: rest)) :
    negation? (fuel + 1) (.sign .open :: ts) = some (e, rest) := by
  rw [negation?, h]

theorem negation?_atom {fuel : Nat} {ts rest : List Token} {a : Atom}
    (h : atom? ts = some (a, rest)) : negation? (fuel + 1) ts = some (.atom a, rest) := by
  rw [negation?, h]
  · rfl
  · rintro us rfl
    simp [atom?, operand?] at h
  · rintro us rfl
    simp [atom?, operand?] at h

/-! ## Tokens that are read as one operand -/

/-- The tokens are read as one operand of AND, OR and NOT, whatever follows. -/
def Parses (ts : List Token) (e : Expr) : Prop :=
  ∀ fuel rest, 3 * ts.length ≤ fuel → negation? fuel (ts ++ rest) = some (e, rest)

/-- Whether the tokens go on with neither AND nor OR: nothing follows, or a parenthesis closes. -/
def ends : List Token → Bool
  | [] => true
  | .sign .close :: _ => true
  | _ => false

/-- The tokens are read as a whole between parentheses, or as a whole. -/
def ParsesWithin (ts : List Token) (e : Expr) : Prop :=
  ∀ fuel rest, 3 * ts.length + 2 ≤ fuel → ends rest = true →
    disjunction? fuel (ts ++ rest) = some (e, rest)

/-- Token lists with a token between neighbours. -/
def joinTokens (separator : Token) : List (List Token) → List Token
  | [] => []
  | [ts] => ts
  | ts :: us :: tss => ts ++ separator :: joinTokens separator (us :: tss)

/-- The expressions joined by AND. -/
def Expr.conjoin : Expr → List Expr → Expr
  | e, [] => e
  | e, f :: fs => .and e (f.conjoin fs)

/-- The expressions joined by OR. -/
def Expr.disjoin : Expr → List Expr → Expr
  | e, [] => e
  | e, f :: fs => .or e (f.disjoin fs)

theorem Expr.eval_conjoin (v : Atom → Bool) (e : Expr) (es : List Expr) :
    (e.conjoin es).eval v = ((e :: es).map (Expr.eval v)).all id := by
  induction es generalizing e with
  | nil => simp [conjoin]
  | cons f fs ih => simp [conjoin, eval, ih]

theorem Expr.eval_disjoin (v : Atom → Bool) (e : Expr) (es : List Expr) :
    (e.disjoin es).eval v = ((e :: es).map (Expr.eval v)).any id := by
  induction es generalizing e with
  | nil => simp [disjoin]
  | cons f fs ih => simp [disjoin, eval, ih]

theorem head_ne_of_ends {rest : List Token} (h : ends rest = true) (k : Keyword) :
    rest.head? ≠ some (.keyword k) := by
  intro hk
  cases rest with
  | nil => cases hk
  | cons t rest =>
      cases hk
      cases h

/-- Operands joined by AND are read as a conjunction. -/
theorem conjunction?_join {ts : List Token} {tss : List (List Token)} {e : Expr} {es : List Expr}
    (h : List.Forall₂ Parses (ts :: tss) (e :: es)) {fuel : Nat} {rest : List Token}
    (hfuel : 3 * (joinTokens (.keyword .and) (ts :: tss)).length + 1 ≤ fuel)
    (hrest : rest.head? ≠ some (.keyword .and)) :
    conjunction? fuel (joinTokens (.keyword .and) (ts :: tss) ++ rest) =
      some (e.conjoin es, rest) := by
  -- Every operand takes at least one token, so the fuel shrinks slower than what is left to read.
  induction tss generalizing ts e es fuel with
  | nil =>
      obtain ⟨hts, hnil⟩ := List.forall₂_cons.1 h
      cases List.forall₂_nil_left_iff.1 hnil
      obtain ⟨fuel, rfl⟩ := Nat.exists_eq_add_of_le' (Nat.le_of_add_left_le hfuel)
      exact conjunction?_single (hts fuel rest (by simpa [joinTokens] using hfuel)) hrest
  | cons us tss ih =>
      obtain ⟨hts, htail⟩ := List.forall₂_cons.1 h
      cases es with
      | nil => cases htail
      | cons f fs =>
          obtain ⟨fuel, rfl⟩ := Nat.exists_eq_add_of_le' (Nat.le_of_add_left_le hfuel)
          rw [joinTokens, List.length_append, List.length_cons] at hfuel
          rw [joinTokens, List.append_assoc, List.cons_append]
          exact conjunction?_and (hts fuel _ (by omega)) (ih htail (by omega))

/-- Operands joined by OR are read as a disjunction. -/
theorem disjunction?_join {ts : List Token} {tss : List (List Token)} {e : Expr} {es : List Expr}
    (h : List.Forall₂ Parses (ts :: tss) (e :: es)) {fuel : Nat} {rest : List Token}
    (hfuel : 3 * (joinTokens (.keyword .or) (ts :: tss)).length + 2 ≤ fuel)
    (hrest : ends rest = true) :
    disjunction? fuel (joinTokens (.keyword .or) (ts :: tss) ++ rest) =
      some (e.disjoin es, rest) := by
  induction tss generalizing ts e es fuel with
  | nil =>
      obtain ⟨hts, hnil⟩ := List.forall₂_cons.1 h
      cases List.forall₂_nil_left_iff.1 hnil
      obtain ⟨fuel, rfl⟩ := Nat.exists_eq_add_of_le' (Nat.le_of_add_left_le hfuel)
      have hconj := conjunction?_single (hts fuel rest (by simpa [joinTokens] using hfuel))
        (head_ne_of_ends hrest .and)
      exact disjunction?_single hconj (head_ne_of_ends hrest .or)
  | cons us tss ih =>
      obtain ⟨hts, htail⟩ := List.forall₂_cons.1 h
      cases es with
      | nil => cases htail
      | cons f fs =>
          obtain ⟨fuel, rfl⟩ := Nat.exists_eq_add_of_le' (Nat.le_of_add_left_le hfuel)
          rw [joinTokens, List.length_append, List.length_cons] at hfuel
          rw [joinTokens, List.append_assoc, List.cons_append]
          have hconj := conjunction?_single (hts fuel
            (.keyword .or :: (joinTokens (.keyword .or) (us :: tss) ++ rest)) (by omega))
            (by simp)
          exact disjunction?_or hconj (ih htail (by omega))

theorem ParsesWithin.conjoin {ts : List Token} {tss : List (List Token)} {e : Expr}
    {es : List Expr} (h : List.Forall₂ Parses (ts :: tss) (e :: es)) :
    ParsesWithin (joinTokens (.keyword .and) (ts :: tss)) (e.conjoin es) := by
  intro fuel rest hfuel hrest
  obtain ⟨fuel, rfl⟩ := Nat.exists_eq_add_of_le' (Nat.le_of_add_left_le hfuel)
  exact disjunction?_single (conjunction?_join h (by omega) (head_ne_of_ends hrest .and))
    (head_ne_of_ends hrest .or)

theorem ParsesWithin.disjoin {ts : List Token} {tss : List (List Token)} {e : Expr}
    {es : List Expr} (h : List.Forall₂ Parses (ts :: tss) (e :: es)) :
    ParsesWithin (joinTokens (.keyword .or) (ts :: tss)) (e.disjoin es) :=
  fun _ _ hfuel hrest => disjunction?_join h hfuel hrest

/-- Parentheses make one operand of what they enclose. -/
theorem ParsesWithin.parens {ts : List Token} {e : Expr} (h : ParsesWithin ts e) :
    Parses (.sign .open :: ts ++ [.sign .close]) e := by
  intro fuel rest hfuel
  simp only [List.cons_append, List.length_cons, List.length_append, List.length_nil] at hfuel
  obtain ⟨fuel, rfl⟩ := Nat.exists_eq_add_of_le' (show 1 ≤ fuel by omega)
  rw [List.cons_append, List.cons_append, List.append_assoc]
  exact negation?_parens (h fuel (.sign .close :: rest) (by omega) rfl)

theorem Parses.not {ts : List Token} {e : Expr} (h : Parses ts e) :
    Parses (.keyword .not :: ts) (.not e) := by
  intro fuel rest hfuel
  rw [List.length_cons] at hfuel
  obtain ⟨fuel, rfl⟩ := Nat.exists_eq_add_of_le' (show 1 ≤ fuel by omega)
  exact negation?_not (h fuel rest (by omega))

/-- A whole text is read if it can be read between parentheses. -/
theorem ParsesWithin.expression? {ts : List Token} {e : Expr} (h : ParsesWithin ts e) :
    Sql.expression? ts = some e := by
  have hread := h (3 * ts.length + 3) [] (by omega) rfl
  rw [List.append_nil] at hread
  rw [Sql.expression?, hread]

end DataAccess.Sql
