import DataAccess.Go.Node.Basic
import Mathlib.Tactic.SplitIfs

set_option autoImplicit false

/-! # The grammar of expressions

Go has four levels of binary operators here: `||`, `&&`, comparisons, and `+` with `-`, from the
loosest to the tightest. Between the operators of one level stand expressions of the next one, and
operators of one level associate to the left. Unary operators stand in front of an operand, and
behind it indexes, selectors and arguments. What stands behind an operand binds tightest, then the
unary operators, then the binary ones in their levels; commas between arguments bind loosest
(`Spells`).

An expression is read by taking an operand with all that stands behind it, and going on with
operators as long as they bind tightly enough (`operand?`, `suffixes?`, `joints?`). This reads
exactly what the grammar derives (`termOf?_eq_some_iff`), so lexemes spell one expression at most.

In an expression the lexemes that end an operand and those that ask for one alternate
(`Spells.placed`). Where they do not, no expression is spelled, whatever follows. -/

namespace DataAccess.Go

/-- The level of an operator in the grammar; a higher level binds tighter. -/
def BinaryOp.level : BinaryOp → Nat
  | or => 1
  | and => 2
  | eq | ne | lt | le | gt | ge => 3
  | add | sub => 4

/-- What stands between two expressions: an operator, or a comma between arguments. -/
inductive Joint where
  | operator (op : BinaryOp)
  | comma
  deriving DecidableEq

def Joint.level : Joint → Nat
  | operator op => op.level
  | comma => 0

/-- The level of unary operators. -/
def unaryLevel : Nat := 5

/-- The level of operands with what stands behind them. -/
def primaryLevel : Nat := 6

theorem BinaryOp.level_bounds (op : BinaryOp) : 1 ≤ op.level ∧ op.level < unaryLevel := by
  cases op <;> decide

theorem Joint.level_lt (j : Joint) : j.level < unaryLevel := by
  cases j with
  | operator op => exact op.level_bounds.2
  | comma => decide

/-- An expression. Several arguments are joined by commas. -/
inductive Term where
  | name (s : String)
  | number (n : Nat)
  /-- A string literal, as it is written. -/
  | text (s : String)
  | unary (op : UnaryOp) (t : Term)
  | joint (j : Joint) (l r : Term)
  | index (t key : Term)
  | select (t : Term) (field : String)
  /-- A call without arguments. -/
  | call (t : Term)
  | callWith (t args : Term)
  /-- A call whose last argument is spread. -/
  | callSpread (t args : Term)
  deriving DecidableEq

/-- An operator between two expressions. -/
@[match_pattern] abbrev Term.binary (op : BinaryOp) (l r : Term) : Term := .joint (.operator op) l r

/-- A token of an expression. -/
inductive Lexeme where
  | name (s : String)
  | number (n : Nat)
  | text (s : String)
  | joint (j : Joint)
  | ampersand
  | star
  | bang
  | open
  | close
  | openIndex
  | closeIndex
  | dot
  | dots
  /-- A sign that has no place in an expression. -/
  | other (s : String)
  deriving DecidableEq

/-- The sign of a unary operator; that of a negation is also the one of a difference. -/
def UnaryOp.lexeme : UnaryOp → Lexeme
  | addressOf => .ampersand
  | deref => .star
  | not => .bang
  | neg => .joint (.operator .sub)

/-- The unary operator that a sign in front of an operand stands for. -/
def Lexeme.unary? : Lexeme → Option UnaryOp
  | ampersand => some .addressOf
  | star => some .deref
  | bang => some .not
  | joint (.operator .sub) => some .neg
  | _ => none

/-- The expression that a lexeme is by itself. -/
def Lexeme.leaf? : Lexeme → Option Term
  | name s => some (.name s)
  | number n => some (.number n)
  | text s => some (.text s)
  | _ => none

/-- The expressions of each level. -/
inductive Spells : Nat → List Lexeme → Term → Prop where
  | leaf {l : Lexeme} {t : Term} (h : l.leaf? = some t) : Spells primaryLevel [l] t
  | parens {ls : List Lexeme} {t : Term} (h : Spells 1 ls t) :
      Spells primaryLevel (.open :: (ls ++ [.close])) t
  | index {ls ks : List Lexeme} {t key : Term} (ht : Spells primaryLevel ls t)
      (hkey : Spells 1 ks key) :
      Spells primaryLevel (ls ++ .openIndex :: (ks ++ [.closeIndex])) (.index t key)
  | select {ls : List Lexeme} {t : Term} (ht : Spells primaryLevel ls t) (s : String) :
      Spells primaryLevel (ls ++ [.dot, .name s]) (.select t s)
  | call {ls : List Lexeme} {t : Term} (ht : Spells primaryLevel ls t) :
      Spells primaryLevel (ls ++ [.open, .close]) (.call t)
  | callWith {ls as : List Lexeme} {t args : Term} (ht : Spells primaryLevel ls t)
      (hargs : Spells 0 as args) :
      Spells primaryLevel (ls ++ .open :: (as ++ [.close])) (.callWith t args)
  | callSpread {ls as : List Lexeme} {t args : Term} (ht : Spells primaryLevel ls t)
      (hargs : Spells 0 as args) :
      Spells primaryLevel (ls ++ .open :: (as ++ [.dots, .close])) (.callSpread t args)
  | unary {ls : List Lexeme} {t : Term} (op : UnaryOp) (ht : Spells unaryLevel ls t) :
      Spells unaryLevel (op.lexeme :: ls) (.unary op t)
  | joint {j : Joint} {ls rs : List Lexeme} {l r : Term} (hl : Spells j.level ls l)
      (hr : Spells (j.level + 1) rs r) : Spells j.level (ls ++ .joint j :: rs) (.joint j l r)
  | tighter {level : Nat} {ls : List Lexeme} {t : Term} (h : Spells (level + 1) ls t) :
      Spells level ls t

/-- What binds tightly is also an expression of every looser level. -/
theorem Spells.loosen {level least : Nat} {ls : List Lexeme} {t : Term} (h : Spells level ls t)
    (hle : least ≤ level) : Spells least ls t := by
  induction hle with
  | refl => exact h
  | step _ ih => exact ih h.tighter

/-! ## Reading an expression -/

mutual

/-- Reads an operand with the unary operators in front of it and all that stands behind it. `fuel`
bounds the number of lexemes. -/
def operand? : Nat → List Lexeme → Option (Term × List Lexeme)
  | fuel + 1, .open :: ls =>
    match (operand? fuel ls).bind fun p => joints? fuel 1 p.1 p.2 with
    | some (t, .close :: ls) => suffixes? fuel t ls
    | _ => none
  | fuel + 1, l :: ls =>
    match l.leaf? with
    | some t => suffixes? fuel t ls
    | none => l.unary?.bind fun op => (operand? fuel ls).map fun p => (.unary op p.1, p.2)
  | _, _ => none

/-- Goes on behind an operand with indexes, selectors and arguments. -/
def suffixes? : Nat → Term → List Lexeme → Option (Term × List Lexeme)
  | fuel + 1, t, .openIndex :: ls =>
    match (operand? fuel ls).bind fun p => joints? fuel 1 p.1 p.2 with
    | some (key, .closeIndex :: ls) => suffixes? fuel (.index t key) ls
    | _ => none
  | fuel + 1, t, .dot :: .name s :: ls => suffixes? fuel (.select t s) ls
  | fuel + 1, t, .open :: .close :: ls => suffixes? fuel (.call t) ls
  | fuel + 1, t, .open :: ls =>
    match (operand? fuel ls).bind fun p => joints? fuel 0 p.1 p.2 with
    | some (args, .close :: ls) => suffixes? fuel (.callWith t args) ls
    | some (args, .dots :: .close :: ls) => suffixes? fuel (.callSpread t args) ls
    | _ => none
  | _, t, ls => some (t, ls)

/-- Goes on behind an expression: what binds tightly enough takes the expression to its left, and to
its right what binds tighter than itself. -/
def joints? : Nat → Nat → Term → List Lexeme → Option (Term × List Lexeme)
  | fuel + 1, least, t, .joint j :: ls =>
    if least ≤ j.level then
      ((operand? fuel ls).bind fun p => joints? fuel (j.level + 1) p.1 p.2).bind fun p =>
        joints? fuel least (.joint j t p.1) p.2
    else some (t, .joint j :: ls)
  | 0, _, _, .joint _ :: _ => none
  | _, _, t, ls => some (t, ls)

end

/-- Reads an operand and goes on with what binds tightly enough. -/
def phrase? (fuel least : Nat) (ls : List Lexeme) : Option (Term × List Lexeme) :=
  (operand? fuel ls).bind fun p => joints? fuel least p.1 p.2

/-- Reads lexemes that form one expression. -/
def termOf? (ls : List Lexeme) : Option Term :=
  match phrase? ls.length 1 ls with
  | some (t, []) => some t
  | _ => none

theorem Lexeme.unary?_eq_some_iff {l : Lexeme} {op : UnaryOp} :
    l.unary? = some op ↔ l = op.lexeme := by
  constructor
  · intro h
    unfold Lexeme.unary? at h
    split at h <;> cases h <;> rfl
  · rintro rfl
    cases op <;> rfl

theorem UnaryOp.leaf?_lexeme (op : UnaryOp) : op.lexeme.leaf? = none := by
  cases op <;> rfl

section Equations

variable {fuel : Nat} {l : Lexeme} {ls rest : List Lexeme} {t args key : Term}

theorem operand?_leaf (h : l.leaf? = some t) :
    operand? (fuel + 1) (l :: ls) = suffixes? fuel t ls := by
  rw [operand?, h]
  rintro rfl
  cases h

theorem operand?_unary (op : UnaryOp) :
    operand? (fuel + 1) (op.lexeme :: ls) =
      (operand? fuel ls).map fun p => (.unary op p.1, p.2) := by
  have hop : op.lexeme.unary? = some op := Lexeme.unary?_eq_some_iff.2 rfl
  rw [operand?, op.leaf?_lexeme, hop, Option.bind_some]
  cases op <;> nofun

theorem operand?_parens (h : phrase? fuel 1 ls = some (t, .close :: rest)) :
    operand? (fuel + 1) (.open :: ls) = suffixes? fuel t rest := by
  rw [operand?, ← phrase?, h]

theorem suffixes?_index (h : phrase? fuel 1 ls = some (key, .closeIndex :: rest)) :
    suffixes? (fuel + 1) t (.openIndex :: ls) = suffixes? fuel (.index t key) rest := by
  rw [suffixes?, ← phrase?, h]

/-- The lexemes that an expression can start with. -/
def Lexeme.starts (l : Lexeme) : Bool := l == .open || l.leaf?.isSome || l.unary?.isSome

theorem suffixes?_callWith (hl : l.starts = true)
    (h : phrase? fuel 0 (l :: ls) = some (args, .close :: rest)) :
    suffixes? (fuel + 1) t (.open :: l :: ls) = suffixes? fuel (.callWith t args) rest := by
  rw [suffixes?, ← phrase?, h]
  rintro _ ⟨⟩
  cases hl

theorem suffixes?_callSpread (hl : l.starts = true)
    (h : phrase? fuel 0 (l :: ls) = some (args, .dots :: .close :: rest)) :
    suffixes? (fuel + 1) t (.open :: l :: ls) = suffixes? fuel (.callSpread t args) rest := by
  rw [suffixes?, ← phrase?, h]
  rintro _ ⟨⟩
  cases hl

end Equations

theorem Spells.exists_start {level : Nat} {ls : List Lexeme} {t : Term} (h : Spells level ls t) :
    ∃ l ls', ls = l :: ls' ∧ l.starts = true := by
  induction h with
  | @leaf l t h => exact ⟨l, [], rfl, by simp [Lexeme.starts, h]⟩
  | parens _ _ => exact ⟨.open, _, rfl, rfl⟩
  | unary op _ _ => exact ⟨op.lexeme, _, rfl, by cases op <;> rfl⟩
  | tighter _ ih => exact ih
  | index _ _ ih | select _ _ ih | call _ ih | callWith _ _ ih | callSpread _ _ ih | joint _ _ ih =>
      obtain ⟨l, ls', rfl, hl⟩ := ih
      exact ⟨l, _, rfl, hl⟩

/-! ## What the grammar derives is read -/

/-- The lexemes that go on with an operand. -/
def Lexeme.continues : Lexeme → Bool
  | openIndex => true
  | dot => true
  | .open => true
  | _ => false

/-- Nothing that goes on with an operand follows. -/
def EndsOperand (ls : List Lexeme) : Prop := ∀ l ∈ ls.head?, l.continues = false

/-- No joint of a level or above follows. -/
def EndsJoints (least : Nat) (ls : List Lexeme) : Prop :=
  ∀ j rest, ls = .joint j :: rest → j.level < least

/-- Nothing that goes on with an expression from a level on follows. -/
structure EndsPhrase (least : Nat) (ls : List Lexeme) : Prop where
  operand : EndsOperand ls
  joints : EndsJoints least ls

theorem EndsPhrase.mono {least least' : Nat} {ls : List Lexeme} (h : EndsPhrase least ls)
    (hle : least ≤ least') : EndsPhrase least' ls :=
  ⟨h.operand, fun j rest heq => Nat.lt_of_lt_of_le (h.joints j rest heq) hle⟩

theorem endsPhrase_nil (least : Nat) : EndsPhrase least [] :=
  ⟨fun _ hl => (nomatch hl), fun _ _ heq => nomatch heq⟩

/-- A lexeme that is neither a joint nor goes on with an operand ends every expression. -/
theorem endsPhrase_cons {l : Lexeme} (hl : l.continues = false) (hj : ∀ j, l ≠ .joint j)
    (least : Nat) (ls : List Lexeme) : EndsPhrase least (l :: ls) := by
  refine ⟨fun l' hl' => ?_, fun j rest heq => absurd (List.cons.inj heq).1 (hj j)⟩
  obtain rfl : l = l' := by simpa using hl'
  exact hl

theorem endsPhrase_joint (j : Joint) (ls : List Lexeme) :
    EndsPhrase (j.level + 1) (.joint j :: ls) := by
  refine ⟨fun l hl => ?_, fun j' rest heq => ?_⟩
  · obtain rfl : Lexeme.joint j = l := by simpa using hl
    rfl
  · cases heq
    exact Nat.lt_succ_self _

theorem suffixes?_of_ends {ls : List Lexeme} (h : EndsOperand ls) (fuel : Nat) (t : Term) :
    suffixes? fuel t ls = some (t, ls) := by
  cases ls with
  | nil => simp [suffixes?]
  | cons l ls =>
      have hl : l.continues = false := h l rfl
      cases l with
      | openIndex | dot | «open» => cases hl
      | _ => simp [suffixes?]

theorem joints?_of_ends {least : Nat} {ls : List Lexeme} (h : EndsPhrase least ls) {fuel : Nat}
    (hfuel : ls.length ≤ fuel) (t : Term) : joints? fuel least t ls = some (t, ls) := by
  cases ls with
  | nil => simp [joints?]
  | cons l ls =>
      cases l with
      | joint j =>
          cases fuel with
          | zero => cases hfuel
          | succ fuel => rw [joints?, if_neg (Nat.not_le.2 (h.joints j ls rfl))]
      | _ => simp [joints?]

/-- Lexemes are read as an operand, and reading goes on behind it. -/
def ReadsPrimary (ls : List Lexeme) (t : Term) : Prop :=
  ∀ rest out, (∀ fuel, rest.length ≤ fuel → suffixes? fuel t rest = some out) →
    ∀ fuel, (ls ++ rest).length ≤ fuel → operand? fuel (ls ++ rest) = some out

/-- Lexemes are read as an operand with everything that belongs to it. -/
def ReadsOperand (ls : List Lexeme) (t : Term) : Prop :=
  ∀ rest, EndsOperand rest →
    ∀ fuel, (ls ++ rest).length ≤ fuel → operand? fuel (ls ++ rest) = some (t, rest)

/-- Lexemes are read as an expression of a level, and reading goes on behind it. -/
def ReadsPhrase (level : Nat) (ls : List Lexeme) (t : Term) : Prop :=
  ∀ least rest out, least ≤ level → EndsPhrase (level + 1) rest →
    (∀ fuel, rest.length ≤ fuel → joints? fuel least t rest = some out) →
    ∀ fuel, (ls ++ rest).length ≤ fuel → phrase? fuel least (ls ++ rest) = some out

/-- Lexemes are read as an expression of a level in each way the level admits. -/
structure ReadsAt (level : Nat) (ls : List Lexeme) (t : Term) : Prop where
  primary : primaryLevel ≤ level → ReadsPrimary ls t
  operand : unaryLevel ≤ level → ReadsOperand ls t
  phrase : ReadsPhrase level ls t

section Reading

variable {level : Nat} {ls : List Lexeme} {t : Term}

theorem ReadsOperand.readsPhrase (h : ReadsOperand ls t) (level : Nat) :
    ReadsPhrase level ls t := by
  intro least rest out _ hrest hout fuel hfuel
  rw [phrase?, h rest hrest.operand fuel hfuel]
  refine hout fuel (Nat.le_trans ?_ hfuel)
  simp

theorem ReadsPrimary.readsAt (h : ReadsPrimary ls t) (level : Nat) : ReadsAt level ls t := by
  have hoperand : ReadsOperand ls t := fun rest hrest =>
    h rest (t, rest) fun fuel _ => suffixes?_of_ends hrest fuel t
  exact ⟨fun _ => h, fun _ => hoperand, hoperand.readsPhrase level⟩

/-- An expression is read up to what ends it. -/
theorem ReadsPhrase.upTo (h : ReadsPhrase level ls t) {rest : List Lexeme}
    (hrest : EndsPhrase level rest) {fuel : Nat} (hfuel : (ls ++ rest).length ≤ fuel) :
    phrase? fuel level (ls ++ rest) = some (t, rest) :=
  h level rest (t, rest) (Nat.le_refl _) (hrest.mono (Nat.le_succ _))
    (fun _ hfuel' => joints?_of_ends hrest hfuel' t) fuel hfuel

/-- Where something behind an operand is read as part of it, so is the operand with it. -/
theorem ReadsPrimary.append {l : Lexeme} {suffix : List Lexeme} {t' : Term}
    (h : ReadsPrimary ls t)
    (hsuffix : ∀ rest fuel, (suffix ++ rest).length ≤ fuel →
      suffixes? (fuel + 1) t (l :: (suffix ++ rest)) = suffixes? fuel t' rest) :
    ReadsPrimary (ls ++ l :: suffix) t' := by
  intro rest out hout fuel hfuel
  rw [List.append_assoc] at hfuel ⊢
  refine h (l :: (suffix ++ rest)) out (fun fuel hfuel => ?_) fuel hfuel
  cases fuel with
  | zero => cases hfuel
  | succ fuel =>
      have hle : (suffix ++ rest).length ≤ fuel := Nat.le_of_succ_le_succ hfuel
      rw [hsuffix rest fuel hle]
      refine hout fuel (Nat.le_trans ?_ hle)
      simp

end Reading

theorem Spells.readsAt {level : Nat} {ls : List Lexeme} {t : Term} (h : Spells level ls t) :
    ReadsAt level ls t := by
  induction h with
  | leaf h =>
      refine ReadsPrimary.readsAt (fun rest out hout fuel hfuel => ?_) _
      cases fuel with
      | zero => cases hfuel
      | succ fuel =>
          rw [List.singleton_append, operand?_leaf h]
          exact hout fuel (Nat.le_of_succ_le_succ hfuel)
  | @parens ls t _ ih =>
      refine ReadsPrimary.readsAt (fun rest out hout fuel hfuel => ?_) _
      cases fuel with
      | zero => cases hfuel
      | succ fuel =>
          have hlen : (ls ++ .close :: rest).length ≤ fuel := by simpa using hfuel
          have hend := endsPhrase_cons (l := .close) rfl (fun _ => nofun) 1 rest
          have hinner := ih.phrase.upTo hend hlen
          simpa [operand?_parens hinner] using hout fuel (by simp at hlen; omega)
  | @index ls ks t key _ _ iht ihkey =>
      refine ReadsPrimary.readsAt ((iht.primary (Nat.le_refl _)).append fun rest fuel hfuel => ?_) _
      have hend := endsPhrase_cons (l := .closeIndex) rfl (fun _ => nofun) 1 rest
      rw [List.append_assoc] at hfuel ⊢
      exact suffixes?_index (ihkey.phrase.upTo hend hfuel)
  | select _ s iht =>
      refine ReadsPrimary.readsAt ((iht.primary (Nat.le_refl _)).append fun rest fuel hfuel => ?_) _
      simp [suffixes?]
  | call _ iht =>
      refine ReadsPrimary.readsAt ((iht.primary (Nat.le_refl _)).append fun rest fuel hfuel => ?_) _
      simp [suffixes?]
  | @callWith ls as t args _ hargs iht ihargs =>
      refine ReadsPrimary.readsAt ((iht.primary (Nat.le_refl _)).append fun rest fuel hfuel => ?_) _
      obtain ⟨l, as, rfl, hl⟩ := hargs.exists_start
      have hend := endsPhrase_cons (l := .close) rfl (fun _ => nofun) 0 rest
      rw [List.append_assoc] at hfuel ⊢
      exact suffixes?_callWith hl (ihargs.phrase.upTo hend hfuel)
  | @callSpread ls as t args _ hargs iht ihargs =>
      refine ReadsPrimary.readsAt ((iht.primary (Nat.le_refl _)).append fun rest fuel hfuel => ?_) _
      obtain ⟨l, as, rfl, hl⟩ := hargs.exists_start
      have hend := endsPhrase_cons (l := .dots) rfl (fun _ => nofun) 0 (.close :: rest)
      rw [List.append_assoc] at hfuel ⊢
      exact suffixes?_callSpread hl (ihargs.phrase.upTo hend hfuel)
  | @unary ls t op _ ih =>
      have hoperand : ReadsOperand (op.lexeme :: ls) (.unary op t) := by
        intro rest hrest fuel hfuel
        cases fuel with
        | zero => cases hfuel
        | succ fuel =>
            have hread := ih.operand (Nat.le_refl _) rest hrest fuel (Nat.le_of_succ_le_succ hfuel)
            rw [List.cons_append, operand?_unary, hread]
            rfl
      exact ⟨fun hle => absurd hle (by decide), fun _ => hoperand, hoperand.readsPhrase _⟩
  | @joint j ls rs l r _ _ ihl ihr =>
      have hlow := j.level_lt
      refine ⟨fun hle => ?_, fun hle => ?_, fun least rest out hleast hrest hout fuel hfuel => ?_⟩
      · exact absurd (Nat.lt_of_le_of_lt hle hlow) (by decide)
      · exact absurd hlow (Nat.not_lt.2 hle)
      · -- The left side is read first; what its reading goes on with is the operator.
        rw [List.append_assoc, List.cons_append] at hfuel ⊢
        refine ihl.phrase least _ out hleast (endsPhrase_joint j _) (fun fuel hfuel => ?_) _ hfuel
        cases fuel with
        | zero => cases hfuel
        | succ fuel =>
            have hlen : (rs ++ rest).length ≤ fuel := Nat.le_of_succ_le_succ hfuel
            have hright := ihr.phrase.upTo hrest hlen
            rw [joints?, if_pos hleast, ← phrase?, hright]
            refine hout fuel (Nat.le_trans ?_ hlen)
            simp
  | tighter _ ih =>
      refine ⟨fun hle => ih.primary (Nat.le_succ_of_le hle),
        fun hle => ih.operand (Nat.le_succ_of_le hle), fun least rest out hleast hrest => ?_⟩
      exact ih.phrase least rest out (Nat.le_succ_of_le hleast) (hrest.mono (Nat.le_succ _))

/-! ## What is read is derived -/

/-- Reading starts with a lexeme that is an expression, in parentheses or with an operator. -/
theorem operand?_cases {fuel : Nat} {ls rest : List Lexeme} {t : Term}
    (h : operand? fuel ls = some (t, rest)) : ∃ fuel', fuel = fuel' + 1 ∧
      ((∃ l ms u, ls = l :: ms ∧ l.leaf? = some u ∧ suffixes? fuel' u ms = some (t, rest)) ∨
        (∃ ms u ms', ls = .open :: ms ∧ phrase? fuel' 1 ms = some (u, .close :: ms') ∧
          suffixes? fuel' u ms' = some (t, rest)) ∨
        ∃ op ms u, ls = op.lexeme :: ms ∧ t = .unary op u ∧
          operand? fuel' ms = some (u, rest)) := by
  unfold operand? at h
  split at h
  · next fuel ms =>
      split at h
      · next u ms' hinner => exact ⟨fuel, rfl, .inr (.inl ⟨ms, u, ms', rfl, hinner, h⟩)⟩
      · cases h
  · next fuel l ms _ =>
      split at h
      · next u hleaf => exact ⟨fuel, rfl, .inl ⟨l, ms, u, rfl, hleaf, h⟩⟩
      · obtain ⟨op, hop, hread⟩ := Option.bind_eq_some_iff.1 h
        obtain ⟨⟨u, _⟩, hu, heq⟩ := Option.map_eq_some_iff.1 hread
        cases heq
        obtain rfl := Lexeme.unary?_eq_some_iff.1 hop
        exact ⟨fuel, rfl, .inr (.inr ⟨op, ms, u, rfl, rfl, hu⟩)⟩
  · cases h

/-- Lexemes start with an expression of a level. -/
def SpellsFront (level : Nat) (ls : List Lexeme) (t : Term) (rest : List Lexeme) : Prop :=
  ∃ ms, ls = ms ++ rest ∧ Spells level ms t

/-- Lexemes start with an expression, which is read up to a joint that binds too loosely. -/
def SpellsPhrase (least : Nat) (ls : List Lexeme) (t : Term) (rest : List Lexeme) : Prop :=
  SpellsFront least ls t rest ∧ EndsJoints least rest

/-- Behind an operand, reading ends or goes on with an index, a selector or arguments. -/
theorem suffixes?_cases {fuel : Nat} {ls rest : List Lexeme} {t t' : Term}
    (h : suffixes? fuel t ls = some (t', rest)) :
    (t' = t ∧ rest = ls) ∨ ∃ fuel', fuel = fuel' + 1 ∧
      ((∃ ms key ms', ls = .openIndex :: ms ∧ phrase? fuel' 1 ms = some (key, .closeIndex :: ms') ∧
          suffixes? fuel' (.index t key) ms' = some (t', rest)) ∨
        (∃ s ms, ls = .dot :: .name s :: ms ∧ suffixes? fuel' (.select t s) ms = some (t', rest)) ∨
        (∃ ms, ls = .open :: .close :: ms ∧ suffixes? fuel' (.call t) ms = some (t', rest)) ∨
        (∃ ms args ms', ls = .open :: ms ∧ phrase? fuel' 0 ms = some (args, .close :: ms') ∧
          suffixes? fuel' (.callWith t args) ms' = some (t', rest)) ∨
        ∃ ms args ms', ls = .open :: ms ∧ phrase? fuel' 0 ms = some (args, .dots :: .close :: ms') ∧
          suffixes? fuel' (.callSpread t args) ms' = some (t', rest)) := by
  unfold suffixes? at h
  split at h
  · next fuel ms =>
      split at h
      · next key ms' hkey => exact .inr ⟨fuel, rfl, .inl ⟨ms, key, ms', rfl, hkey, h⟩⟩
      · cases h
  · next fuel s ms => exact .inr ⟨fuel, rfl, .inr (.inl ⟨s, ms, rfl, h⟩)⟩
  · next fuel ms => exact .inr ⟨fuel, rfl, .inr (.inr (.inl ⟨ms, rfl, h⟩))⟩
  · next fuel ms _ =>
      split at h
      · next args ms' hargs =>
          exact .inr ⟨fuel, rfl, .inr (.inr (.inr (.inl ⟨ms, args, ms', rfl, hargs, h⟩)))⟩
      · next args ms' hargs =>
          exact .inr ⟨fuel, rfl, .inr (.inr (.inr (.inr ⟨ms, args, ms', rfl, hargs, h⟩)))⟩
      · cases h
  · cases h
    exact .inl ⟨rfl, rfl⟩

/-- Behind an expression, reading ends where no joint binds tightly enough or goes on with one. -/
theorem joints?_cases {fuel least : Nat} {ls rest : List Lexeme} {t t' : Term}
    (h : joints? fuel least t ls = some (t', rest)) :
    (t' = t ∧ rest = ls ∧ EndsJoints least ls) ∨ ∃ fuel' j ms r ms', fuel = fuel' + 1 ∧
      ls = .joint j :: ms ∧ least ≤ j.level ∧ phrase? fuel' (j.level + 1) ms = some (r, ms') ∧
        joints? fuel' least (.joint j t r) ms' = some (t', rest) := by
  unfold joints? at h
  split at h
  · next fuel j ms =>
      split_ifs at h with hlevel
      · obtain ⟨⟨r, ms'⟩, hright, hmore⟩ := Option.bind_eq_some_iff.1 h
        exact .inr ⟨fuel, j, ms, r, ms', rfl, rfl, hlevel, hright, hmore⟩
      · cases h
        refine .inl ⟨rfl, rfl, fun j' ms' heq => ?_⟩
        cases heq
        exact Nat.lt_of_not_le hlevel
  · cases h
  · next hjoint hzero =>
      cases h
      refine .inl ⟨rfl, rfl, fun j ms heq => ?_⟩
      cases fuel with
      | zero => exact absurd heq (hzero j ms rfl)
      | succ fuel => exact absurd heq (hjoint fuel j ms rfl)

/-- What a bound on the fuel reads is derived. -/
structure ReadIsSpelled (fuel : Nat) : Prop where
  operand : ∀ {ls rest : List Lexeme} {t : Term}, operand? fuel ls = some (t, rest) →
    SpellsFront unaryLevel ls t rest
  suffixes : ∀ {ms ls rest : List Lexeme} {t t' : Term}, Spells primaryLevel ms t →
    suffixes? fuel t ls = some (t', rest) → SpellsFront primaryLevel (ms ++ ls) t' rest
  joints : ∀ {least level : Nat} {ms ls rest : List Lexeme} {t t' : Term}, Spells level ms t →
    least ≤ level → EndsJoints (level + 1) ls → joints? fuel least t ls = some (t', rest) →
    SpellsPhrase least (ms ++ ls) t' rest

theorem ReadIsSpelled.phrase {fuel : Nat} (h : ReadIsSpelled fuel) {least : Nat}
    {ls rest : List Lexeme} {t : Term} (hle : least ≤ unaryLevel)
    (hread : phrase? fuel least ls = some (t, rest)) : SpellsPhrase least ls t rest := by
  obtain ⟨⟨u, ms⟩, hu, hmore⟩ := Option.bind_eq_some_iff.1 hread
  obtain ⟨us, rfl, hspells⟩ := h.operand hu
  exact h.joints hspells hle (fun j _ _ => Nat.lt_succ_of_lt j.level_lt) hmore

theorem readIsSpelled (fuel : Nat) : ReadIsSpelled fuel := by
  -- What has been read carries the level at which it is spelled. No joint above that level
  -- follows, so the next joint can take it as its left side.
  induction fuel with
  | zero =>
      refine ⟨fun {ls rest t} h => ?_, fun {ms ls rest t t'} ht h => ?_,
        fun {least level ms ls rest t t'} ht hle _ h => ?_⟩
      · obtain ⟨_, hfuel, -⟩ := operand?_cases h
        cases hfuel
      · rcases suffixes?_cases h with ⟨rfl, rfl⟩ | ⟨_, hfuel, -⟩
        · exact ⟨ms, rfl, ht⟩
        · cases hfuel
      · rcases joints?_cases h with ⟨rfl, rfl, hend⟩ | ⟨_, _, _, _, _, hfuel, -⟩
        · exact ⟨⟨ms, rfl, ht.loosen hle⟩, hend⟩
        · cases hfuel
  | succ fuel ih =>
      refine ⟨fun {ls rest t} h => ?_, fun {ms ls rest t t'} ht h => ?_,
        fun {least level ms ls rest t t'} ht hle hends h => ?_⟩
      · obtain ⟨_, hfuel, ⟨l, ms, u, rfl, hleaf, hmore⟩ | ⟨ms, u, ms', rfl, hinner, hmore⟩ |
          ⟨op, ms, u, rfl, rfl, hread⟩⟩ := operand?_cases h
        · cases hfuel
          obtain ⟨us, heq, hspells⟩ := ih.suffixes (.leaf hleaf) hmore
          exact ⟨us, heq, hspells.tighter⟩
        · cases hfuel
          obtain ⟨⟨us, rfl, hu⟩, -⟩ := ih.phrase (by decide) hinner
          obtain ⟨vs, heq, hspells⟩ := ih.suffixes (.parens hu) hmore
          exact ⟨vs, by simpa using heq, hspells.tighter⟩
        · cases hfuel
          obtain ⟨us, rfl, hu⟩ := ih.operand hread
          exact ⟨op.lexeme :: us, rfl, .unary op hu⟩
      · rcases suffixes?_cases h with ⟨rfl, rfl⟩ | ⟨_, hfuel, ⟨us, key, us', rfl, hread, hmore⟩ |
          ⟨s, us, rfl, hmore⟩ | ⟨us, rfl, hmore⟩ | ⟨us, args, us', rfl, hread, hmore⟩ |
          ⟨us, args, us', rfl, hread, hmore⟩⟩
        · exact ⟨ms, rfl, ht⟩
        · cases hfuel
          obtain ⟨⟨ks, rfl, hkey⟩, -⟩ := ih.phrase (by decide) hread
          simpa using ih.suffixes (.index ht hkey) hmore
        · cases hfuel
          simpa using ih.suffixes (.select ht s) hmore
        · cases hfuel
          simpa using ih.suffixes (.call ht) hmore
        · cases hfuel
          obtain ⟨⟨as, rfl, hargs⟩, -⟩ := ih.phrase (by decide) hread
          simpa using ih.suffixes (.callWith ht hargs) hmore
        · cases hfuel
          obtain ⟨⟨as, rfl, hargs⟩, -⟩ := ih.phrase (by decide) hread
          simpa using ih.suffixes (.callSpread ht hargs) hmore
      · rcases joints?_cases h with
          ⟨rfl, rfl, hend⟩ | ⟨_, j, us, r, us', hfuel, rfl, hleast, hright, hmore⟩
        · exact ⟨⟨ms, rfl, ht.loosen hle⟩, hend⟩
        · cases hfuel
          obtain ⟨⟨rs, rfl, hr⟩, hrest⟩ := ih.phrase j.level_lt hright
          have hleft : Spells j.level ms t := ht.loosen (Nat.le_of_lt_succ (hends j _ rfl))
          simpa using ih.joints (.joint hleft hr) hleast hrest hmore

/-- Lexemes are read as an expression exactly if they spell it. -/
theorem termOf?_eq_some_iff {ls : List Lexeme} {t : Term} :
    termOf? ls = some t ↔ Spells 1 ls t := by
  constructor
  · intro h
    unfold termOf? at h
    split at h
    · next u hread =>
        obtain ⟨⟨ms, rfl, hu⟩, -⟩ := (readIsSpelled _).phrase (by decide) hread
        cases h
        simpa using hu
    · cases h
  · intro h
    have hread : phrase? ls.length 1 (ls ++ []) = some (t, []) :=
      h.readsAt.phrase.upTo (endsPhrase_nil 1) (by simp)
    rw [List.append_nil] at hread
    rw [termOf?, hread]

/-! ## Where lexemes may stand -/

/-- Whether an operand is asked for behind a lexeme, where one was asked for in front of it or was
not; a lexeme that cannot stand there leads nowhere. -/
def Lexeme.follow : Bool → Lexeme → Option Bool
  | true, close => some false
  | true, .open => some true
  | true, l => if l.leaf?.isSome then some false else l.unary?.map fun _ => true
  | false, joint _ => some true
  | false, .open => some true
  | false, openIndex => some true
  | false, dot => some true
  | false, close => some false
  | false, closeIndex => some false
  | false, dots => some false
  | false, _ => none

/-- Follows lexemes from a place where an operand is asked for or is not. -/
def placed (asked : Bool) (ls : List Lexeme) : Option Bool := ls.foldlM Lexeme.follow asked

@[simp] theorem placed_nil (asked : Bool) : placed asked [] = some asked := rfl

theorem placed_append (asked : Bool) (ls ls' : List Lexeme) :
    placed asked (ls ++ ls') = (placed asked ls).bind fun asked => placed asked ls' :=
  List.foldlM_append

theorem placed_cons (asked : Bool) (l : Lexeme) (ls : List Lexeme) :
    placed asked (l :: ls) = (l.follow asked).bind fun asked => placed asked ls :=
  List.foldlM_cons

theorem Lexeme.follow_leaf {l : Lexeme} {t : Term} (h : l.leaf? = some t) :
    l.follow true = some false := by
  cases l with
  | name | number | text => rfl
  | _ => cases h

theorem UnaryOp.follow_lexeme (op : UnaryOp) : op.lexeme.follow true = some true := by
  cases op <;> rfl

/-- An expression stands where an operand is asked for, and none is asked for behind it. -/
theorem Spells.placed {level : Nat} {ls : List Lexeme} {t : Term} (h : Spells level ls t) :
    placed true ls = some false := by
  induction h with
  | leaf h => rw [placed_cons, Lexeme.follow_leaf h]; rfl
  | unary op _ ih => rw [placed_cons, op.follow_lexeme]; exact ih
  | tighter _ ih => exact ih
  | select _ s ih => rw [placed_append, ih]; rfl
  | _ => simp_all [placed_cons, placed_append, Lexeme.follow]

end DataAccess.Go
