import DataAccess.Proofs.Fragments
import DataAccess.Proofs.SqlReader
import Mathlib.Algebra.GroupWithZero.Nat

set_option autoImplicit false

/-! # The meaning of WHERE clauses

What a list of filters means is said without any text: everything with an unknown operator is taken
out (`Filter.prune`), and the value of what is left (`Filter.value`) is computed from the values of
its comparisons. The WHERE clause of the filters, read back as SQL, has the same value
(`where_means_filters`).

A condition is a piece of text that is read as one operand of AND, OR and NOT, wherever it stands
(`Stands`). This holds of comparisons, and it passes from the parts of a group to the group. -/

namespace DataAccess

open Sql

/-! ## The meaning of filters -/

/-- A subject as it is read. -/
def Sql.Subject.operand (s : Subject) : Operand :=
  match s.function with
  | some f => .call f (.column s.column)
  | none => .column s.column

/-- The comparison of a leaf, as it is read when its first placeholder has the number `next`. -/
def Comparison.atom (next : Nat) (c : Comparison) : Atom :=
  let subject : Subject := ⟨c.attr, c.transformation⟩
  match c.operator with
  | .isIn => .member subject.operand (.slot next)
  | .between => .between subject.operand (.slot next) (.slot (next + 1))
  | op => .compare subject.operand op (.slot next)

/-- The number of placeholders of a comparison; a range has two ends. -/
def Comparison.slots (c : Comparison) : Nat :=
  match c.operator with
  | .between => 2
  | _ => 1

namespace Filter

mutual

/-- A filter without unknown operators and without the groups that are empty then; nothing below an
unknown logical operator is kept. -/
def prune : Filter → Option Filter
  | .compare c => if c.operator.isKnown then some (.compare c) else none
  | .group op fs =>
    if op.isKnown && !(pruneAll fs).isEmpty then some (.group op (pruneAll fs)) else none

/-- What is left of several filters. -/
def pruneAll : List Filter → List Filter
  | [] => []
  | f :: fs => (prune f).toList ++ pruneAll fs

end

/-- The number of placeholders of a filter. -/
def slots (f : Filter) : Nat := (f.comparisons.map Comparison.slots).sum

mutual

/-- The value of a filter whose comparisons have the values `v`, by the number of their first
placeholder. -/
def value (v : Nat → Comparison → Bool) (next : Nat) : Filter → Bool
  | .compare c => v next c
  | .group op fs => match op with
    | .or => (values v next fs).any id
    | .not => !(values v next fs).all id
    | _ => (values v next fs).all id

/-- The values of several filters, whose placeholders are numbered one after the other. -/
def values (v : Nat → Comparison → Bool) (next : Nat) : List Filter → List Bool
  | [] => []
  | f :: fs => value v next f :: values v (next + f.slots) fs

end

end Filter

/-! ## Transformations -/

/-- Whether a name is that of a function: a bare word that is no keyword. -/
def Sql.isFunctionName (f : String) : Bool := isWord f.toList && (Keyword.ofWord? f).isNone

/-- Whether the transformation of a comparison, if it has one, is a function. -/
def Comparison.isReadable (c : Comparison) : Bool := c.transformation.all isFunctionName

namespace Sql

/-! ## Subjects -/

/-- The tokens of a subject. -/
def Subject.tokens (s : Subject) : List Token :=
  match s.function with
  | some f => [.word f, .sign .open, nameToken s.column, .sign .close]
  | none => [nameToken s.column]

theorem wordToken_of_isFunctionName {f : String} (h : isFunctionName f = true) :
    wordToken f = .word f := by
  rw [isFunctionName, Bool.and_eq_true, Option.isNone_iff_eq_none] at h
  rw [wordToken, h.2]

/-- A subject is cut into its tokens. -/
theorem lexes_subject (next : Nat) (s : Subject) (hs : s.function.all isFunctionName = true) :
    Lexes next s.text.toList s.tokens next := by
  obtain ⟨column, function⟩ := s
  cases function with
  | none => exact lexes_quote next column
  | some f =>
      have hf : isFunctionName f = true := hs
      have hword : Lexes next f.toList [.word f] next := by
        rw [← wordToken_of_isFunctionName hf]
        exact lexes_word next f (Bool.and_eq_true _ _ ▸ hf).1
      have hopen : Closes next "(".toList [.sign .open] next := rfl
      have hclose : Closes next ")".toList [.sign .close] next := rfl
      rw [Subject.text, String.toList_append, String.toList_append, String.toList_append]
      exact ((hword.append_closes hopen rfl).append_lexes (lexes_quote next column)).append
        hclose.lexes rfl

theorem operand?_name (name : String) (t : Token) (rest : List Token) (ht : t ≠ .sign .open) :
    operand? (nameToken name :: t :: rest) = some (.column name, t :: rest) := by
  by_cases h : (isPlain name.toList && !reservedWords.contains name) = true
  · rw [nameToken, if_pos h, operand?]
    · rw [if_pos h]
    · intro ts hts
      exact ht (List.cons.inj hts).1
  · rw [nameToken, if_neg h, operand?]

/-- A subject is read back, unless a parenthesis follows it. -/
theorem operand?_subject (s : Subject) (t : Token) (rest : List Token) (ht : t ≠ .sign .open) :
    operand? (s.tokens ++ t :: rest) = some (s.operand, t :: rest) := by
  obtain ⟨column, function⟩ := s
  cases function with
  | none => exact operand?_name column t rest ht
  | some f =>
      show operand? (.word f :: .sign .open :: nameToken column :: .sign .close :: t :: rest) = _
      rw [operand?, operand?_name column (.sign .close) (t :: rest) (by decide)]
      rfl

/-! ## Comparisons -/

/-- The text stands for one operand with a value. -/
def Stands (next : Nat) (text : String) (next' : Nat) (value : (Atom → Bool) → Bool) : Prop :=
  ∃ ts e, Lexes next text.toList ts next' ∧ Parses ts e ∧ ∀ v, e.eval v = value v

/-- A comparison behind a subject is one operand. -/
theorem parses_comparison (s : Subject) (t : Token) (ts : List Token) (a : Atom)
    (ht : t ≠ .sign .open)
    (h : ∀ rest, comparison? s.operand (t :: ts ++ rest) = some (a, rest)) :
    Parses (s.tokens ++ t :: ts) (.atom a) := by
  intro fuel rest hfuel
  have hatom : atom? (s.tokens ++ t :: ts ++ rest) = some (a, rest) := by
    rw [atom?, List.append_assoc, List.cons_append, operand?_subject s t _ ht]
    exact h rest
  rw [List.length_append, List.length_cons] at hfuel
  obtain ⟨fuel, rfl⟩ := Nat.exists_eq_add_of_le' (show 1 ≤ fuel by omega)
  exact negation?_atom hatom

/-- The tokens of an operator that stands between a subject and a value. -/
def operatorTokens : Operator → List Token
  | .eq => [.sign .eq]
  | .ne => [.sign .ne]
  | .lt => [.sign .lt]
  | .le => [.sign .le]
  | .gt => [.sign .gt]
  | .ge => [.sign .ge]
  | .like => [.keyword .like]
  | .notLike => [.keyword .not, .keyword .like]
  | .ilike => [.keyword .ilike]
  | .is => [.keyword .is]
  | .isNot => [.keyword .is, .keyword .not]
  | _ => []

/-- Whether an operator stands between a subject and a value. -/
def compares (op : Operator) : Bool := !(operatorTokens op).isEmpty

theorem closes_operator (next : Nat) (op : Operator) (hop : compares op = true) :
    Closes next (" " ++ op.spelling ++ " ").toList (operatorTokens op) next := by
  cases op with
  | isIn => cases hop
  | between => cases hop
  | unknown s => cases hop
  | _ => rfl

theorem breaks_blank (text : String) : breaks (" " ++ text ++ " ").toList = true := by
  rw [String.append_assoc, String.toList_append]
  rfl

theorem comparison?_operator (subject : Operand) (op : Operator) (n : Nat)
    (hop : compares op = true) (rest : List Token) :
    comparison? subject (operatorTokens op ++ .slot n :: rest) =
      some (.compare subject op (.slot n), rest) := by
  cases op with
  | isIn => cases hop
  | between => cases hop
  | unknown s => cases hop
  | _ => rfl

theorem truth_compare (v : Atom → Bool) (subject : Operand) (op : Operator) (n : Nat) :
    (Atom.compare subject op (.slot n)).truth v = v (.compare subject op (.slot n)) := by
  cases subject <;> cases op <;> rfl

/-- A comparison with one value stands for itself. -/
theorem stands_compare (d : Dialect) (next : Nat) (s : Subject) (op : Operator)
    (hs : s.function.all isFunctionName = true) (hop : compares op = true) :
    Stands next (s.text ++ (" " ++ op.spelling ++ " ") ++ d.placeholder next) (next + 1)
      fun v => v (.compare s.operand op (.slot next)) := by
  refine ⟨s.tokens ++ operatorTokens op ++ [.slot next], .atom (.compare s.operand op (.slot next)),
    ?_, ?_, fun v => truth_compare v s.operand op next⟩
  · rw [String.toList_append, String.toList_append]
    exact ((lexes_subject next s hs).append_closes (closes_operator next op hop)
      (breaks_blank op.spelling)).append_lexes (lexes_placeholder d next)
  · rw [List.append_assoc]
    cases htokens : operatorTokens op with
    | nil => rw [compares, htokens] at hop; cases hop
    | cons t ts =>
        refine parses_comparison s t (ts ++ [.slot next]) _ ?_ fun rest => ?_
        · rintro rfl
          cases op <;> cases htokens
        · have hread := comparison?_operator s.operand op next hop rest
          rw [htokens] at hread
          simpa using hread

/-- A test for a range is one operand; its AND is not that of a conjunction. -/
theorem stands_between (d : Dialect) (next : Nat) (s : Subject)
    (hs : s.function.all isFunctionName = true) :
    Stands next ("(" ++ s.text ++ " BETWEEN " ++ d.placeholder next ++ " AND " ++
        d.placeholder (next + 1) ++ ")") (next + 2)
      fun v => v (.between s.operand (.slot next) (.slot (next + 1))) := by
  -- BETWEEN takes its AND before a conjunction is looked for, so the inside is one operand.
  have hinner : Parses (s.tokens ++
      [.keyword .between, .slot next, .keyword .and, .slot (next + 1)])
      (.atom (.between s.operand (.slot next) (.slot (next + 1)))) :=
    parses_comparison s _ _ _ (by decide) fun rest => rfl
  refine ⟨_, _, ?_, (ParsesWithin.conjoin (.cons hinner .nil)).parens, fun v => rfl⟩
  have hopen : Closes next "(".toList [.sign .open] next := rfl
  have hbetween : Closes next " BETWEEN ".toList [.keyword .between] next := rfl
  have hand : Closes (next + 1) " AND ".toList [.keyword .and] (next + 1) := rfl
  have hclose : Closes (next + 2) ")".toList [.sign .close] (next + 2) := rfl
  simp only [String.toList_append]
  have hlexes := ((((((hopen.append_lexes (lexes_subject next s hs)).append_closes hbetween
    rfl).append_lexes (lexes_placeholder d next)).append_closes hand rfl).append_lexes
    (lexes_placeholder d (next + 1))).append hclose.lexes rfl)
  simpa [joinTokens] using hlexes

/-- The tokens before and behind the placeholder of a list. -/
def memberTokens : Dialect → List Token × List Token
  | .postgres => ([.sign .eq, .keyword .any, .sign .open], [.sign .close])
  | .sqlite =>
    ([.keyword .in, .sign .open, .keyword .select, .word "value", .keyword .from,
      .word "json_each", .sign .open], [.sign .close, .sign .close])

/-- A test for membership is one operand in either dialect. -/
theorem stands_member (d : Dialect) (next : Nat) (s : Subject)
    (hs : s.function.all isFunctionName = true) :
    Stands next (s.text ++ d.memberFrame.1 ++ d.placeholder next ++ d.memberFrame.2) (next + 1)
      fun v => v (.member s.operand (.slot next)) := by
  have hbefore : Closes next d.memberFrame.1.toList (memberTokens d).1 next := by
    cases d with
    | postgres => rfl
    | sqlite =>
        have hselect : Closes next " IN (SELECT ".toList
          [.keyword .in, .sign .open, .keyword .select] next := rfl
        have hvalue : Closes next "value FROM ".toList [.word "value", .keyword .from] next := rfl
        have heach : Closes next "json_each(".toList [.word "json_each", .sign .open] next := rfl
        exact hselect.append (hvalue.append heach)
  have hbehind : Closes (next + 1) d.memberFrame.2.toList (memberTokens d).2 (next + 1) := by
    cases d <;> rfl
  refine ⟨s.tokens ++ (memberTokens d).1 ++ [.slot next] ++ (memberTokens d).2,
    .atom (.member s.operand (.slot next)), ?_, ?_, fun v => rfl⟩
  · simp only [String.toList_append]
    exact (((lexes_subject next s hs).append_closes hbefore (by cases d <;> rfl)).append_lexes
      (lexes_placeholder d next)).append hbehind.lexes (by cases d <;> rfl)
  · rw [List.append_assoc, List.append_assoc]
    cases d <;> exact parses_comparison s _ _ _ (by decide) fun rest => rfl

/-! ## Groups -/

/-- The truth of a leaf, from that of the comparison it is read as. -/
def leafTruth (v : Atom → Bool) (next : Nat) (c : Comparison) : Bool := v (c.atom next)

/-- The condition has the placeholders of the filter, and its text stands for the filter's value. -/
def Agrees (d : Dialect) (c : Condition) (f : Filter) : Prop :=
  (c.fragment d).params.length = f.slots ∧
    ∀ next, Stands next ((c.fragment d).render d next) (next + f.slots)
      fun v => f.value (leafTruth v) next

/-- The token between the parts of a group. -/
def Junction.token : Junction → Token
  | .and => .keyword .and
  | .or => .keyword .or
  | .not => .keyword .and

/-- The tokens before the parts of a group. -/
def Junction.openingTokens : Junction → List Token
  | .and => [.sign .open]
  | .or => [.sign .open]
  | .not => [.keyword .not, .sign .open]

/-- The expression of a group. -/
def Junction.combine : Junction → Expr → List Expr → Expr
  | .and, e, es => e.conjoin es
  | .or, e, es => e.disjoin es
  | .not, e, es => .not (e.conjoin es)

/-- The parts of a group are read one by one, and the numbers go on from each to the next. -/
theorem lexes_join (d : Dialect) (j : Junction) (next : Nat) {c : Condition} {cs : List Condition}
    {f : Filter} {fs : List Filter} (h : List.Forall₂ (Agrees d) (c :: cs) (f :: fs)) :
    ∃ ts tss e es,
      Lexes next
        ((Fragment.join j.separator ((c :: cs).map (Condition.fragment d))).render d next).toList
        (joinTokens j.token (ts :: tss)) (next + ((f :: fs).map Filter.slots).sum) ∧
      List.Forall₂ Parses (ts :: tss) (e :: es) ∧
      ∀ v, (e :: es).map (Expr.eval v) = Filter.values (leafTruth v) next (f :: fs) := by
  induction cs generalizing c f fs next with
  | nil =>
      obtain ⟨⟨-, hstands⟩, hnil⟩ := List.forall₂_cons.1 h
      cases List.forall₂_nil_left_iff.1 hnil
      obtain ⟨ts, e, hlexes, hparses, heval⟩ := hstands next
      refine ⟨ts, [], e, [], ?_, .cons hparses .nil, fun v => ?_⟩
      · simpa [Fragment.join, joinTokens] using hlexes
      · simp [Filter.values, heval v]
  | cons b cs ih =>
      obtain ⟨⟨hwidth, hstands⟩, htail⟩ := List.forall₂_cons.1 h
      cases fs with
      | nil => cases htail
      | cons g fs =>
          obtain ⟨ts, e, hlexes, hparses, heval⟩ := hstands next
          obtain ⟨us, tss, e', es, hlexes', hparses', heval'⟩ := ih (next + f.slots) htail
          refine ⟨ts, us :: tss, e, e' :: es, ?_, .cons hparses hparses', fun v => ?_⟩
          · -- The separator starts with a blank, which ends the last token of the part before it.
            have hsep : Closes (next + f.slots) j.separator.toList [j.token] (next + f.slots) := by
              cases j <;> rfl
            have hall := (hlexes.append_closes hsep (by cases j <;> rfl)).append_lexes hlexes'
            simp only [List.map_cons, Fragment.join, Fragment.render_append, Fragment.render,
              hwidth, String.toList_append, joinTokens, List.sum_cons] at hall ⊢
            simpa [Nat.add_assoc] using hall
          · show e.eval v :: (e' :: es).map (Expr.eval v) = _
            rw [heval v, heval' v]
            rfl

theorem slots_group (op : Connective) (fs : List Filter) :
    (Filter.group op fs).slots = (fs.map Filter.slots).sum := by
  induction fs with
  | nil => rfl
  | cons f fs ih =>
      rw [List.map_cons, List.sum_cons, ← ih]
      simp [Filter.slots, Filter.comparisons, Filter.allComparisons]

theorem params_parts {d : Dialect} {cs : List Condition} {fs : List Filter}
    (h : List.Forall₂ (Agrees d) cs fs) :
    ((cs.map (Condition.fragment d)).flatMap Fragment.params).length =
      (fs.map Filter.slots).sum := by
  induction h with
  | nil => rfl
  | cons hc _ ih => simpa [hc.1] using ih

/-- The parts of a group, read between the parentheses. -/
theorem Junction.parses_combine (j : Junction) {ts : List Token} {tss : List (List Token)}
    {e : Expr} {es : List Expr} (h : List.Forall₂ Parses (ts :: tss) (e :: es)) :
    Parses (j.openingTokens ++ joinTokens j.token (ts :: tss) ++ [.sign .close])
      (j.combine e es) := by
  cases j with
  | and => exact (ParsesWithin.conjoin h).parens
  | or => exact (ParsesWithin.disjoin h).parens
  | not => exact (ParsesWithin.conjoin h).parens.not

/-- The value of a group, from the values of its parts. -/
theorem Junction.eval_combine {op : Connective} {j : Junction} (hj : op.junction? = some j)
    {v : Atom → Bool} {next : Nat} {fs : List Filter} {e : Expr} {es : List Expr}
    (h : (e :: es).map (Expr.eval v) = Filter.values (leafTruth v) next fs) :
    (j.combine e es).eval v = (Filter.group op fs).value (leafTruth v) next := by
  cases op with
  | and =>
      cases hj
      rw [Junction.combine, Expr.eval_conjoin, h]
      rfl
  | or =>
      cases hj
      rw [Junction.combine, Expr.eval_disjoin, h]
      rfl
  | not =>
      cases hj
      rw [Junction.combine, Expr.eval, Expr.eval_conjoin, h]
      rfl
  | unknown s => cases hj

/-- A group agrees if its parts do: its parentheses keep them together. -/
theorem agrees_group (d : Dialect) {op : Connective} {j : Junction} (hj : op.junction? = some j)
    {c : Condition} {cs : List Condition} {f : Filter} {fs : List Filter}
    (h : List.Forall₂ (Agrees d) (c :: cs) (f :: fs)) :
    Agrees d (.junction j (c :: cs)) (.group op (f :: fs)) := by
  rw [Agrees, slots_group]
  refine ⟨?_, fun next => ?_⟩
  · rw [← params_parts h]
    simp [Condition.fragment, Fragment.params, Fragment.params_join, Condition.fragments_eq_map]
  · obtain ⟨ts, tss, e, es, hlexes, hparses, heval⟩ := lexes_join d j next h
    refine ⟨_, _, ?_, j.parses_combine hparses, fun v => Junction.eval_combine hj (heval v)⟩
    have hopen : Closes next j.opening.toList j.openingTokens next := by cases j <;> rfl
    have hclose : ∀ n, Closes n ")".toList [.sign .close] n := fun n => rfl
    have htext : ((Condition.junction j (c :: cs)).fragment d).render d next =
        j.opening ++ (Fragment.join j.separator ((c :: cs).map (Condition.fragment d))).render d
          next ++ ")" := by
      simp [Condition.fragment, Fragment.render, Fragment.render_append, Condition.fragments_eq_map,
        String.append_assoc]
    rw [htext, String.toList_append, String.toList_append]
    exact (hopen.append_lexes hlexes).append (hclose _).lexes rfl

/-! ## Filters -/

theorem agrees_leaf {d : Dialect} {cond : Condition} {c : Comparison}
    (hwidth : (cond.fragment d).params.length = c.slots)
    (h : ∀ next, Stands next ((cond.fragment d).render d next) (next + c.slots)
      fun v => v (c.atom next)) : Agrees d cond (.compare c) := by
  have hslots : (Filter.compare c).slots = c.slots := by
    simp [Filter.slots, Filter.comparisons]
  rw [Agrees, hslots]
  exact ⟨hwidth, h⟩

/-- A comparison with one value agrees with its condition. -/
theorem agrees_compare (d : Dialect) (c : Comparison) (hc : c.isReadable = true)
    (hop : compares c.operator = true) :
    Agrees d (.compare ⟨c.attr, c.transformation⟩ c.operator c.parameter) (.compare c) := by
  obtain ⟨attr, transformation, op, parameter⟩ := c
  have hslots : (Comparison.mk attr transformation op parameter).slots = 1 := by
    cases op with
    | between => cases hop
    | _ => rfl
  have hatom : ∀ next, (Comparison.mk attr transformation op parameter).atom next =
      .compare (Subject.mk attr transformation).operand op (.slot next) := by
    intro next
    cases op with
    | isIn => cases hop
    | between => cases hop
    | _ => rfl
  refine agrees_leaf (by rw [hslots]; rfl) fun next => ?_
  rw [hslots, hatom]
  simpa [Condition.fragment, Fragment.render, String.append_assoc] using
    stands_compare d next ⟨attr, transformation⟩ op hc hop

/-- A comparison is left out, or agrees with its condition. -/
theorem agrees_comparison (d : Dialect) (c : Comparison) (hc : c.isReadable = true) :
    List.Forall₂ (Agrees d) c.condition?.toList (Filter.prune (.compare c)).toList := by
  obtain ⟨attr, transformation, op, parameter⟩ := c
  -- The two operators with a text of their own, and the rest, which differ in spelling only.
  cases op with
  | unknown s => exact .nil
  | isIn =>
      refine .cons (agrees_leaf rfl fun next => ?_) .nil
      simpa [Condition.fragment, Fragment.render, String.append_assoc, Comparison.slots,
        Comparison.atom] using stands_member d next ⟨attr, transformation⟩ hc
  | between =>
      refine .cons (agrees_leaf rfl fun next => ?_) .nil
      simpa [Condition.fragment, Fragment.render, String.append_assoc, Comparison.slots,
        Comparison.atom] using stands_between d next ⟨attr, transformation⟩ hc
  | _ => exact .cons (agrees_compare d ⟨attr, transformation, _, parameter⟩ hc rfl) .nil

theorem isSome_junction? (op : Connective) : op.junction?.isSome = op.isKnown := by
  cases op <;> rfl

mutual

/-- What is left of a filter agrees with its condition. -/
theorem agrees_filter (d : Dialect) : ∀ f : Filter, (∀ c ∈ f.comparisons, c.isReadable = true) →
    List.Forall₂ (Agrees d) f.condition?.toList f.prune.toList
  | .compare c, h => agrees_comparison d c (h c List.mem_cons_self)
  | .group op fs, h => by
      have hfs := agrees_filters d fs h
      rw [Filter.condition?, Filter.prune, ← isSome_junction? op]
      cases hj : op.junction? with
      | none => exact .nil
      | some j =>
          -- A group is empty exactly if all its parts are left out.
          generalize Filter.conditions fs = cs at hfs ⊢
          generalize Filter.pruneAll fs = ps at hfs ⊢
          cases hfs with
          | nil => exact .nil
          | cons hc hcs => exact .cons (agrees_group d hj (.cons hc hcs)) .nil

/-- What is left of several filters agrees with their conditions. -/
theorem agrees_filters (d : Dialect) : ∀ fs : List Filter,
    (∀ c ∈ Filter.allComparisons fs, c.isReadable = true) →
    List.Forall₂ (Agrees d) (Filter.conditions fs) (Filter.pruneAll fs)
  | [], _ => .nil
  | f :: fs, h => by
      have hf := agrees_filter d f fun c hc => h c (List.mem_append_left _ hc)
      have hfs := agrees_filters d fs fun c hc => h c (List.mem_append_right _ hc)
      exact List.rel_append hf hfs

end

/-- What is left of a list of filters is nothing, or text that stands for their conjunction. -/
theorem stands_all (d : Dialect) (fs : List Filter)
    (h : ∀ c ∈ Filter.allComparisons fs, c.isReadable = true) :
    (Filter.allCondition? fs = none ∧ Filter.pruneAll fs = []) ∨
      ∃ c, Filter.allCondition? fs = some c ∧ ∀ next, ∃ next',
        Stands next ((c.fragment d).render d next) next'
          fun v => (Filter.values (leafTruth v) next (Filter.pruneAll fs)).all id := by
  match fs with
  | [] => exact .inl ⟨rfl, rfl⟩
  | [f] =>
      have hf := agrees_filter d f fun c hc => h c (List.mem_append_left _ hc)
      have hprune : Filter.pruneAll [f] = f.prune.toList := List.append_nil _
      rw [Filter.allCondition?, hprune]
      generalize f.condition? = c at hf ⊢
      generalize f.prune = p at hf ⊢
      cases c with
      | none => exact .inl ⟨rfl, List.forall₂_nil_left_iff.1 hf⟩
      | some c =>
          cases p with
          | none => cases hf
          | some p =>
              refine .inr ⟨c, rfl, fun next => ⟨next + p.slots, ?_⟩⟩
              simpa [Filter.values] using (List.forall₂_cons.1 hf).1.2 next
  | f :: g :: fs =>
      have hall := agrees_filters d (f :: g :: fs) h
      show (Condition.join? .and (Filter.conditions (f :: g :: fs)) = none ∧ _) ∨
        ∃ c, Condition.join? .and (Filter.conditions (f :: g :: fs)) = some c ∧ _
      generalize Filter.conditions (f :: g :: fs) = cs at hall ⊢
      generalize Filter.pruneAll (f :: g :: fs) = ps at hall ⊢
      cases hall with
      | nil => exact .inl ⟨rfl, rfl⟩
      | cons hc hcs =>
          have hgroup : Agrees d (.junction .and _) (.group .and _) :=
            agrees_group d rfl (.cons hc hcs)
          exact .inr ⟨_, rfl, fun next => ⟨_, hgroup.2 next⟩⟩

/-- The condition before all others is one operand, and it is true. -/
theorem parses_always : Parses [.number 1, .sign .eq, .number 1]
    (.atom (.compare (.number 1) .eq (.number 1))) := by
  intro fuel rest hfuel
  obtain ⟨fuel, rfl⟩ := Nat.exists_eq_add_of_le' (show 1 ≤ fuel by simp at hfuel; omega)
  exact negation?_atom rfl

/-- A WHERE clause is read as the conjunction of what is left of the filters. -/
theorem readWhere?_of_stands {next next' : Nat} {text : String} {value : (Atom → Bool) → Bool}
    (h : Stands next text next' value) :
    ∃ e, readWhere? next ("WHERE 1=1 AND " ++ text) = some e ∧ ∀ v, e.eval v = value v := by
  obtain ⟨ts, e, hlexes, hparses, heval⟩ := h
  have hstart : Closes next "WHERE 1=1 AND ".toList
      [.keyword .where, .number 1, .sign .eq, .number 1, .keyword .and] next := rfl
  have htokens : tokens? next ("WHERE 1=1 AND " ++ text) = some (.keyword .where ::
      joinTokens (.keyword .and) [[.number 1, .sign .eq, .number 1], ts]) := by
    apply Lexes.tokens?
    rw [String.toList_append]
    exact hstart.append_lexes hlexes
  have hread := (ParsesWithin.conjoin (.cons parses_always (.cons hparses .nil))).expression?
  rw [readWhere?, htokens]
  refine ⟨_, hread, fun v => ?_⟩
  rw [Expr.eval_conjoin, ← heval v]
  simp [Expr.eval, Atom.truth]

/-- **WHERE clauses mean what their filters mean.** For any filters whose transformations are
functions, in either dialect and with any number for the first placeholder, the clause can be read
as SQL, and under every truth assignment its value is the conjunction of the values of the pruned
filters. -/
theorem where_means_filters (d : Dialect) (next : Nat) (fs : List Filter)
    (h : ∀ c ∈ Filter.allComparisons fs, c.isReadable = true) :
    ∃ e, readWhere? next ((whereTail d fs).render d next) = some e ∧
      ∀ v, e.eval v = (Filter.values (leafTruth v) next (Filter.pruneAll fs)).all id := by
  rw [whereTail_eq]
  rcases stands_all d fs h with ⟨hnone, hprune⟩ | ⟨c, hsome, hstands⟩
  · have htext : Fragment.render d next [.text "WHERE 1=1"] = "WHERE 1=1" := String.append_empty
    have hread : readWhere? next "WHERE 1=1" =
        some (.atom (.compare (.number 1) .eq (.number 1))) := rfl
    rw [hnone, hprune, htext]
    exact ⟨_, hread, fun v => rfl⟩
  · obtain ⟨next', hnext⟩ := hstands next
    rw [hsome]
    exact readWhere?_of_stands hnext

/-- A tree with every kind of node: what is left of it is a disjunction and a comparison, with a
range and a membership test under a negation. -/
def sampleFilters : List Filter :=
  [.group .or
    [.compare ⟨"e\"mail", some "LOWER", .like, "mail"⟩,
     .group .not
      [.compare ⟨"age", none, .between, "ages"⟩,
       .group (.unknown "XOR") [.compare ⟨"id", none, .eq, "id"⟩],
       .compare ⟨"order", none, .isIn, "orders"⟩]],
   .compare ⟨"name", none, .unknown "~", "name"⟩,
   .group .and [],
   .compare ⟨"name", none, .isNot, "name"⟩]

theorem sampleFilters_meaning :
    (∀ c ∈ Filter.allComparisons sampleFilters, c.isReadable = true) ∧
      ∃ e, readWhere? 1 ((whereTail .sqlite sampleFilters).render .sqlite 1) = some e ∧
        ∀ v, e.eval v =
          (Filter.values (leafTruth v) 1 (Filter.pruneAll sampleFilters)).all id :=
  have h : ∀ c ∈ Filter.allComparisons sampleFilters, c.isReadable = true := by decide
  ⟨h, where_means_filters .sqlite 1 sampleFilters h⟩

end Sql

end DataAccess
