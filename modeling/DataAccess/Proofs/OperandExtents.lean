import DataAccess.Proofs.PrintedOperators

set_option autoImplicit false

/-! # What printed operators apply to

A unary operator, an index or a method call is printed around the text of a node. The text is read
back by the rules of Go: a unary operator applies to the node that it was built with
(`Node.IsTerm.term?_expr`), except where signs run into each other. No parentheses are printed
around the target of an index or the receiver of a method, so an index or a call belongs to the last
operand of the target (`Node.IsTerm.term?_index`, `Node.IsTerm.term?_method`), and behind a number
the point of a method call is taken for a part of the number. -/

namespace DataAccess.Go

/-! ## What stands behind a printed expression -/

/-- Nothing is read if a sign runs into the next one. Otherwise what stands behind an expression
belongs to its last operand. -/
theorem Node.IsTerm.term?_append {n : Node} {t : Term} (h : n.IsTerm t) {c : Char} {cs : List Char}
    {ms : List Lexeme} {q : Scan} {f : Term → Term} (hms : Scanned (c :: cs) ms q)
    (hf : Suffix ms f)
    (hc : ∀ p, Scanned n.expr.toList t.lexemes p → p.EndsIn t.endsInNumber → p.takes c = false)
    {text : String} (htext : text.toList = n.expr.toList ++ c :: cs) :
    term? text = if t.unfused then some (t.attach f) else none := by
  cases hunfused : t.unfused with
  | false =>
      have hmisplaced := (h.misplaced hunfused).append (c :: cs)
      rw [← htext] at hmisplaced
      exact hmisplaced.term?_eq_none
  | true =>
      obtain ⟨p, hp, hends⟩ := h.printed hunfused
      have hscanned := hp.append hms (hc p hp hends)
      rw [← htext] at hscanned
      have hspells := (h.spells_attach hf).loosen h.one_le_level
      exact term?_eq_some_iff_scanned.2 ⟨_, q, hscanned, hspells⟩

theorem Node.IsTerm.term?_index {n key : Node} {t k : Term} (h : n.IsTerm t)
    (hkey : term? key.expr = some k) :
    term? (Node.index n key).expr = if t.unfused then some (t.attach (.index · k)) else none := by
  obtain ⟨ks, p, hp, hspells⟩ := term?_eq_some_iff_scanned.1 hkey
  refine h.term?_append hp.index (fun ls u hu => .index hu hspells)
    (fun p hp _ => hp.takes_of_parts (by decide)) ?_
  simp [Node.index, Node.ofShape, Node.expr, Shape.render]

/-! ## Arguments -/

/-- The arguments of a call can be read, and dots behind a last one that is spread are a lexeme of
their own. -/
structure ArgumentsRead (spread : Bool) (args : List Node) : Prop where
  readable : ∀ a ∈ args, (term? a.expr).isSome = true
  dots : spread = true → ∀ a ∈ args.getLast?,
    lexemes? (a.expr ++ "...") = (lexemes? a.expr).map (· ++ [.dots])

/-- What the arguments of a call are read as. -/
def argumentTerms (args : List Node) : List Term := args.filterMap fun a => term? a.expr

/-- A call with arguments, the last of which may be spread. -/
def Term.applied (spread : Bool) (args : List Term) (t : Term) : Term :=
  match args with
  | [] => .call t
  | a :: as =>
    if spread then .callSpread t (as.foldl (.joint .comma) a)
    else .callWith t (as.foldl (.joint .comma) a)

/-- Further arguments, each behind a comma. -/
def moreArguments (args : List Node) : List Char :=
  args.flatMap fun a => ',' :: ' ' :: a.expr.toList

theorem toList_intercalate_exprs (a : Node) (args : List Node) :
    (String.intercalate ", " (Node.exprs (a :: args))).toList =
      a.expr.toList ++ moreArguments args := by
  rw [Node.exprs_eq_map]
  induction args generalizing a with
  | nil => simp [moreArguments]
  | cons b args ih =>
      rw [List.map_cons, List.map_cons, String.intercalate_cons_cons, ← List.map_cons,
        String.toList_append, String.toList_append, ih]
      simp [moreArguments]

/-- A comma and a blank between two pieces. -/
theorem Scanned.comma {cs ds : List Char} {ls ms : List Lexeme} {p q : Scan}
    (hcs : Scanned cs ls p) (hds : Scanned ds ms q) :
    Scanned (cs ++ ',' :: ' ' :: ds) (ls ++ .joint .comma :: ms) q := by
  have hcomma : Scanned [','] [.joint .comma] (.sign [',']) :=
    ⟨[], [.joint .comma], by decide, by decide, rfl⟩
  exact hcs.append (hcomma.behind_blank hds) (hcs.takes_of_parts (by decide))

/-- Arguments that can be read are joined by commas. -/
theorem exists_scanned_more {args : List Node} (h : ∀ a ∈ args, (term? a.expr).isSome = true)
    {cs : List Char} {ls : List Lexeme} {p : Scan} {t : Term} (hcs : Scanned cs ls p)
    (ht : Spells 0 ls t) :
    ∃ ms q, Scanned (cs ++ moreArguments args) ms q ∧
      Spells 0 ms ((argumentTerms args).foldl (.joint .comma) t) := by
  -- By induction on the arguments; what has been read so far is the left side of the next comma.
  induction args generalizing cs ls p t with
  | nil => exact ⟨ls, p, by simpa [moreArguments] using hcs, ht⟩
  | cons a args ih =>
      obtain ⟨ha, hargs⟩ := List.forall_mem_cons.1 h
      obtain ⟨u, hu⟩ := Option.isSome_iff_exists.1 ha
      obtain ⟨us, q, hq, hspells⟩ := term?_eq_some_iff_scanned.1 hu
      have hjoint : Spells 0 (ls ++ .joint .comma :: us) (.joint .comma t u) :=
        Spells.joint (j := .comma) ht hspells
      obtain ⟨ms, r, hr, hms⟩ := ih hargs (hcs.comma hq) hjoint
      refine ⟨ms, r, by simpa [moreArguments] using hr, ?_⟩
      simpa [argumentTerms, hu] using hms

theorem ArgumentsRead.scanned_last {args : List Node} (h : ArgumentsRead true args) {a : Node}
    (ha : a ∈ args.getLast?) {ls : List Lexeme} {p : Scan} (hp : Scanned a.expr.toList ls p) :
    ∃ q, Scanned (a.expr.toList ++ "...".toList) (ls ++ [.dots]) q := by
  have hlexemes := h.dots rfl a ha
  rw [lexemes?_eq_some_iff.2 ⟨p, hp⟩] at hlexemes
  rw [← String.toList_append]
  exact lexemes?_eq_some_iff.1 hlexemes

/-- Dots stand behind the last of several arguments. -/
theorem ArgumentsRead.exists_scanned_dots {a : Node} {args : List Node}
    (h : ArgumentsRead true (a :: args)) {t : Term} (ht : term? a.expr = some t) :
    ∃ ls p, Scanned (a.expr.toList ++ moreArguments args ++ "...".toList) (ls ++ [.dots]) p ∧
      Spells 0 ls ((argumentTerms args).foldl (.joint .comma) t) := by
  obtain ⟨us, q, hq, hus⟩ := term?_eq_some_iff_scanned.1 ht
  rcases List.eq_nil_or_concat' args with rfl | ⟨before, b, rfl⟩
  · obtain ⟨p, hp⟩ := h.scanned_last (List.getLast?_singleton ▸ rfl) hq
    exact ⟨us, p, by simpa [moreArguments] using hp, hus.tighter⟩
  · have hreadable : ∀ c ∈ before ++ [b], (term? c.expr).isSome = true := fun c hc =>
      h.readable c (List.mem_cons_of_mem a hc)
    obtain ⟨hbefore, hb⟩ := List.forall_mem_append.1 hreadable
    obtain ⟨ms, r, hr, hms⟩ := exists_scanned_more hbefore hq hus.tighter
    obtain ⟨u, hu⟩ := Option.isSome_iff_exists.1 (hb b List.mem_cons_self)
    obtain ⟨vs, w, hw, hvs⟩ := term?_eq_some_iff_scanned.1 hu
    have hlast : b ∈ (a :: (before ++ [b])).getLast? := by
      rw [← List.cons_append, List.getLast?_concat]
      rfl
    obtain ⟨p, hp⟩ := h.scanned_last hlast hw
    have hjoint : Spells 0 (ms ++ .joint .comma :: vs) _ := Spells.joint (j := .comma) hms hvs
    refine ⟨ms ++ .joint .comma :: vs, p, ?_, ?_⟩
    · simpa [moreArguments] using hr.comma hp
    · simpa [argumentTerms, hu] using hjoint

/-- The arguments of a call belong to what is called. -/
theorem ArgumentsRead.exists_scanned {spread : Bool} {args : List Node}
    (h : ArgumentsRead spread args) :
    ∃ ls p, Scanned (arguments spread (Node.exprs args)).toList ls p ∧
      Suffix (.open :: (ls ++ [.close])) (Term.applied spread (argumentTerms args)) := by
  cases args with
  | nil =>
      have hempty : (arguments spread (Node.exprs [])).toList = [] := by
        simp [arguments, Node.exprs]
      rw [hempty]
      exact ⟨[], .nothing, ⟨[], [], rfl, rfl, rfl⟩, fun ls t ht => .call ht⟩
  | cons a args =>
      obtain ⟨t, ht⟩ := Option.isSome_iff_exists.1 (h.readable a List.mem_cons_self)
      have hterms : argumentTerms (a :: args) = t :: argumentTerms args := by
        simp [argumentTerms, ht]
      rw [hterms]
      cases spread with
      | true =>
          obtain ⟨ls, p, hp, hspells⟩ := h.exists_scanned_dots ht
          refine ⟨ls ++ [.dots], p, ?_, fun us u hu => ?_⟩
          · rw [← toList_intercalate_exprs] at hp
            simpa [arguments, Node.exprs] using hp
          · simpa [Term.applied] using Spells.callSpread hu hspells
      | false =>
          obtain ⟨us, q, hq, hus⟩ := term?_eq_some_iff_scanned.1 ht
          obtain ⟨ls, p, hp, hspells⟩ := exists_scanned_more
            (fun b hb => h.readable b (List.mem_cons_of_mem a hb)) hq hus.tighter
          refine ⟨ls, p, ?_, fun us u hu => .callWith hu hspells⟩
          rw [← toList_intercalate_exprs] at hp
          simpa [arguments] using hp

/-- A method name and the arguments behind it. -/
theorem scanned_method {m : String} (hm : isName m = true) {cs : List Char}
    {ls : List Lexeme} {p : Scan} (hcs : Scanned cs ls p) :
    Scanned ('.' :: (m.toList ++ '(' :: (cs ++ [')'])))
      (.dot :: .name m :: .open :: (ls ++ [.close])) (.sign [')']) := by
  have hpoint : Scanned ['.'] [.dot] (.sign ['.']) := ⟨[], [.dot], by decide, by decide, rfl⟩
  have hname := scanned_name hm
  have hcall := hname.append hcs.parens (hname.takes_of_parts (by decide))
  obtain ⟨c, ds, hchars, -, hparts⟩ := exists_cons_of_isName hm
  rw [hchars] at hcall ⊢
  exact hpoint.append hcall (Scan.takes_sign_of_isWordPart (hparts c List.mem_cons_self) _)

theorem Node.IsTerm.term?_method {n : Node} {t : Term} (h : n.IsTerm t) {m : String}
    (hm : isName m = true) {spread : Bool} {args : List Node} (hargs : ArgumentsRead spread args)
    (origin : Option Import) :
    term? (Node.call ⟨.method n m, args, spread, .immediate, origin⟩).expr =
      if t.unfused && !t.endsInNumber then
        some (t.attach fun u => (Term.select u m).applied spread (argumentTerms args))
      else none := by
  obtain ⟨ls, p, hp, hsuffix⟩ := hargs.exists_scanned
  have htext : (Node.call ⟨.method n m, args, spread, .immediate, origin⟩).expr.toList =
      n.expr.toList ++ '.' :: (m.toList ++ '(' ::
        ((arguments spread (Node.exprs args)).toList ++ [')'])) := by
    simp [Node.call, Node.ofShape, Node.expr, Shape.render, Call.render, Callee.render,
      CallMode.apply]
  cases hnumber : t.endsInNumber with
  | false =>
      rw [Bool.not_false, Bool.and_true]
      refine h.term?_append (scanned_method hm hp) (fun us u hu => ?_)
        (fun q _ hends => ?_) htext
      · simpa using hsuffix _ _ (hu.select m)
      · rwa [hnumber] at hends
  | true =>
      have hmisplaced : Misplaced (n.expr.toList ++ ['.']) := by
        cases hunfused : t.unfused with
        | false => exact (h.misplaced hunfused).append _
        | true =>
            obtain ⟨q, hq, hends⟩ := h.printed hunfused
            rw [hnumber] at hends
            obtain ⟨read, rfl⟩ := hends
            exact hq.misplaced_point
      have hnone := hmisplaced.append
        (m.toList ++ '(' :: ((arguments spread (Node.exprs args)).toList ++ [')']))
      rw [List.append_assoc, List.singleton_append, ← htext] at hnone
      rw [hnone.term?_eq_none]
      simp

/-! ## The extent of operators -/

/-- An operand with something behind it. -/
inductive Term.IsSuffixed : Term → Prop where
  | index (t key : Term) : IsSuffixed (.index t key)
  | call (t : Term) : IsSuffixed (.call t)
  | callWith (t args : Term) : IsSuffixed (.callWith t args)
  | callSpread (t args : Term) : IsSuffixed (.callSpread t args)

theorem Term.IsSuffixed.applied (spread : Bool) (args : List Term) (t : Term) :
    (t.applied spread args).IsSuffixed := by
  cases args with
  | nil => exact .call t
  | cons a args =>
      cases spread with
      | true => exact .callSpread t _
      | false => exact .callWith t _

/-- What stands behind an expression belongs to all of it only if it is one operand. -/
theorem Node.IsTerm.attach_eq_iff {n : Node} {t : Term} (h : n.IsTerm t) {f : Term → Term}
    (hf : (f t).IsSuffixed) :
    t.attach f = f t ↔ (∃ s, t = .name s) ∨ ∃ m, t = .number m := by
  cases h with
  | @ident s => exact ⟨fun _ => .inl ⟨s, rfl⟩, fun _ => rfl⟩
  | @natural m => exact ⟨fun _ => .inr ⟨m, rfl⟩, fun _ => rfl⟩
  | negative | unary | binary =>
      constructor
      · intro heq
        rw [← heq] at hf
        cases hf
      · rintro (⟨s, hname⟩ | ⟨m, hnumber⟩)
        · cases hname
        · cases hnumber

/-- **What printed operators apply to.** Reading a text gives exactly the expression that its
longest lexemes spell. The text of a unary operator in front of an expression is read as the
operator applied to the expression, unless some minus sign or ampersand runs into another one; then
it is not read at all. What is printed behind an expression belongs to its last operand. So an index
applies to the whole expression exactly if that is an identifier or a number, and a method call
exactly if it is an identifier; behind a number, the point is taken for a part of it. -/
theorem operand_extents {n : Node} {t : Term} (h : n.IsTerm t) :
    (∀ text u, term? text = some u ↔ ∃ ls, lexemes? text = some ls ∧ Spells 1 ls u) ∧
    (∀ op, term? (Node.unary op n).expr =
      if (Term.unary op t).unfused then some (.unary op t) else none) ∧
    (∀ key k, term? key.expr = some k →
      term? (Node.index n key).expr = (if t.unfused then some (t.attach (.index · k)) else none) ∧
      (term? (Node.index n key).expr = some (.index t k) ↔
        (∃ s, t = .name s) ∨ ∃ m, t = .number m)) ∧
    ∀ m spread args origin, isName m = true → ArgumentsRead spread args →
      term? (Node.call ⟨.method n m, args, spread, .immediate, origin⟩).expr =
        (if t.unfused && !t.endsInNumber then
          some (t.attach fun u => (Term.select u m).applied spread (argumentTerms args))
        else none) ∧
      (term? (Node.call ⟨.method n m, args, spread, .immediate, origin⟩).expr =
          some ((Term.select t m).applied spread (argumentTerms args)) ↔ ∃ s, t = .name s) := by
  refine ⟨fun _ _ => term?_eq_some_iff, fun op => (Node.IsTerm.unary h).term?_expr,
    fun key k hkey => ?_, fun m spread args origin hm hargs => ?_⟩
  · refine ⟨h.term?_index hkey, ?_⟩
    rw [h.term?_index hkey, Option.ite_none_right_eq_some, Option.some.injEq,
      h.attach_eq_iff (f := (.index · k)) (.index _ _)]
    refine and_iff_right_of_imp fun hleaf => ?_
    rcases hleaf with ⟨s, rfl⟩ | ⟨m, rfl⟩ <;> rfl
  · refine ⟨h.term?_method hm hargs origin, ?_⟩
    rw [h.term?_method hm hargs origin, Option.ite_none_right_eq_some, Option.some.injEq,
      h.attach_eq_iff (f := fun u => (Term.select u m).applied spread (argumentTerms args))
        (.applied _ _ _)]
    constructor
    · rintro ⟨hends, hname | ⟨k, rfl⟩⟩
      · exact hname
      · cases hends
    · rintro ⟨s, rfl⟩
      exact ⟨rfl, .inl ⟨s, rfl⟩⟩

/-- A negative number at the right of a sum. -/
def sumWithNegative : Node := .binary .add (.ident "a") (.int (-5))

theorem sumWithNegative_extents :
    sumWithNegative.IsTerm (.binary .add (.name "a") (.unary .neg (.number 5))) ∧
      term? (Node.unary .neg sumWithNegative).expr =
        some (.unary .neg (.binary .add (.name "a") (.unary .neg (.number 5)))) ∧
      term? (Node.index sumWithNegative (.str "k")).expr =
        some (.binary .add (.name "a") (.unary .neg (.index (.number 5) (.text "\"k\"")))) ∧
      term? (Node.call (.method sumWithNegative "String" [.ident "x"])).expr = none := by
  have hterm : sumWithNegative.IsTerm (.binary .add (.name "a") (.unary .neg (.number 5))) :=
    .binary (.ident (by decide +kernel)) .negative
  have hkey : term? (Node.str "k").expr = some (.text "\"k\"") := by decide +kernel
  have hargs : ArgumentsRead false [.ident "x"] := ⟨by decide +kernel, nofun⟩
  obtain ⟨-, hunary, hindex, hmethod⟩ := operand_extents hterm
  exact ⟨hterm, hunary .neg, (hindex _ _ hkey).1,
    (hmethod "String" false _ none (by decide +kernel) hargs).1⟩

/-- The index of a sum is read as an index of its right operand, and the negation of a negative
number is not read at all. -/
theorem indexedSum_read_apart :
    (Node.index (.binary .add (.ident "a") (.ident "b")) (.ident "k")).expr = "a + b[k]" ∧
      term? "a + b[k]" = some (.binary .add (.name "a") (.index (.name "b") (.name "k"))) ∧
      term? "a + b[k]" ≠ some (.index (.binary .add (.name "a") (.name "b")) (.name "k")) ∧
      (Node.unary .neg (.int (-5))).expr = "--5" ∧ term? "--5" = none := by
  decide +kernel

end DataAccess.Go
