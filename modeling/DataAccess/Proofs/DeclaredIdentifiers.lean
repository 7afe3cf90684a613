import DataAccess.Proofs.ExportedNames
import DataAccess.Proofs.WellFormed

set_option autoImplicit false

/-! # Which declared names are identifiers

The names of a model and of its methods are checked, and what is declared for them is made from
these names. Putting words behind an identifier keeps it an identifier. Camel case may not: it
leaves out the underscores a name starts with, and it changes the case of letters. `CamelSafe` says
which names survive it. An exported name always does (`camelSafe_exported`), the name of a method
may not, so all declared names are identifiers but the query constants of some methods. -/

namespace DataAccess.Go

open DataAccess.Naming DataAccess.Text DataAccess.Unicode

/-! ## Identifiers with words behind them -/

theorem lowercase_keywords : ∀ w ∈ "_" :: keywords, w.toList.all (!·.isUpper) = true := by decide

/-- A text with a capital is neither reserved nor blank, so only its shape counts. -/
theorem isIdentifier_of_isUpper {s : String} {c : Char} (hc : c ∈ s.toList)
    (hupper : c.isUpper = true) : isIdentifier s = identifierShape s.toList := by
  have hnot : s ∉ "_" :: keywords := by
    intro hmem
    have hlower := List.all_eq_true.1 (lowercase_keywords s hmem) c hc
    rw [hupper] at hlower
    cases hlower
  rw [List.mem_cons, not_or] at hnot
  rw [isIdentifier, bne_iff_ne.2 hnot.1, List.contains_eq_mem, decide_eq_false hnot.2]
  simp

/-- A word that is put behind a name: it starts with a capital and goes on like an identifier. -/
structure IsSuffix (t : String) : Prop where
  capital : ∃ c ∈ t.toList, c.isUpper = true
  shape : identifierShape t.toList = true

theorem IsSuffix.of_isAlpha {t : String} (c : Char)
    (h : c ∈ t.toList ∧ c.isUpper = true ∧ t.toList.all Char.isAlpha = true) : IsSuffix t :=
  ⟨⟨c, h.1, h.2.1⟩, identifierShape_of_isAlpha (List.ne_nil_of_mem h.1) h.2.2⟩

theorem identifierShape_append {cs ds : List Char} (hcs : identifierShape cs = true)
    (hds : ds.all isIdentifierPart = true) : identifierShape (cs ++ ds) = true := by
  cases cs with
  | nil => cases hcs
  | cons c cs =>
      rw [identifierShape, Bool.and_eq_true] at hcs
      rw [List.cons_append, identifierShape, List.all_append, hcs.1, hcs.2, hds]
      rfl

theorem isIdentifier_append_suffix {s t : String} (ht : IsSuffix t) :
    isIdentifier (s ++ t) = identifierShape (s.toList ++ t.toList) := by
  obtain ⟨c, hc, hupper⟩ := ht.capital
  rw [isIdentifier_of_isUpper (by rw [String.toList_append]; exact List.mem_append_right _ hc)
    hupper, String.toList_append]

theorem IsSuffix.append {s t : String} (ht : IsSuffix t) (hs : isIdentifier s = true) :
    isIdentifier (s ++ t) = true := by
  rw [isIdentifier_append_suffix ht]
  exact identifierShape_append (identifierShape_of_isIdentifier hs)
    (all_part_of_identifierShape ht.shape)

/-! ## Camel case -/

/-- The characters that the words of a name start with. -/
def initials (s : String) : List Char := (splitBy isSeparator s.toList).filterMap List.head?

/-- Names that stay usable in identifiers when they are put in camel case. -/
structure CamelSafe (s : String) : Prop where
  /-- No word starts with a letter whose capital needs a combining mark. -/
  capitals : ∀ c ∈ initials s, needsMark c = false
  /-- The first word starts with a letter, and its lower case needs no combining mark either. -/
  first : ∀ c ∈ (initials s).head?, isAlphabetic c = true ∧ c ≠ dottedI

instance (s : String) : Decidable (CamelSafe s) :=
  decidable_of_iff
    (((initials s).all fun c => !needsMark c) = true ∧
      ((initials s).head?.all fun c => isAlphabetic c && c != dottedI) = true)
    ⟨fun h => ⟨by simpa using h.1, by simpa [Option.all_eq_true] using h.2⟩,
      fun h => ⟨by simpa using h.capitals, by simpa [Option.all_eq_true] using h.first⟩⟩

/-- Words in capitals consist of characters of identifiers unless a capital needs a mark. -/
theorem all_part_capitalize {pieces : List (List Char)}
    (h : ∀ piece ∈ pieces, piece.all isIdentifierPart = true) :
    ((pieces.map capitalize).flatten).all isIdentifierPart = true ↔
      ∀ c ∈ pieces.filterMap List.head?, needsMark c = false := by
  induction pieces with
  | nil => simp
  | cons piece pieces ih =>
      obtain ⟨hpiece, hpieces⟩ := List.forall_mem_cons.1 h
      rw [List.map_cons, List.flatten_cons, List.all_append, Bool.and_eq_true, ih hpieces]
      cases piece with
      | nil => simp [capitalize]
      | cons c cs =>
          rw [List.all_cons, Bool.and_eq_true] at hpiece
          rw [capitalize, List.all_append, all_part_upper hpiece.1, hpiece.2]
          simp

/-- A character of an identifier that is neither a letter nor an underscore cannot start one. -/
theorem not_isIdentifierStart {c : Char} (hc : isAlphabetic c = false) (hne : c ≠ '_') :
    isIdentifierStart c = false := by
  simp [isIdentifierStart, hc, hne]

theorem upper_dottedI : upper dottedI = [dottedI] := by decide +kernel

theorem not_part_combiningDot : isIdentifierPart (Char.ofNat 0x307) = false :=
  not_part_combiningMark (by decide)

/-- The first of the words decides how an identifier in camel case starts. -/
theorem shape_camel_iff {pieces : List (List Char)} {suffix : List Char}
    (hparts : ∀ piece ∈ pieces, piece.all isIdentifierPart = true)
    (hunderscore : ∀ piece ∈ pieces, '_' ∉ piece) (hsuffix : identifierShape suffix = true) :
    identifierShape (uncapitalize ((pieces.map capitalize).flatten) ++ suffix) = true ↔
      (∀ c ∈ pieces.filterMap List.head?, needsMark c = false) ∧
        ∀ c ∈ (pieces.filterMap List.head?).head?, isAlphabetic c = true ∧ c ≠ dottedI := by
  have htail := all_part_of_identifierShape hsuffix
  induction pieces with
  | nil => simpa [uncapitalize] using hsuffix
  | cons piece pieces ih =>
      obtain ⟨hpiece, hpieces⟩ := List.forall_mem_cons.1 hparts
      obtain ⟨hnone, hnones⟩ := List.forall_mem_cons.1 hunderscore
      cases piece with
      | nil =>
          rw [List.map_cons, List.flatten_cons, capitalize, List.nil_append,
            List.filterMap_cons_none List.head?_nil]
          exact ih hpieces hnones
      | cons c cs =>
          have hrest := all_part_capitalize hpieces
          rw [List.all_cons, Bool.and_eq_true] at hpiece
          rw [List.map_cons, List.flatten_cons, capitalize,
            List.filterMap_cons_some List.head?_cons, List.forall_mem_cons, List.head?_cons]
          cases halpha : isAlphabetic c with
          | false =>
              -- The character keeps its place at the front, where only a letter can stand.
              have hstart := not_isIdentifierStart halpha fun heq => hnone (by simp [heq])
              rw [upper_of_not_alphabetic halpha]
              simp [uncapitalize, lower_of_not_alphabetic halpha, identifierShape, hstart, halpha]
          | true =>
              obtain ⟨u, us, hupper, hu⟩ := exists_upper halpha
              have hmarked := all_part_upper hpiece.1
              rw [hupper, List.all_cons, isIdentifierPart_of_isAlphabetic hu,
                Bool.true_and] at hmarked
              rw [hupper]
              by_cases hdot : u = dottedI
              · have hc : c = dottedI := (head_upper hupper).2 hdot
                simp [uncapitalize, hdot, hc, lower_dottedI, identifierShape,
                  not_part_combiningDot]
              · have hne : c ≠ dottedI := by
                  rintro rfl
                  rw [upper_dottedI] at hupper
                  injection hupper with heq
                  exact hdot heq.symm
                obtain ⟨l, hlower, hl⟩ := exists_lower hu hdot
                have hstart : isIdentifierStart l = true := by simp [isIdentifierStart, hl]
                simp only [List.cons_append, uncapitalize, hlower, List.nil_append,
                  identifierShape, hstart, Bool.true_and, List.all_append, Bool.and_eq_true,
                  hmarked, hpiece.2, hrest, htail, Bool.not_eq_true', and_true]
                constructor
                · intro h
                  refine ⟨h, ?_⟩
                  rintro d ⟨⟩
                  exact ⟨halpha, hne⟩
                · exact fun h => h.1

/-- The pieces of an identifier between its underscores. -/
theorem pieces_of_isIdentifier {s : String} (h : isIdentifier s = true) :
    ∀ piece ∈ splitBy isSeparator s.toList,
      piece.all isIdentifierPart = true ∧ '_' ∉ piece := by
  have hparts := all_part_of_identifierShape (identifierShape_of_isIdentifier h)
  intro piece hpiece
  refine ⟨List.all_eq_true.2 fun c hc => ?_, fun hmem => ?_⟩
  · exact List.all_eq_true.1 hparts c (mem_splitBy.1 ⟨piece, hpiece, hc⟩).1
  · have hsep := (mem_splitBy.1 ⟨piece, hpiece, hmem⟩).2
    exact absurd hsep (by decide)

/-- An identifier in camel case with a word behind it is an identifier exactly if it is safe. -/
theorem isIdentifier_camel_iff {s t : String} (hs : isIdentifier s = true) (ht : IsSuffix t) :
    isIdentifier (camel s ++ t) = true ↔ CamelSafe s := by
  rw [isIdentifier_append_suffix ht, camel, String.toList_ofList, pascalChars,
    shape_camel_iff (fun piece hpiece => (pieces_of_isIdentifier hs piece hpiece).1)
      (fun piece hpiece => (pieces_of_isIdentifier hs piece hpiece).2) ht.shape]
  exact ⟨fun h => ⟨h.1, h.2⟩, fun h => ⟨h.capitals, h.first⟩⟩

/-- An exported name has one word, and that starts with an ordinary letter. -/
theorem camelSafe_exported {s : String} (h : isIdentifier (exported s) = true) :
    CamelSafe (exported s) := by
  have hshape := identifierShape_of_isIdentifier h
  have hnone : ∀ c ∈ (exported s).toList, isSeparator c = false := by
    intro c hc
    rw [Bool.eq_false_iff]
    exact fun hsep => separator_not_mem_exported hsep s hc
  cases hchars : (exported s).toList with
  | nil => rw [hchars] at hshape; cases hshape
  | cons u us =>
      have hinitials : initials (exported s) = [u] := by
        rw [initials, splitBy_of_none hnone, hchars]
        rfl
      obtain ⟨hmark, hdot⟩ := head_exported hchars
      have halpha : isAlphabetic u = true := by
        rw [hchars, identifierShape, Bool.and_eq_true, isIdentifierStart, Bool.or_eq_true,
          beq_iff_eq] at hshape
        rcases hshape.1 with halpha | rfl
        · exact halpha
        · exact absurd (hchars ▸ List.mem_cons_self) (separator_not_mem_exported (by decide) s)
      constructor
      · intro c hc
        rw [hinitials, List.mem_singleton] at hc
        rw [hc]
        exact hmark
      · intro c hc
        rw [hinitials] at hc
        cases hc
        exact ⟨halpha, hdot⟩

end DataAccess.Go

namespace DataAccess.Generation

open Go (CamelSafe IsSuffix exported isIdentifier)
open Validation

/-! ## Declared names -/

theorem isSuffix_params : IsSuffix "Params" := .of_isAlpha 'P' (by decide)

theorem isSuffix_request : IsSuffix "Request" := .of_isAlpha 'R' (by decide)

theorem isSuffix_query : IsSuffix "Query" := .of_isAlpha 'Q' (by decide)

theorem isSuffix_statements : IsSuffix "Statements" := .of_isAlpha 'S' (by decide)

theorem isIdentifier_prepareName {goName : String} (h : isIdentifier goName = true) :
    isIdentifier (prepareName goName) = true := by
  have hparts := Go.all_part_of_identifierShape (Go.identifierShape_of_isIdentifier h)
  have hprepare : Go.identifierShape "Prepare".toList = true :=
    Go.identifierShape_of_isAlpha (by decide) (by decide)
  rw [prepareName, Go.isIdentifier_append_suffix isSuffix_statements, String.toList_append]
  exact Go.identifierShape_append (Go.identifierShape_append hprepare hparts)
    (Go.all_part_of_identifierShape isSuffix_statements.shape)

/-- The names declared for a method: all but the query constant are identifiers in any case. -/
theorem mem_methodNames {name method : String} (h : isIdentifier method = true)
    (hname : name ∈ [method, paramsName method, requestName method, queryName method]) :
    isIdentifier name = true ∨ name = queryName method := by
  simp only [List.mem_cons, List.not_mem_nil, or_false] at hname
  rcases hname with rfl | rfl | rfl | rfl
  · exact .inl h
  · exact .inl (isSuffix_params.append h)
  · exact .inl (isSuffix_request.append h)
  · exact .inr rfl

/-- A name declared for a model is an identifier in any case or a query constant. -/
theorem mem_declaredNames {m : Model} (hm : isIdentifier (exported m.name) = true)
    (hmethods : ∀ q ∈ m.access.methods, isIdentifier q.name = true) {d : Declared}
    (hd : d ∈ declaredNames m) :
    isIdentifier d.name = true ∨ ∃ q ∈ m.access.methods, d.name = queryName q.name := by
  have hname : d.name ∈ predictedNames (exported m.name) (m.access.methods.map Method.name) := by
    rw [← map_name_declaredNames]
    exact List.mem_map_of_mem hd
  rw [predictedNames, List.mem_append, List.mem_cons, List.mem_flatMap] at hname
  rcases hname with (hname | ⟨method, hmethod, hname⟩) | hname
  · rw [hname]
    exact .inl hm
  · obtain ⟨q, hq, rfl⟩ := List.mem_map.1 hmethod
    exact (mem_methodNames (hmethods q hq) hname).imp_right fun heq => ⟨q, hq, heq⟩
  · have hpair : d.name ∈ [prepareName (exported m.name), statementsName (exported m.name)] := by
      rw [ifMethods] at hname
      split at hname
      · cases hname
      · exact hname
    simp only [List.mem_cons, List.not_mem_nil, or_false] at hpair
    rcases hpair with heq | heq
    · rw [heq]
      exact .inl (isIdentifier_prepareName hm)
    · rw [heq]
      exact .inl ((Go.isIdentifier_camel_iff hm isSuffix_statements).2
        (Go.camelSafe_exported hm))

/-- **Every declared name is an identifier, but for some query constants.** In an accepted run a
declared name is an identifier exactly if every method whose query constant it is has a name that
camel case leaves usable. -/
theorem declared_identifier_iff {models : List Model} {r : Registry} {resolved : List Resolved}
    (h : validate models r = .ok resolved) :
    ∀ m ∈ models, ∀ d ∈ declaredNames m,
      (isIdentifier d.name = true ↔
        ∀ q ∈ m.access.methods, d.name = queryName q.name → CamelSafe q.name) := by
  intro m hm d hd
  have hwell := (validate_eq_ok_iff.1 h).1
  have hmethods : ∀ q ∈ m.access.methods, isIdentifier q.name = true := fun q hq =>
    (hwell.methods m hm q hq).name
  constructor
  · intro hid q hq heq
    rw [heq] at hid
    exact (Go.isIdentifier_camel_iff (hmethods q hq) isSuffix_query).1 hid
  · intro hsafe
    rcases mem_declaredNames (hwell.structs m hm) hmethods hd with hid | ⟨q, hq, heq⟩
    · exact hid
    · rw [heq]
      exact (Go.isIdentifier_camel_iff (hmethods q hq) isSuffix_query).2 (hsafe q hq heq)

/-- A method whose name is an identifier only because of the underscore in front. -/
def underscoredModels : List Model :=
  [{ name := "user", access := { delete := [{ name := "_1" }, { name := "DeleteAll" }] } }]

theorem underscoredModels_accepted : ∃ resolved, validate underscoredModels {} = .ok resolved := by
  apply exists_ok_of_isOk
  decide +kernel

theorem underscoredModels_declared :
    ∃ resolved, validate underscoredModels {} = .ok resolved ∧
      ∃ m ∈ underscoredModels, ∃ d ∈ declaredNames m, d.name = "deleteAllQuery" ∧
        (∀ q ∈ m.access.methods, d.name = queryName q.name → CamelSafe q.name) ∧
        isIdentifier d.name = true := by
  obtain ⟨resolved, h⟩ := underscoredModels_accepted
  obtain ⟨m, hm, d, hd, hname, hsafe⟩ : ∃ m ∈ underscoredModels, ∃ d ∈ declaredNames m,
      d.name = "deleteAllQuery" ∧
        ∀ q ∈ m.access.methods, d.name = queryName q.name → CamelSafe q.name := by
    decide +kernel
  exact ⟨resolved, h, m, hm, d, hd, hname, hsafe, (declared_identifier_iff h m hm d hd).2 hsafe⟩

/-- The query constant of `_1` would be `1Query`. -/
theorem query_constant_not_identifier :
    ∃ resolved, validate underscoredModels {} = .ok resolved ∧
      ∃ m ∈ underscoredModels, ∃ d ∈ declaredNames m, isIdentifier d.name = false := by
  obtain ⟨resolved, h⟩ := underscoredModels_accepted
  exact ⟨resolved, h, by decide +kernel⟩

end DataAccess.Generation
