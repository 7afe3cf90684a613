import DataAccess.Proofs.ExportedNames
import DataAccess.Proofs.PackageNames
import Mathlib.Data.List.Nodup
import Mathlib.Data.List.TakeWhile

set_option autoImplicit false

/-! # Well-formed runs

What a run has to satisfy is said here without the checks (`WellFormed`), and the checks are shown
to accept exactly that (`validate_eq_ok_iff`). For each check there is one equivalence. A check that
goes through a list with what it has seen so far is described for any state it may be in. -/

namespace DataAccess

/-! ## Filters at any depth -/

namespace Filter

/-- A filter occurs in another one: it is that filter itself, or it stands at some depth in it. -/
inductive Occurs (g : Filter) : Filter → Prop where
  | here : Occurs g g
  | inside {op : Connective} {fs : List Filter} {f : Filter} (hmem : f ∈ fs) (h : Occurs g f) :
      Occurs g (.group op fs)

theorem occurs_compare {g : Filter} {c : Comparison} : Occurs g (.compare c) ↔ g = .compare c := by
  constructor
  · intro h
    cases h
    rfl
  · rintro rfl
    exact .here

theorem occurs_group {g : Filter} {op : Connective} {fs : List Filter} :
    Occurs g (.group op fs) ↔ g = .group op fs ∨ ∃ f ∈ fs, Occurs g f := by
  constructor
  · intro h
    cases h with
    | here => exact .inl rfl
    | inside hmem h => exact .inr ⟨_, hmem, h⟩
  · rintro (rfl | ⟨f, hmem, h⟩)
    · exact .here
    · exact .inside hmem h

mutual

/-- The comparisons of a filter are those that occur in it. -/
theorem mem_comparisons_iff {c : Comparison} :
    ∀ {f : Filter}, c ∈ f.comparisons ↔ Occurs (.compare c) f
  | .compare c' => by
      rw [comparisons, List.mem_singleton, occurs_compare, Filter.compare.injEq]
  | .group op fs => by
      rw [comparisons, mem_allComparisons_iff, occurs_group]
      simp

theorem mem_allComparisons_iff {c : Comparison} :
    ∀ {fs : List Filter}, c ∈ allComparisons fs ↔ ∃ f ∈ fs, Occurs (.compare c) f
  | [] => by simp [allComparisons]
  | f :: fs => by
      rw [allComparisons, List.mem_append, mem_comparisons_iff, mem_allComparisons_iff]
      simp

end

end Filter

namespace Validation

open Go (exported isIdentifier identifierShape)
open Generation (Declared declaredNames reservedNames methodNames)

/-! ## What is well formed -/

/-- A method takes a parameter: an assignment gives its value to an attribute, or a comparison at
some depth of a filter compares an attribute with it. -/
def TakesParameter (q : Method) (p : String) : Prop :=
  (∃ a ∈ q.assignments, a.parameter = p) ∨
    ∃ f ∈ q.filters, ∃ c, Filter.Occurs (.compare c) f ∧ c.parameter = p

/-- A method that writes has something to write. -/
def HasContent : Method → Prop
  | .update m => m.set ≠ [] ∨ m.increment ≠ [] ∨ m.timestamp ≠ []
  | .add m => m.values ≠ []
  | .addOrReplace m => m.values ≠ []
  | .find _ => True
  | .delete _ => True

/-- What one method has to satisfy. -/
structure MethodFits (q : Method) : Prop where
  /-- The method has the name of a Go function. -/
  name : isIdentifier q.name = true
  /-- Every parameter has the name of a field. -/
  fields : ∀ p, TakesParameter q p → isIdentifier (exported p) = true
  /-- Different parameters have different fields. -/
  differ : ∀ p p', TakesParameter q p → TakesParameter q p' → exported p = exported p' → p = p'
  /-- Every negation, at any depth, has exactly one part. -/
  negations : ∀ f ∈ q.filters, ∀ parts, Filter.Occurs (.group .not parts) f → parts.length = 1
  content : HasContent q

/-- The names declared for all models, model by model. -/
def allDeclared (models : List Model) : List String :=
  models.flatMap fun m => (declaredNames m).map Declared.name

/-- What a run has to satisfy. -/
structure WellFormed (models : List Model) (r : Registry) : Prop where
  /-- No two models have the same name. -/
  names : (models.map Model.name).Nodup
  /-- Every model has the name of a Go struct. -/
  structs : ∀ m ∈ models, isIdentifier (exported m.name) = true
  methods : ∀ m ∈ models, ∀ q ∈ m.access.methods, MethodFits q
  /-- No name is declared twice. -/
  declared : (allDeclared models).Nodup
  /-- No name is declared that the generated code takes for granted. -/
  unreserved : ∀ name ∈ allDeclared models, name ∉ reservedNames
  /-- Every model can be resolved. -/
  resolves : ∀ m ∈ models, ∃ m', resolveModel r m = .ok m'

/-! ## Checks in a row -/

/-- Two checks in a row succeed exactly if both do. -/
theorem check_bind_eq_ok {ε β : Type} {x : Except ε Unit} {f : Unit → Except ε β} {b : β} :
    (x >>= f) = .ok b ↔ x = .ok () ∧ f () = .ok b := by
  rw [bind_eq_ok]
  constructor
  · rintro ⟨⟨⟩, hx, hf⟩
    exact ⟨hx, hf⟩
  · rintro ⟨hx, hf⟩
    exact ⟨(), hx, hf⟩

/-! ## Names of models -/

/-- Names that differ from each other and from those seen before. -/
def Fresh (seen names : List String) : Prop := names.Nodup ∧ ∀ name ∈ names, name ∉ seen

/-- Names are fresh one after the other: each is seen from then on. -/
theorem fresh_cons {seen names : List String} {name : String} :
    Fresh seen (name :: names) ↔ name ∉ seen ∧ Fresh (name :: seen) names := by
  constructor
  · rintro ⟨hnodup, hnew⟩
    obtain ⟨hname, hnodup⟩ := List.nodup_cons.1 hnodup
    obtain ⟨hseen, hnew⟩ := List.forall_mem_cons.1 hnew
    refine ⟨hseen, hnodup, fun n hn hmem => ?_⟩
    rcases List.mem_cons.1 hmem with rfl | hmem
    · exact hname hn
    · exact hnew n hn hmem
  · rintro ⟨hseen, hnodup, hnew⟩
    refine ⟨List.nodup_cons.2 ⟨fun hmem => ?_, hnodup⟩, List.forall_mem_cons.2 ⟨hseen, ?_⟩⟩
    · exact hnew name hmem List.mem_cons_self
    · exact fun n hn hmem => hnew n hn (List.mem_cons_of_mem _ hmem)

theorem fresh_nil {names : List String} : Fresh [] names ↔ names.Nodup := by simp [Fresh]

theorem checkModelNames_iff {seen : List String} {ms : List Model} :
    checkModelNames seen ms = .ok () ↔ Fresh seen (ms.map Model.name) := by
  induction ms generalizing seen with
  | nil => simp [checkModelNames, Fresh]
  | cons m ms ih =>
      rw [checkModelNames, List.map_cons, fresh_cons, ← ih]
      by_cases hseen : m.name ∈ seen
      · simp [hseen]
      · simp [hseen]

/-! ## Methods -/

theorem FieldsFit.mono {ps ps' : List String} (h : FieldsFit ps') (hsub : ∀ p ∈ ps, p ∈ ps') :
    FieldsFit ps where
  identifier p hp := h.identifier p (hsub p hp)
  differ p hp q hq := h.differ p (hsub p hp) q (hsub q hq)

/-- The check of parameters goes through if all fit together with those that were seen. -/
theorem checkParameters_of_fieldsFit {seen ps : List String} (h : FieldsFit (seen ++ ps)) :
    checkParameters (seen.map fun p => (exported p, p)) ps = .ok () := by
  induction ps generalizing seen with
  | nil => rfl
  | cons p ps ih =>
      have hid := h.identifier p (by simp)
      rw [checkParameters, lookup_exported, hid]
      cases hfind : seen.find? fun q => exported p == exported q with
      | some first =>
          -- The field was seen, so it is that of the same parameter.
          have hfirst : first ∈ seen := List.mem_of_find?_eq_some hfind
          have hfield := List.find?_some hfind
          have heq : first = p :=
            h.differ first (by simp [hfirst]) p (by simp) (beq_iff_eq.1 hfield).symm
          have hfit : FieldsFit (seen ++ ps) := h.mono (by grind)
          simpa [heq] using ih hfit
      | none =>
          have hfit : FieldsFit ((p :: seen) ++ ps) := h.mono (by grind)
          simpa using ih hfit

theorem checkParameters_iff {ps : List String} :
    checkParameters [] ps = .ok () ↔ FieldsFit ps :=
  ⟨checkParameters_ok, @checkParameters_of_fieldsFit [] ps⟩

/-- The parameters of a method are those that it takes. -/
theorem mem_parameters_iff {q : Method} {p : String} :
    p ∈ q.parameters ↔ TakesParameter q p := by
  rw [Method.parameters, List.mem_append, List.mem_map, List.mem_map, TakesParameter]
  constructor
  · rintro (h | ⟨c, hc, hp⟩)
    · exact .inl h
    · obtain ⟨f, hf, hoccurs⟩ := Filter.mem_allComparisons_iff.1 hc
      exact .inr ⟨f, hf, c, hoccurs, hp⟩
  · rintro (h | ⟨f, hf, c, hoccurs, hp⟩)
    · exact .inl h
    · exact .inr ⟨c, Filter.mem_allComparisons_iff.2 ⟨f, hf, hoccurs⟩, hp⟩

mutual

/-- The check of a filter looks at every negation in it. -/
theorem checkFilter_iff : ∀ {f : Filter}, checkFilter f = .ok () ↔
    ∀ parts, Filter.Occurs (.group .not parts) f → parts.length = 1
  | .compare c => by
      rw [checkFilter]
      simp [Filter.occurs_compare]
  | .group op fs => by
      rw [checkFilter]
      constructor
      · intro h parts hoccurs
        by_cases hnot : op = .not ∧ fs.length ≠ 1
        · rw [if_pos hnot] at h
          cases h
        · rw [if_neg hnot] at h
          rcases Filter.occurs_group.1 hoccurs with heq | ⟨f, hf, hinside⟩
          · cases heq
            by_contra hlength
            exact hnot ⟨rfl, hlength⟩
          · exact checkFilters_iff.1 h f hf parts hinside
      · intro h
        have hnot : ¬(op = .not ∧ fs.length ≠ 1) := by
          rintro ⟨rfl, hlength⟩
          exact hlength (h fs .here)
        rw [if_neg hnot]
        exact checkFilters_iff.2 fun f hf parts hoccurs => h parts (.inside hf hoccurs)

theorem checkFilters_iff : ∀ {fs : List Filter}, checkFilters fs = .ok () ↔
    ∀ f ∈ fs, ∀ parts, Filter.Occurs (.group .not parts) f → parts.length = 1
  | [] => by simp [checkFilters]
  | f :: fs => by
      rw [checkFilters, check_bind_eq_ok, List.forall_mem_cons, checkFilter_iff, checkFilters_iff]

end

theorem checkContent_iff {q : Method} : checkContent q = .ok () ↔ HasContent q := by
  cases q with
  | find m => simp [checkContent, HasContent]
  | update m =>
      simp only [checkContent, HasContent, Bool.and_eq_true, List.isEmpty_iff]
      split
      · next hempty => simp [hempty]
      · next hsome =>
          simp only [true_iff]
          by_contra hnone
          simp only [not_or, not_not] at hnone
          exact hsome ⟨⟨hnone.1, hnone.2.1⟩, hnone.2.2⟩
  | add m => cases hvalues : m.values <;> simp [checkContent, HasContent, hvalues]
  | addOrReplace m => cases hvalues : m.values <;> simp [checkContent, HasContent, hvalues]
  | delete m => simp [checkContent, HasContent]

/-- A name that starts with something else than white space is not empty without it. -/
theorem trim_ne_empty {s : String} {c : Char} {cs : List Char} (hs : s.toList = c :: cs)
    (hc : Unicode.isBlank c = false) : (Text.trim s).isEmpty = false := by
  have hfront : s.toList.dropWhile Unicode.isBlank = c :: cs := by
    rw [hs, List.dropWhile_cons_of_neg (by simp [hc])]
  have hback : (c :: cs).reverse.dropWhile Unicode.isBlank ≠ [] := by
    rw [Ne, List.dropWhile_eq_nil_iff]
    intro hall
    have hblank := hall c (by simp)
    rw [hc] at hblank
    cases hblank
  rw [Text.trim, hfront, Bool.eq_false_iff]
  intro hempty
  have hchars := congrArg String.toList (String.isEmpty_iff.1 hempty)
  rw [String.toList_ofList] at hchars
  exact hback (List.reverse_eq_nil_iff.1 hchars)

theorem checkMethodName_iff {name : String} :
    checkMethodName name = .ok () ↔ isIdentifier name = true := by
  rw [checkMethodName]
  by_cases hid : isIdentifier name = true
  · -- An identifier is not blank, so the first check refuses nothing that the second accepts.
    have hshape := Go.identifierShape_of_isIdentifier hid
    cases hchars : name.toList with
    | nil => rw [hchars] at hshape; cases hshape
    | cons c cs =>
        rw [hchars, identifierShape, Bool.and_eq_true] at hshape
        have htrim := trim_ne_empty hchars (Go.not_isBlank_of_isIdentifierStart hshape.1)
        simp [htrim, hid]
  · by_cases htrim : (Text.trim name).isEmpty = true
    · simp [htrim, hid]
    · simp [htrim, hid]

theorem checkMethod_iff {q : Method} : checkMethod q = .ok () ↔ MethodFits q := by
  rw [checkMethod, check_bind_eq_ok, check_bind_eq_ok, check_bind_eq_ok, checkMethodName_iff,
    checkParameters_iff, checkFilters_iff, checkContent_iff]
  constructor
  · rintro ⟨hname, hparameters, hnegations, hcontent⟩
    exact {
      name := hname
      fields := fun p hp => hparameters.identifier p (mem_parameters_iff.2 hp)
      differ := fun p p' hp hp' =>
        hparameters.differ p (mem_parameters_iff.2 hp) p' (mem_parameters_iff.2 hp')
      negations := hnegations
      content := hcontent }
  · intro h
    refine ⟨h.name, ⟨?_, ?_⟩, h.negations, h.content⟩
    · exact fun p hp => h.fields p (mem_parameters_iff.1 hp)
    · exact fun p hp p' hp' => h.differ p p' (mem_parameters_iff.1 hp) (mem_parameters_iff.1 hp')

/-! ## Models -/

theorem checkMethods_iff {model : String} {seen : List String} {ms : List Method} :
    checkMethods model seen ms = .ok () ↔
      (∀ q ∈ ms, MethodFits q) ∧ Fresh seen (ms.map Method.name) := by
  induction ms generalizing seen with
  | nil => simp [checkMethods, Fresh]
  | cons q ms ih =>
      rw [checkMethods, check_bind_eq_ok, mapError_eq_ok, checkMethod_iff, List.map_cons,
        fresh_cons, List.forall_mem_cons]
      by_cases hseen : q.name ∈ seen
      · simp [hseen]
      · rw [if_neg (by simpa using hseen), ih]
        constructor
        · rintro ⟨hq, hms, hfresh⟩
          exact ⟨⟨hq, hms⟩, hseen, hfresh⟩
        · rintro ⟨⟨hq, hms⟩, -, hfresh⟩
          exact ⟨hq, hms, hfresh⟩

theorem checkStructure_iff {m : Model} :
    checkStructure m = .ok () ↔ isIdentifier (exported m.name) = true ∧
      (∀ q ∈ m.access.methods, MethodFits q) ∧ (m.access.methods.map Method.name).Nodup := by
  rw [checkStructure]
  by_cases hid : isIdentifier (exported m.name) = true
  · simp [hid, checkMethods_iff, fresh_nil]
  · simp [hid]

theorem checkStructures_iff {ms : List Model} :
    checkStructures ms = .ok () ↔ ∀ m ∈ ms, checkStructure m = .ok () := by
  induction ms with
  | nil => simp [checkStructures]
  | cons m ms ih => rw [checkStructures, check_bind_eq_ok, ih, List.forall_mem_cons]

/-! ## Declared names -/

theorem lookup_eq_none_iff_not_mem {entries : List (String × String)} {key : String} :
    entries.lookup key = none ↔ key ∉ entries.map Prod.fst := by
  rw [List.lookup_eq_none_iff, List.mem_map]
  constructor
  · rintro h ⟨e, he, heq⟩
    exact bne_iff_ne.1 (h e he) heq.symm
  · intro h e he
    exact bne_iff_ne.2 fun heq => h ⟨e, he, heq.symm⟩

/-- Names that were not declared before can be declared. -/
theorem checkDeclared_of_nodup (model : String) {declared : List (String × String)}
    {ds : List Declared} (h : (ds.map Declared.name ++ declared.map Prod.fst).Nodup) :
    ∃ declared', checkDeclared model declared ds = .ok declared' := by
  induction ds generalizing declared with
  | nil => exact ⟨declared, rfl⟩
  | cons d ds ih =>
      rw [List.map_cons, List.cons_append] at h
      have hnew : d.name ∉ declared.map Prod.fst := fun hmem =>
        (List.nodup_cons.1 h).1 (List.mem_append_right _ hmem)
      rw [checkDeclared, lookup_eq_none_iff_not_mem.2 hnew]
      apply ih
      rw [List.map_cons, List.perm_middle.nodup_iff]
      exact h

/-- Methods with new names have no owner yet. -/
theorem checkOwners_of_nodup (model : String) {owners : List (String × String)}
    {ms : List Method} (h : (ms.map Method.name ++ owners.map Prod.fst).Nodup) :
    ∃ owners', checkOwners model owners ms = .ok owners' ∧
      (owners'.map Prod.fst).Perm (ms.map Method.name ++ owners.map Prod.fst) := by
  induction ms generalizing owners with
  | nil => exact ⟨owners, rfl, .refl _⟩
  | cons q ms ih =>
      rw [List.map_cons, List.cons_append] at h
      have hnew : q.name ∉ owners.map Prod.fst := fun hmem =>
        (List.nodup_cons.1 h).1 (List.mem_append_right _ hmem)
      have hfree : (ms.map Method.name ++ ((q.name, model) :: owners).map Prod.fst).Nodup := by
        rw [List.map_cons, List.perm_middle.nodup_iff]
        exact h
      obtain ⟨owners', howners, hperm⟩ := ih hfree
      refine ⟨owners', ?_, hperm.trans List.perm_middle⟩
      rw [checkOwners, lookup_eq_none_iff_not_mem.2 hnew]
      exact howners

/-- The names of all methods, model by model. -/
def allMethods (models : List Model) : List String :=
  models.flatMap fun m => m.access.methods.map Method.name

/-- The names of the methods are among the declared names. -/
theorem allMethods_sublist (models : List Model) :
    (allMethods models).Sublist (allDeclared models) := by
  have hone : ∀ names : List String, names.Sublist (names.flatMap fun q =>
      [q, Generation.paramsName q, Generation.requestName q, Generation.queryName q]) := by
    intro names
    induction names with
    | nil => exact .slnil
    | cons q names ih => exact .cons_cons q (ih.cons _ |>.cons _ |>.cons _)
  induction models with
  | nil => exact .slnil
  | cons m models ih =>
      have hmodel : (m.access.methods.map Method.name).Sublist
          ((declaredNames m).map Declared.name) := by
        rw [Generation.map_name_declaredNames, Generation.predictedNames]
        exact ((hone _).cons _).trans (List.sublist_append_left _ _)
      exact hmodel.append ih

/-- The names of all models pass the checks if they are new. -/
theorem checkPackage_of_nodup {owners declared : List (String × String)} {ms : List Model}
    (hmethods : (allMethods ms ++ owners.map Prod.fst).Nodup)
    (hdeclared : (allDeclared ms ++ declared.map Prod.fst).Nodup) :
    checkPackage owners declared ms = .ok () := by
  induction ms generalizing owners declared with
  | nil => rfl
  | cons m ms ih =>
      rw [allMethods, List.flatMap_cons, List.append_assoc] at hmethods
      rw [allDeclared, List.flatMap_cons, List.append_assoc] at hdeclared
      -- What stands behind the first model moves to its front: those are the names seen then.
      have hmethods' := (List.perm_append_comm_assoc _ _ _).nodup_iff.1 hmethods
      have hdeclared' := (List.perm_append_comm_assoc _ _ _).nodup_iff.1 hdeclared
      obtain ⟨owners', howners, hperm⟩ :=
        checkOwners_of_nodup m.name (List.nodup_append.1 hmethods').2.1
      obtain ⟨declared', hok⟩ :=
        checkDeclared_of_nodup m.name (List.nodup_append.1 hdeclared').2.1
      have hkeys := (checkDeclared_ok hok
        (List.nodup_append.1 (List.nodup_append.1 hdeclared').2.1).2.1).2
      rw [checkPackage]
      refine bind_eq_ok.2 ⟨owners', howners, bind_eq_ok.2 ⟨declared', hok, ih ?_ ?_⟩⟩
      · exact (hperm.append_left _).nodup_iff.2 hmethods'
      · exact (hkeys.append_left _).nodup_iff.2 hdeclared'

theorem checkPackage_iff {models : List Model} :
    checkPackage [] reservedDeclarations models = .ok () ↔
      (allDeclared models).Nodup ∧ ∀ name ∈ allDeclared models, name ∉ reservedNames := by
  have happend : (allDeclared models ++ reservedDeclarations.map Prod.fst).Nodup ↔
      (allDeclared models).Nodup ∧ ∀ name ∈ allDeclared models, name ∉ reservedNames := by
    rw [map_fst_reservedDeclarations, List.nodup_append]
    constructor
    · rintro ⟨hnodup, -, hnew⟩
      exact ⟨hnodup, fun name hname hmem => hnew name hname name hmem rfl⟩
    · rintro ⟨hnodup, hnew⟩
      refine ⟨hnodup, nodup_reservedNames, ?_⟩
      rintro name hname _ hmem rfl
      exact hnew name hname hmem
  rw [← happend]
  constructor
  · intro h
    exact checkPackage_ok h (by
      rw [map_fst_reservedDeclarations]
      exact nodup_reservedNames)
  · intro h
    -- The names of methods are declared too, so their own check refuses nothing more.
    have hdeclared := (List.nodup_append.1 h).1
    have hmethods := hdeclared.sublist (allMethods_sublist models)
    exact checkPackage_of_nodup (by simpa using hmethods) h

/-! ## Columns -/

theorem exported_fixedColumns : Sql.fixedColumns.map exported = ["ID", "Version", "UpdatedAt"] := by
  decide +kernel

/-- Columns pass if they and their fields are new, and the fields are identifiers. -/
theorem checkColumns_iff {fields : List (String × String)} {cs : List Attribute} :
    checkColumns fields cs = .ok () ↔
      (∀ c ∈ cs, c.name ∉ Sql.fixedColumns ∧ isIdentifier (exported c.name) = true) ∧
        Fresh (fields.map Prod.fst) (cs.map fun c => exported c.name) := by
  induction cs generalizing fields with
  | nil => simp [checkColumns, Fresh]
  | cons c cs ih =>
      rw [List.forall_mem_cons, List.map_cons, fresh_cons]
      unfold checkColumns
      by_cases hfixed : c.name ∈ Sql.fixedColumns
      · simp [hfixed]
      · by_cases hid : isIdentifier (exported c.name) = true
        · cases hlookup : fields.lookup (exported c.name) with
          | some first =>
              have hseen : exported c.name ∈ fields.map Prod.fst := by
                by_contra hnew
                rw [lookup_eq_none_iff_not_mem.2 hnew] at hlookup
                cases hlookup
              simp [hfixed, hid, hseen, hlookup]
          | none =>
              have hnew := lookup_eq_none_iff_not_mem.1 hlookup
              simp [hfixed, hid, hnew, hlookup, ih]
        · simp [hfixed, hid]

/-- A find may read the fixed columns and those of the model. -/
theorem checkProjection_iff {columns : List Attribute} {attributes : List String} :
    checkProjection columns attributes = .ok () ↔
      ∀ a ∈ attributes, a ∈ Sql.fixedColumns ++ columns.map Attribute.name := by
  unfold checkProjection
  cases hfind : attributes.find? fun a =>
      !Sql.fixedColumns.contains a && !columns.any (·.name == a) with
  | some a =>
      have hmem := List.mem_of_find?_eq_some hfind
      have hnot := List.find?_some hfind
      constructor
      · intro h
        cases h
      · intro h
        have ha := h a hmem
        simp at hnot ha
        rcases ha with ha | ⟨c, hc, hname⟩
        · exact absurd ha hnot.1
        · exact absurd hname (hnot.2 c hc)
  | none =>
      have hall := List.find?_eq_none.1 hfind
      refine iff_of_true rfl fun a ha => ?_
      have hnot := hall a ha
      simp at hnot ⊢
      by_cases hfixed : a ∈ Sql.fixedColumns
      · exact .inl hfixed
      · exact .inr (hnot hfixed)

/-- What resolution checks of the columns of a model. -/
theorem resolveModel_columns {r : Registry} {m : Model} {m' : Resolved}
    (h : resolveModel r m = .ok m') :
    checkColumns fixedFields m'.columns = .ok () ∧
      ∀ q ∈ m'.model.access.find, checkProjection m'.columns q.attributes = .ok () := by
  rw [resolveModel] at h
  obtain ⟨columns, hcolumns, h⟩ := bind_eq_ok.1 h
  obtain ⟨indexes, -, h⟩ := bind_eq_ok.1 h
  obtain ⟨access, haccess, h⟩ := bind_eq_ok.1 h
  cases h
  constructor
  · rw [mapError_eq_ok, resolveModelColumns] at hcolumns
    obtain ⟨columns', -, hcolumns⟩ := bind_eq_ok.1 hcolumns
    obtain ⟨hcheck, hcolumns⟩ := check_bind_eq_ok.1 hcolumns
    cases hcolumns
    exact hcheck
  · intro q hq
    rw [resolveAccess] at haccess
    obtain ⟨find, hfind, haccess⟩ := bind_eq_ok.1 haccess
    obtain ⟨_, -, haccess⟩ := bind_eq_ok.1 haccess
    obtain ⟨_, -, haccess⟩ := bind_eq_ok.1 haccess
    obtain ⟨_, -, haccess⟩ := bind_eq_ok.1 haccess
    obtain ⟨_, -, haccess⟩ := bind_eq_ok.1 haccess
    cases haccess
    obtain ⟨q', -, hresolve⟩ := exists_of_mem_right (mapM_eq_ok.1 hfind) hq
    rw [mapError_eq_ok, resolveFind] at hresolve
    obtain ⟨attributes, -, hresolve⟩ := bind_eq_ok.1 hresolve
    obtain ⟨hcheck, hresolve⟩ := check_bind_eq_ok.1 hresolve
    obtain ⟨filters, -, hresolve⟩ := bind_eq_ok.1 hresolve
    cases hresolve
    exact hcheck

/-! ## Runs -/

theorem validate_iff {models : List Model} {r : Registry} {resolved : List Resolved} :
    validate models r = .ok resolved ↔ checkModelNames [] models = .ok () ∧
      checkStructures models = .ok () ∧ checkPackage [] reservedDeclarations models = .ok () ∧
      List.Forall₂ (fun m m' => resolveModel r m = .ok m') models resolved := by
  rw [validate, check_bind_eq_ok, check_bind_eq_ok, check_bind_eq_ok, mapM_eq_ok]

/-- The checks of a run without its resolution. -/
theorem checks_iff {models : List Model} :
    (checkModelNames [] models = .ok () ∧ checkStructures models = .ok () ∧
      checkPackage [] reservedDeclarations models = .ok ()) ↔
      (models.map Model.name).Nodup ∧ (∀ m ∈ models, isIdentifier (exported m.name) = true) ∧
        (∀ m ∈ models, ∀ q ∈ m.access.methods, MethodFits q) ∧ (allDeclared models).Nodup ∧
        ∀ name ∈ allDeclared models, name ∉ reservedNames := by
  rw [checkModelNames_iff, fresh_nil, checkStructures_iff, checkPackage_iff]
  constructor
  · rintro ⟨hnames, hstructures, hdeclared⟩
    refine ⟨hnames, fun m hm => ?_, fun m hm => ?_, hdeclared⟩
    · exact (checkStructure_iff.1 (hstructures m hm)).1
    · exact (checkStructure_iff.1 (hstructures m hm)).2.1
  · rintro ⟨hnames, hstructs, hmethods, hdeclared⟩
    refine ⟨hnames, fun m hm => ?_, hdeclared⟩
    -- Methods of one name would be declared twice.
    have hnodup := hdeclared.1.sublist (allMethods_sublist models)
    exact checkStructure_iff.2 ⟨hstructs m hm, hmethods m hm,
      (List.nodup_flatMap.1 hnodup).1 m hm⟩

/-- An accepted run is well-formed, and its answer is every model resolved. -/
theorem validate_eq_ok_iff {models : List Model} {r : Registry} {resolved : List Resolved} :
    validate models r = .ok resolved ↔
      WellFormed models r ∧ models.map (resolveModel r) = resolved.map .ok := by
  have hmap : List.Forall₂ (fun m m' => resolveModel r m = .ok m') models resolved ↔
      models.map (resolveModel r) = resolved.map .ok := by
    rw [← List.forall₂_eq_eq_eq, List.forall₂_map_left_iff, List.forall₂_map_right_iff]
  rw [validate_iff, ← hmap]
  constructor
  · rintro ⟨hmodels, hstructures, hpackage, hresolved⟩
    obtain ⟨hnames, hstructs, hmethods, hdeclared, hunreserved⟩ :=
      checks_iff.1 ⟨hmodels, hstructures, hpackage⟩
    exact ⟨⟨hnames, hstructs, hmethods, hdeclared, hunreserved,
      exists_forall₂_iff.1 ⟨resolved, hresolved⟩⟩, hresolved⟩
  · rintro ⟨h, hresolved⟩
    obtain ⟨hmodels, hstructures, hpackage⟩ :=
      checks_iff.2 ⟨h.names, h.structs, h.methods, h.declared, h.unreserved⟩
    exact ⟨hmodels, hstructures, hpackage, hresolved⟩

/-- **Exactly the well-formed runs are accepted**, and then the answer is every model resolved, in
the order of the models. -/
theorem validate_accepts_iff (models : List Model) (r : Registry) :
    ((∃ resolved, validate models r = .ok resolved) ↔ WellFormed models r) ∧
      ∀ resolved, validate models r = .ok resolved ↔
        WellFormed models r ∧ models.map (resolveModel r) = resolved.map .ok := by
  refine ⟨⟨?_, fun h => ?_⟩, fun resolved => validate_eq_ok_iff⟩
  · rintro ⟨resolved, h⟩
    exact (validate_eq_ok_iff.1 h).1
  · obtain ⟨resolved, hresolved⟩ := exists_forall₂_iff.2 h.resolves
    obtain ⟨hmodels, hstructures, hpackage⟩ :=
      checks_iff.2 ⟨h.names, h.structs, h.methods, h.declared, h.unreserved⟩
    exact ⟨resolved, validate_iff.2 ⟨hmodels, hstructures, hpackage, hresolved⟩⟩

end Validation

end DataAccess
