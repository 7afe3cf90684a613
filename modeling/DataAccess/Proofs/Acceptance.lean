import DataAccess.Validation.Package
import Mathlib.Data.List.Forall2

set_option autoImplicit false

/-! # What an accepted run satisfies

`validate` is a chain of checks. This file says what each check guarantees when it succeeds: the
parameters of a method become different fields (`checkParameters_ok`), the names declared for all
models differ from each other and from the reserved ones (`checkPackage_ok`), and resolution keeps
everything of a method but its attributes (`resolveModel_ok`). -/

namespace DataAccess.Validation

open Go (exported isIdentifier)
open Generation (Declared declaredNames reservedNames)

/-! ## Computations that succeed -/

section Success

variable {ε ε' α β : Type}

theorem bind_eq_ok {x : Except ε α} {f : α → Except ε β} {b : β} :
    (x >>= f) = .ok b ↔ ∃ a, x = .ok a ∧ f a = .ok b := by
  cases x <;> simp [bind, Except.bind]

theorem mapError_eq_ok {x : Except ε α} {g : ε → ε'} {a : α} :
    x.mapError g = .ok a ↔ x = .ok a := by
  cases x <;> simp [Except.mapError]

theorem exists_ok_of_isOk {x : Except ε α} (h : x.isOk = true) : ∃ a, x = .ok a := by
  cases x with
  | error e => cases h
  | ok a => exact ⟨a, rfl⟩

/-- A traversal succeeds exactly if it succeeds at every element. -/
theorem mapM_eq_ok {f : α → Except ε β} {as : List α} {bs : List β} :
    as.mapM f = .ok bs ↔ List.Forall₂ (fun a b => f a = .ok b) as bs := by
  induction as generalizing bs with
  | nil => cases bs <;> simp [pure, Except.pure]
  | cons a as ih =>
      rw [List.mapM_cons]
      constructor
      · intro h
        obtain ⟨b, hb, h⟩ := bind_eq_ok.1 h
        obtain ⟨bs', hbs, h⟩ := bind_eq_ok.1 h
        cases h
        exact .cons hb (ih.1 hbs)
      · intro h
        cases h with
        | cons hb hbs =>
            rw [hb, show as.mapM f = _ from ih.2 hbs]
            rfl

theorem exists_of_mem_right {R : α → β → Prop} {as : List α} {bs : List β}
    (h : List.Forall₂ R as bs) {b : β} (hb : b ∈ bs) : ∃ a ∈ as, R a b := by
  induction h with
  | nil => cases hb
  | cons hab _ ih =>
      rcases List.mem_cons.1 hb with rfl | hb
      · exact ⟨_, List.mem_cons_self, hab⟩
      · obtain ⟨a, ha, hR⟩ := ih hb
        exact ⟨a, List.mem_cons_of_mem _ ha, hR⟩

/-- Elements that all have a partner have a list of partners. -/
theorem exists_forall₂_iff {R : α → β → Prop} {as : List α} :
    (∃ bs, List.Forall₂ R as bs) ↔ ∀ a ∈ as, ∃ b, R a b := by
  induction as with
  | nil => simp
  | cons a as ih =>
      rw [List.forall_mem_cons, ← ih]
      constructor
      · rintro ⟨bs, h⟩
        cases h with
        | cons ha has => exact ⟨⟨_, ha⟩, ⟨_, has⟩⟩
      · rintro ⟨⟨b, ha⟩, ⟨bs, has⟩⟩
        exact ⟨b :: bs, .cons ha has⟩

end Success

/-! ## Parameters -/

/-- Different parameters have different fields. -/
def FieldsDiffer (ps : List String) : Prop :=
  ∀ p ∈ ps, ∀ q ∈ ps, exported p = exported q → p = q

/-- Every parameter has the name of a field, and different parameters have different fields. -/
structure FieldsFit (ps : List String) : Prop where
  identifier : ∀ p ∈ ps, isIdentifier (exported p) = true
  differ : FieldsDiffer ps

theorem FieldsDiffer.cons {p : String} {seen : List String} (h : FieldsDiffer seen)
    (hnew : ∀ q ∈ seen, exported q ≠ exported p) : FieldsDiffer (p :: seen) := by
  intro a ha b hb hab
  rcases List.mem_cons.1 ha with rfl | ha'
  · rcases List.mem_cons.1 hb with rfl | hb'
    · rfl
    · exact absurd hab.symm (hnew b hb')
  · rcases List.mem_cons.1 hb with rfl | hb'
    · exact absurd hab (hnew a ha')
    · exact h a ha' b hb' hab

theorem lookup_exported (seen : List String) (field : String) :
    (seen.map fun p => (exported p, p)).lookup field = seen.find? fun p => field == exported p := by
  induction seen with
  | nil => rfl
  | cons p seen ih =>
      rw [List.map_cons, List.lookup_cons, List.find?_cons, ih]

/-- One parameter after the other: what is seen so far keeps its fields apart. -/
theorem checkParameters_seen (seen ps : List String)
    (h : checkParameters (seen.map fun p => (exported p, p)) ps = .ok ())
    (hseen : FieldsDiffer seen) :
    (∀ p ∈ ps, isIdentifier (exported p) = true) ∧ FieldsDiffer (seen ++ ps) := by
  induction ps generalizing seen with
  | nil => exact ⟨by simp, by simpa using hseen⟩
  | cons p ps ih =>
      rw [checkParameters, lookup_exported] at h
      by_cases hid : isIdentifier (exported p) = true
      · rw [hid] at h
        cases hfind : seen.find? fun q => exported p == exported q with
        | some first =>
            -- The field is taken. It must be by the same parameter, so nothing new is seen.
            rw [hfind] at h
            by_cases heq : first = p
            · have hmem : p ∈ seen := heq ▸ List.mem_of_find?_eq_some hfind
              obtain ⟨hids, hdiffer⟩ := ih seen (by simpa [heq] using h) hseen
              refine ⟨List.forall_mem_cons.2 ⟨hid, hids⟩, fun a ha b hb => ?_⟩
              exact hdiffer a (by grind) b (by grind)
            · simp [heq] at h
        | none =>
            -- The field is new, so the parameter stays apart from all that were seen.
            rw [hfind] at h
            have hnew : ∀ q ∈ seen, exported q ≠ exported p := by
              intro q hq heq
              have := List.find?_eq_none.1 hfind q hq
              simp [heq] at this
            obtain ⟨hids, hdiffer⟩ := ih (p :: seen) (by simpa using h) (hseen.cons hnew)
            refine ⟨List.forall_mem_cons.2 ⟨hid, hids⟩, fun a ha b hb => ?_⟩
            exact hdiffer a (by grind) b (by grind)
      · simp [hid] at h

theorem checkParameters_ok {ps : List String} (h : checkParameters [] ps = .ok ()) :
    FieldsFit ps := by
  obtain ⟨hids, hdiffer⟩ := checkParameters_seen [] ps h fun p hp => absurd hp (by simp)
  exact ⟨hids, hdiffer⟩

/-! ## Methods and models -/

theorem checkMethods_ok {model : String} {seen : List String} {ms : List Method}
    (h : checkMethods model seen ms = .ok ()) : ∀ q ∈ ms, checkMethod q = .ok () := by
  induction ms generalizing seen with
  | nil => simp
  | cons q ms ih =>
      rw [checkMethods] at h
      obtain ⟨_, hq, h⟩ := bind_eq_ok.1 h
      rw [mapError_eq_ok] at hq
      by_cases hseen : seen.contains q.name = true
      · rw [if_pos hseen] at h
        cases h
      · rw [if_neg hseen] at h
        exact List.forall_mem_cons.2 ⟨hq, ih h⟩

theorem checkStructures_ok {ms : List Model} (h : checkStructures ms = .ok ()) :
    ∀ m ∈ ms, checkStructure m = .ok () := by
  induction ms with
  | nil => simp
  | cons m ms ih =>
      rw [checkStructures] at h
      obtain ⟨_, hm, h⟩ := bind_eq_ok.1 h
      exact List.forall_mem_cons.2 ⟨hm, ih h⟩

/-- The parameters of every method of an accepted model become different fields. -/
theorem checkStructure_ok {m : Model} (h : checkStructure m = .ok ()) :
    ∀ q ∈ m.access.methods, FieldsFit q.parameters := by
  intro q hq
  rw [checkStructure] at h
  by_cases hid : isIdentifier (exported m.name) = true
  · rw [hid] at h
    have hmethod := checkMethods_ok h q hq
    rw [checkMethod] at hmethod
    obtain ⟨_, -, hmethod⟩ := bind_eq_ok.1 hmethod
    obtain ⟨_, hparams, -⟩ := bind_eq_ok.1 hmethod
    exact checkParameters_ok hparams
  · simp [hid] at h

/-! ## Declared names -/

/-- Names that are declared differ from each other and from those declared before. -/
theorem checkDeclared_ok {model : String} {declared declared' : List (String × String)}
    {ds : List Declared} (h : checkDeclared model declared ds = .ok declared')
    (hnodup : (declared.map Prod.fst).Nodup) :
    (declared'.map Prod.fst).Nodup ∧
      (declared'.map Prod.fst).Perm (ds.map Declared.name ++ declared.map Prod.fst) := by
  induction ds generalizing declared with
  | nil =>
      cases h
      exact ⟨hnodup, .refl _⟩
  | cons d ds ih =>
      rw [checkDeclared] at h
      cases hlookup : declared.lookup d.name with
      | some first => rw [hlookup] at h; cases h
      | none =>
          rw [hlookup] at h
          have hnew : d.name ∉ declared.map Prod.fst := by
            intro hmem
            obtain ⟨e, he, heq⟩ := List.mem_map.1 hmem
            have := List.lookup_eq_none_iff.1 hlookup e he
            simp [heq] at this
          obtain ⟨hnodup', hperm⟩ := ih h (List.nodup_cons.2 ⟨hnew, hnodup⟩)
          exact ⟨hnodup', hperm.trans List.perm_middle⟩

/-- The names of all models differ from each other and from those declared before. -/
theorem checkPackage_ok {owners declared : List (String × String)} {ms : List Model}
    (h : checkPackage owners declared ms = .ok ()) (hnodup : (declared.map Prod.fst).Nodup) :
    ((ms.flatMap fun m => (declaredNames m).map Declared.name) ++
      declared.map Prod.fst).Nodup := by
  induction ms generalizing owners declared with
  | nil => exact hnodup
  | cons m ms ih =>
      rw [checkPackage] at h
      obtain ⟨owners', -, h⟩ := bind_eq_ok.1 h
      obtain ⟨declared', hdeclared, h⟩ := bind_eq_ok.1 h
      obtain ⟨hnodup', hperm⟩ := checkDeclared_ok hdeclared hnodup
      have hall := ih h hnodup'
      rw [List.flatMap_cons, List.append_assoc]
      refine ((List.Perm.append_left _ hperm).trans ?_).nodup_iff.1 hall
      rw [← List.append_assoc, ← List.append_assoc]
      exact List.perm_append_comm.append_right _

theorem nodup_reservedNames : reservedNames.Nodup := by decide

theorem map_fst_reservedDeclarations : reservedDeclarations.map Prod.fst = reservedNames := by
  rw [reservedDeclarations, List.map_map]
  exact List.map_id _

/-! ## Resolution -/

/-- Resolution replaces attributes only: a method keeps its name, its kind and its parameters. -/
structure Keeps (q q' : Method) : Prop where
  name : q'.name = q.name
  kind : q'.kind = q.kind
  parameters : q'.parameters = q.parameters

mutual

theorem parameters_mapAttributes {ε : Type} {g : String → Except ε String} :
    ∀ {f f' : Filter}, Filter.mapAttributes g f = .ok f' →
      f'.comparisons.map Comparison.parameter = f.comparisons.map Comparison.parameter
  | .compare c, f', h => by
      rw [Filter.mapAttributes] at h
      obtain ⟨attr, -, h⟩ := bind_eq_ok.1 h
      cases h
      rfl
  | .group op fs, f', h => by
      rw [Filter.mapAttributes] at h
      obtain ⟨fs', hfs, h⟩ := bind_eq_ok.1 h
      cases h
      exact parameters_mapAllAttributes hfs

theorem parameters_mapAllAttributes {ε : Type} {g : String → Except ε String} :
    ∀ {fs fs' : List Filter}, Filter.mapAllAttributes g fs = .ok fs' →
      (Filter.allComparisons fs').map Comparison.parameter =
        (Filter.allComparisons fs).map Comparison.parameter
  | [], fs', h => by
      cases h
      rfl
  | f :: fs, fs', h => by
      rw [Filter.mapAllAttributes] at h
      obtain ⟨f', hf, h⟩ := bind_eq_ok.1 h
      obtain ⟨gs, hgs, h⟩ := bind_eq_ok.1 h
      cases h
      rw [Filter.allComparisons, Filter.allComparisons, List.map_append, List.map_append,
        parameters_mapAttributes hf, parameters_mapAllAttributes hgs]

end

theorem parameters_resolveAssignments {r : Registry} {as as' : List Assignment}
    (h : resolveAssignments r as = .ok as') :
    as'.map Assignment.parameter = as.map Assignment.parameter := by
  rw [resolveAssignments, mapM_eq_ok] at h
  induction h with
  | nil => rfl
  | cons ha _ ih =>
      obtain ⟨attr, -, ha⟩ := bind_eq_ok.1 ha
      cases ha
      rw [List.map_cons, List.map_cons, ih]

theorem resolveFind_ok {r : Registry} {columns : List Attribute} {q q' : Find}
    (h : resolveFind r columns q = .ok q') : Keeps (.find q) (.find q') := by
  rw [resolveFind] at h
  obtain ⟨attributes, -, h⟩ := bind_eq_ok.1 h
  obtain ⟨_, -, h⟩ := bind_eq_ok.1 h
  obtain ⟨filters, hfilters, h⟩ := bind_eq_ok.1 h
  cases h
  exact ⟨rfl, rfl, parameters_mapAllAttributes hfilters⟩

theorem resolveUpdate_ok {r : Registry} {q q' : Update} (h : resolveUpdate r q = .ok q') :
    Keeps (.update q) (.update q') := by
  rw [resolveUpdate] at h
  obtain ⟨filters, hfilters, h⟩ := bind_eq_ok.1 h
  obtain ⟨set, hset, h⟩ := bind_eq_ok.1 h
  obtain ⟨increment, -, h⟩ := bind_eq_ok.1 h
  obtain ⟨timestamp, -, h⟩ := bind_eq_ok.1 h
  cases h
  exact ⟨rfl, rfl, congrArg₂ (· ++ ·) (parameters_resolveAssignments hset)
    (parameters_mapAllAttributes hfilters)⟩

theorem resolveAdd_ok {r : Registry} {q q' : Add} (h : resolveAdd r q = .ok q') :
    Keeps (.add q) (.add q') := by
  rw [resolveAdd] at h
  obtain ⟨values, hvalues, h⟩ := bind_eq_ok.1 h
  cases h
  exact ⟨rfl, rfl, congrArg (· ++ []) (parameters_resolveAssignments hvalues)⟩

theorem resolveUpsert_ok {r : Registry} {q q' : Upsert} (h : resolveUpsert r q = .ok q') :
    Keeps (.addOrReplace q) (.addOrReplace q') := by
  rw [resolveUpsert] at h
  obtain ⟨values, hvalues, h⟩ := bind_eq_ok.1 h
  obtain ⟨conflict, -, h⟩ := bind_eq_ok.1 h
  cases h
  exact ⟨rfl, rfl, congrArg (· ++ []) (parameters_resolveAssignments hvalues)⟩

theorem resolveDelete_ok {r : Registry} {q q' : Delete} (h : resolveDelete r q = .ok q') :
    Keeps (.delete q) (.delete q') := by
  rw [resolveDelete] at h
  obtain ⟨filters, hfilters, h⟩ := bind_eq_ok.1 h
  cases h
  exact ⟨rfl, rfl, parameters_mapAllAttributes hfilters⟩

/-- The methods of one kind are resolved one by one. -/
theorem keeps_mapM {α : Type} {resolve : α → Except CompileError α} {wrap : α → Method}
    {place : α → CompileError → CompileError} {qs qs' : List α}
    (hresolve : ∀ {q q'}, resolve q = .ok q' → Keeps (wrap q) (wrap q'))
    (h : (qs.mapM fun q => (resolve q).mapError (place q)) = .ok qs') :
    List.Forall₂ Keeps (qs.map wrap) (qs'.map wrap) := by
  rw [mapM_eq_ok] at h
  rw [List.forall₂_map_left_iff, List.forall₂_map_right_iff]
  exact h.imp fun _ _ hq => hresolve (mapError_eq_ok.1 hq)

theorem resolveAccess_ok {r : Registry} {model : String} {columns : List Attribute}
    {a a' : Access} (h : resolveAccess r model columns a = .ok a') :
    List.Forall₂ Keeps a.methods a'.methods := by
  rw [resolveAccess] at h
  obtain ⟨find, hfind, h⟩ := bind_eq_ok.1 h
  obtain ⟨update, hupdate, h⟩ := bind_eq_ok.1 h
  obtain ⟨add, hadd, h⟩ := bind_eq_ok.1 h
  obtain ⟨addOrReplace, haddOrReplace, h⟩ := bind_eq_ok.1 h
  obtain ⟨delete, hdelete, h⟩ := bind_eq_ok.1 h
  cases h
  exact List.rel_append (List.rel_append (List.rel_append (List.rel_append
    (keeps_mapM resolveFind_ok hfind) (keeps_mapM resolveUpdate_ok hupdate))
    (keeps_mapM resolveAdd_ok hadd)) (keeps_mapM resolveUpsert_ok haddOrReplace))
    (keeps_mapM resolveDelete_ok hdelete)

/-- A resolved model has the name of the model and its methods, in the same order. -/
theorem resolveModel_ok {r : Registry} {m : Model} {m' : Resolved}
    (h : resolveModel r m = .ok m') :
    m'.name = m.name ∧ List.Forall₂ Keeps m.access.methods m'.model.access.methods := by
  rw [resolveModel] at h
  obtain ⟨columns, -, h⟩ := bind_eq_ok.1 h
  obtain ⟨indexes, -, h⟩ := bind_eq_ok.1 h
  obtain ⟨access, haccess, h⟩ := bind_eq_ok.1 h
  cases h
  exact ⟨rfl, resolveAccess_ok haccess⟩

/-- An accepted run passes every check, and its models are resolved one by one. -/
theorem validate_ok {models : List Model} {r : Registry} {resolved : List Resolved}
    (h : validate models r = .ok resolved) :
    (∀ m ∈ models, checkStructure m = .ok ()) ∧
      checkPackage [] reservedDeclarations models = .ok () ∧
      List.Forall₂ (fun m m' => resolveModel r m = .ok m') models resolved := by
  rw [validate] at h
  obtain ⟨_, -, h⟩ := bind_eq_ok.1 h
  obtain ⟨_, hstructures, h⟩ := bind_eq_ok.1 h
  obtain ⟨_, hpackage, h⟩ := bind_eq_ok.1 h
  exact ⟨checkStructures_ok hstructures, hpackage, mapM_eq_ok.1 h⟩

/-! ## A run that is accepted -/

def sampleRegistry : Registry :=
  .ofList
    [{ id := "user.email", name := "email", type := .text },
     { id := "user.age", name := "age", type := .int }]

/-- Two models whose names and methods come close to each other: a find over a range, and a row that
is added or replaced. -/
def sampleModels : List Model :=
  [{ name := "user"
     attributes := ["user.email", "user.age"]
     access :=
      { find :=
          [{ name := "FindUser"
             filters := [.compare { attr := "user.age", operator := .between,
                                    parameter := "age_range" },
                         .compare { attr := "user.email", operator := .like,
                                    parameter := "email" }] }] } },
   { name := "user_email"
     attributes := ["user.email"]
     access :=
      { addOrReplace :=
          [{ name := "FindUserEmail", values := [⟨"user.email", "email"⟩] }] } }]

theorem sampleModels_accepted :
    ∃ resolved, validate sampleModels sampleRegistry = .ok resolved := by
  apply exists_ok_of_isOk
  decide +kernel

end DataAccess.Validation
