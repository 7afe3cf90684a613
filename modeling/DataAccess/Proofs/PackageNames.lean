import DataAccess.Proofs.GeneratedUnits
import Mathlib.Data.List.Perm.Basic

set_option autoImplicit false

/-! # The names of a package

The names of everything that is generated for a model are predicted from the model before it is
resolved, and it is the predicted names that are checked for clashes. Here the prediction is
compared with the declarations of the unit that is generated from the resolved model
(`modelUnit_asPredicted`); so no two declarations of a package clash (`package_names_apart`). -/

namespace DataAccess.Generation

open Go (SourceFile)
open Sql (Dialect)
open Validation

/-- The predicted names. -/
def predictedNames (goName : String) (methods : List String) : List String :=
  (goName :: methods.flatMap fun q => [q, paramsName q, requestName q, queryName q]) ++
    ifMethods methods [prepareName goName, statementsName goName]

/-- The prediction looks at the name of a model and at those of its methods. -/
theorem map_name_declaredNames (m : Model) :
    (declaredNames m).map Declared.name =
      predictedNames (Go.exported m.name) (m.access.methods.map Method.name) := by
  have hmethods : (m.access.methods.flatMap fun q => methodNames m.name q.name).map Declared.name =
      (m.access.methods.map Method.name).flatMap fun q =>
        [q, paramsName q, requestName q, queryName q] := by
    rw [List.map_flatMap, List.flatMap_map]
    rfl
  rw [declaredNames, List.map_append, List.map_append, hmethods, predictedNames]
  cases hqs : m.access.methods with
  | nil => simp [Access.isEmpty, hqs, ifMethods]
  | cons q qs => simp [Access.isEmpty, hqs, ifMethods]

/-- The four names of each method, collected by what they name or method by method. -/
theorem perm_methodNames (methods : List String) :
    ((methods.flatMap fun q => [paramsName q, requestName q]) ++ methods ++
      methods.map queryName).Perm
      (methods.flatMap fun q => [q, paramsName q, requestName q, queryName q]) := by
  rw [List.perm_iff_count]
  intro name
  induction methods with
  | nil => rfl
  | cons q methods ih =>
      simp only [List.flatMap_cons, List.map_cons, List.count_append, List.count_cons,
        List.count_nil] at ih ⊢
      omega

theorem ifMethods_pair (methods : List String) (a b : String) :
    ifMethods methods [a, b] = ifMethods methods [a] ++ ifMethods methods [b] := by
  cases methods <;> rfl

/-- The predicted names are those of the unit, in another order. -/
theorem perm_unitNames (goName : String) (methods : List String) :
    (unitNames goName methods).Perm (predictedNames goName methods) := by
  rw [List.perm_iff_count]
  intro name
  have hmethods := (perm_methodNames methods).count_eq name
  simp only [unitNames, predictedNames, ifMethods_pair, List.count_append,
    List.count_cons] at hmethods ⊢
  omega

/-! ## Accepted models -/

theorem names_keeps {qs qs' : List Method} (h : List.Forall₂ Keeps qs qs') :
    qs'.map Method.name = qs.map Method.name := by
  induction h with
  | nil => rfl
  | cons hq _ ih => rw [List.map_cons, List.map_cons, hq.name, ih]

/-- A unit declares the names predicted from a model, in any order. -/
def AsPredicted (package : String) (m : Model) (u : ModelUnit) : Prop :=
  (u.sourceFile package).declares.Perm ((declaredNames m).map Declared.name)

/-- The unit of a model declares what was predicted from the model before its resolution. -/
theorem modelUnit_asPredicted {r : Registry} {m : Model} {m' : Resolved}
    (h : resolveModel r m = .ok m') (d : Dialect) (package : String) :
    ∃ u, modelUnit d m' = .ok u ∧ AsPredicted package m u := by
  obtain ⟨hname, hmethods⟩ := resolveModel_ok h
  obtain ⟨u, hu, hdeclares⟩ := modelUnit_ok d m'
  refine ⟨u, hu, ?_⟩
  rw [AsPredicted, hdeclares, map_name_declaredNames, hname, names_keeps hmethods]
  exact perm_unitNames _ _

theorem modelUnits_asPredicted {r : Registry} {models : List Model} {resolved : List Resolved}
    (h : List.Forall₂ (fun m m' => resolveModel r m = .ok m') models resolved) (d : Dialect)
    (package : String) :
    ∃ units, resolved.mapM (modelUnit d) = .ok units ∧
      List.Forall₂ (AsPredicted package) models units := by
  induction h with
  | nil => exact ⟨[], rfl, .nil⟩
  | cons hm _ ih =>
      obtain ⟨u, hu, hperm⟩ := modelUnit_asPredicted hm d package
      obtain ⟨us, hus, hperms⟩ := ih
      exact ⟨u :: us, mapM_eq_ok.2 (.cons hu (mapM_eq_ok.1 hus)), .cons hperm hperms⟩

/-- All units together declare what was predicted from all models. -/
theorem perm_units {package : String} {models : List Model} {units : List ModelUnit}
    (h : List.Forall₂ (AsPredicted package) models units) :
    (units.flatMap fun u => (u.sourceFile package).declares).Perm
      (models.flatMap fun m => (declaredNames m).map Declared.name) := by
  induction h with
  | nil => exact .refl _
  | cons hm _ ih => exact hm.append ih

theorem helpers_reserved : ∀ name ∈ [rangeBound, notPreparedError], name ∈ reservedNames := by
  decide

/-- What the declarations of the files of a package have to satisfy. -/
structure NamesApart (package : String) (models : List Model) (units : List ModelUnit)
    (support : SourceFile) : Prop where
  /-- The support file declares the two shared helpers. -/
  helpers : support.declares = [rangeBound, notPreparedError]
  /-- No name is declared twice in the whole package. -/
  distinct : ((units.map (·.sourceFile package) ++ [support]).flatMap SourceFile.declares).Nodup
  /-- Units declare no reserved name. -/
  unreserved : ∀ u ∈ units, ∀ name ∈ (u.sourceFile package).declares, name ∉ reservedNames
  /-- Each unit declares what was predicted from its model before the resolution. -/
  predicted : List.Forall₂ (AsPredicted package) models units

/-- **No two declarations of a package clash.** For every accepted run and every dialect all units
are generated, the names that their files and the support file declare are pairwise distinct, those
of the units are not reserved, and each unit declares the names predicted from its model. -/
theorem package_names_apart {models : List Model} {r : Registry} {resolved : List Resolved}
    (h : validate models r = .ok resolved) (d : Dialect) (package : String) :
    ∃ units support, resolved.mapM (modelUnit d) = .ok units ∧ supportFile package = .ok support ∧
      NamesApart package models units support := by
  obtain ⟨-, hpackage, hresolved⟩ := validate_ok h
  obtain ⟨units, hunits, hperms⟩ := modelUnits_asPredicted hresolved d package
  obtain ⟨support, hsupport, hdeclares⟩ := supportFile_ok package
  have hnodup := checkPackage_ok hpackage (by
    rw [map_fst_reservedDeclarations]
    exact nodup_reservedNames)
  rw [map_fst_reservedDeclarations, ((perm_units hperms).append_right _).symm.nodup_iff,
    List.nodup_append] at hnodup
  obtain ⟨hdistinct, -, hreserved⟩ := hnodup
  refine ⟨units, support, hunits, hsupport, hdeclares, ?_, ?_, hperms⟩
  · rw [List.flatMap_append, List.flatMap_map, List.flatMap_singleton, hdeclares, List.nodup_append]
    exact ⟨hdistinct, by decide, fun a ha b hb => hreserved a ha b (helpers_reserved b hb)⟩
  · intro u hu name hname hmem
    exact hreserved name (List.mem_flatMap.2 ⟨u, hu, hname⟩) name hmem rfl

theorem sampleModels_names_apart :
    ∃ resolved, validate sampleModels sampleRegistry = .ok resolved ∧
      ∃ units support, resolved.mapM (modelUnit .sqlite) = .ok units ∧
        supportFile "dal" = .ok support ∧ NamesApart "dal" sampleModels units support := by
  obtain ⟨resolved, h⟩ := sampleModels_accepted
  exact ⟨resolved, h, package_names_apart h .sqlite "dal"⟩

end DataAccess.Generation
