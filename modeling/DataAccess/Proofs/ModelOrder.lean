import DataAccess.Proofs.ExactImports
import DataAccess.Proofs.Substitution

set_option autoImplicit false

/-! # The order of models

The checks of a run go through its models with what they have seen so far, and the imports of a
package are collected along its units. Nevertheless the order of the models does not matter. What is
well-formed in one order is so in every order (`WellFormed.perm`). Each model has its own parts of
the package, and the rest is the same for every order (`PackageParts`). -/

namespace DataAccess.Validation

variable {models models' : List Model} {r : Registry}

/-- A well-formed run stays so in another order. -/
theorem WellFormed.perm (h : WellFormed models r) (hperm : models.Perm models') :
    WellFormed models' r := by
  have hdeclared : (allDeclared models).Perm (allDeclared models') := hperm.flatMap_right _
  exact {
    names := (hperm.map Model.name).nodup_iff.1 h.names
    structs := fun m hm => h.structs m (hperm.mem_iff.2 hm)
    methods := fun m hm => h.methods m (hperm.mem_iff.2 hm)
    declared := hdeclared.nodup_iff.1 h.declared
    unreserved := fun name hname => h.unreserved name (hdeclared.mem_iff.2 hname)
    resolves := fun m hm => h.resolves m (hperm.mem_iff.2 hm) }

/-- What a model is resolved to, whatever stands beside it. -/
def renamed (r : Registry) (m : Model) : Resolved := ⟨m.rename (columnOf r), entries r m⟩

/-- An accepted run is accepted in another order, and its models are resolved as before. -/
theorem validate_perm {resolved : List Resolved} (h : validate models r = .ok resolved)
    (hperm : models.Perm models') : validate models' r = .ok (models'.map (renamed r)) := by
  obtain ⟨hwell, hmap⟩ := validate_eq_ok_iff.1 h
  rw [resolved_eq_map h, List.map_map, List.map_inj_left] at hmap
  refine validate_eq_ok_iff.2 ⟨hwell.perm hperm, ?_⟩
  rw [List.map_map, List.map_inj_left]
  intro m hm
  exact hmap m (hperm.mem_iff.2 hm)

end DataAccess.Validation

namespace DataAccess.Generation

open Sql (Dialect)
open Validation (renamed validate)

/-- The parts of a package. A model has a file, a section of the schema and warnings of its own; the
support file and the module file belong to all models. -/
structure PackageParts where
  file : Model → TextFile
  tables : Model → String
  warnings : Model → List Warning
  support : String
  goMod : String

/-- The package of models in the order they are given. -/
def PackageParts.package (parts : PackageParts) (models : List Model) : GeneratedPackage :=
  { files := models.map parts.file ++
      [⟨"dalgen.go", parts.support⟩,
       ⟨"schema.sql",
         "-- Code generated by dalgen. DO NOT EDIT.\n" ++ String.join (models.map parts.tables)⟩,
       ⟨"go.mod", parts.goMod⟩]
    warnings := models.flatMap parts.warnings }

/-- The parts that models are generated into, once it is known what they are resolved to, which
units they have, and whether one of them inserts rows. -/
def partsOf (package modulePath : String) (d : Dialect) (resolve : Model → Resolved)
    (unit : Resolved → ModelUnit) (support : Go.SourceFile) (inserts : Prop) [Decidable inserts] :
    PackageParts where
  file m := unitFile package (unit (resolve m))
  tables m := "\n" ++ (tableOf (resolve m)).schemaText d
  warnings m := (unit (resolve m)).warnings
  support := support.render
  goMod := goMod modulePath (if inserts then [uuidModule] else [])

theorem generate_map (package modulePath : String) {d : Dialect} (resolve : Model → Resolved)
    {unit : Resolved → ModelUnit} (hunit : ∀ m, modelUnit d m = .ok (unit m))
    {support : Go.SourceFile} (hsupport : supportFile package = .ok support) (models : List Model) :
    generate package modulePath d (models.map resolve) =
      .ok ((partsOf package modulePath d resolve unit support
        (∃ m ∈ models, Inserts (resolve m))).package models) := by
  have hunits : List.Forall₂ (fun m u => modelUnit d m = .ok u) (models.map resolve)
      ((models.map resolve).map unit) := by
    rw [List.forall₂_map_right_iff, List.forall₂_same]
    exact fun m _ => hunit m
  obtain ⟨support', hsupport', hgenerate⟩ := generate_of_units hunits package modulePath
  cases hsupport.symm.trans hsupport'
  have hinserts : (∃ m ∈ models.map resolve, Inserts m) ↔ ∃ m ∈ models, Inserts (resolve m) := by
    simp
  rw [hgenerate, dependencies_packageImports hunits, schemaText, List.map_map, List.map_map,
    List.map_map, List.flatMap_map, List.flatMap_map]
  simp only [hinserts]
  rfl

/-- **The order of models does not matter.** Models are accepted in every order or in none. A model
has the same parts of the package in every order, and so have all models together. -/
theorem package_in_any_order {models models' : List Model} (h : models.Perm models')
    (r : Registry) (package modulePath : String) (d : Dialect) :
    ((∃ resolved, validate models r = .ok resolved) ↔
      ∃ resolved, validate models' r = .ok resolved) ∧
    ∀ resolved, validate models r = .ok resolved → ∃ resolved' parts,
      validate models' r = .ok resolved' ∧
      generate package modulePath d resolved = .ok (PackageParts.package parts models) ∧
      generate package modulePath d resolved' = .ok (parts.package models') := by
  constructor
  · constructor
    · rintro ⟨resolved, hok⟩
      exact ⟨_, Validation.validate_perm hok h⟩
    · rintro ⟨resolved, hok⟩
      exact ⟨_, Validation.validate_perm hok h.symm⟩
  · intro resolved hok
    choose unit hunit _ using modelUnit_ok d
    obtain ⟨support, hsupport, -⟩ := supportFile_ok package
    have hinserts : (∃ m ∈ models', Inserts (renamed r m)) ↔
        ∃ m ∈ models, Inserts (renamed r m) := by
      simp only [h.mem_iff]
    refine ⟨models'.map (renamed r), partsOf package modulePath d (renamed r) unit support
      (∃ m ∈ models, Inserts (renamed r m)), Validation.validate_perm hok h, ?_, ?_⟩
    · rw [Validation.resolved_eq_map hok]
      exact generate_map package modulePath (renamed r) hunit hsupport models
    · rw [generate_map package modulePath (renamed r) hunit hsupport models']
      simp only [hinserts]

/-- Two models with close names, in both orders. -/
theorem sampleModels_reversed : ∃ resolved resolved' parts,
    validate Validation.sampleModels Validation.sampleRegistry = .ok resolved ∧
    validate Validation.sampleModels.reverse Validation.sampleRegistry = .ok resolved' ∧
    generate "dal" "example.com/dal" .postgres resolved =
      .ok (PackageParts.package parts Validation.sampleModels) ∧
    generate "dal" "example.com/dal" .postgres resolved' =
      .ok (parts.package Validation.sampleModels.reverse) := by
  obtain ⟨resolved, hok⟩ := Validation.sampleModels_accepted
  obtain ⟨resolved', parts, hok', hpackage, hpackage'⟩ :=
    (package_in_any_order (List.reverse_perm _).symm Validation.sampleRegistry "dal"
      "example.com/dal" .postgres).2 resolved hok
  exact ⟨resolved, resolved', parts, hok, hok', hpackage, hpackage'⟩

end DataAccess.Generation
