import DataAccess.Compiler
import DataAccess.Proofs.GeneratedUnits

set_option autoImplicit false

/-! # The front ends agree

Statements are listed, checked and generated by three runs. A list and a check compile the methods
of the models directly, generation compiles them again inside the units. Here both are shown to make
the same statements (`Agrees`), whatever models they are given, so the three runs tell the same
(`RunsAgree`) and generation adds no way to fail. -/

namespace DataAccess.Generation

open Sql (Dialect Statement)
open Validation (bind_eq_ok)

variable {d : Dialect} {r : Resolved}

/-! ## Units -/

/-- The statement of a method does not depend on the code around it. -/
theorem statement_methodUnit {q : Method} {u : MethodUnit} (h : methodUnit d r q = .ok u) :
    u.statement = Sql.compileMethod d r.model q := by
  obtain ⟨u', hu', hunit⟩ := methodUnit_ok d r q
  have hsame : u = u' := Except.ok.inj (h.symm.trans hu')
  rw [hsame]
  exact hunit.statement

theorem statements_methodUnits {qs : List Method} {us : List MethodUnit}
    (h : List.Forall₂ (fun q u => methodUnit d r q = .ok u) qs us) :
    us.map MethodUnit.statement = qs.map (Sql.compileMethod d r.model) := by
  induction h with
  | nil => rfl
  | cons hu _ ih => rw [List.map_cons, List.map_cons, statement_methodUnit hu, ih]

/-- A unit embeds statements: they are those it reports, and its constants hold their texts. -/
structure Embeds (u : ModelUnit) (statements : List Statement) : Prop where
  reported : u.statements = statements
  constants : u.consts = statements.map queryConst

theorem modelUnit_embeds {u : ModelUnit} (h : modelUnit d r = .ok u) :
    Embeds u (Sql.compileModel d r.model) := by
  obtain ⟨us, fs, hus, -, hu⟩ := modelUnit_eq h
  have hstatements := statements_methodUnits hus
  rw [hu, Sql.compileModel]
  exact ⟨hstatements, congrArg (List.map queryConst) hstatements⟩

theorem warnings_modelUnit {u : ModelUnit} (h : modelUnit d r = .ok u) :
    u.warnings = (Sql.compileModel d r.model).flatMap Statement.warnings := by
  rw [ModelUnit.warnings, (modelUnit_embeds h).reported]

end DataAccess.Generation

namespace DataAccess.Compiler

open Generation
open Sql (Dialect Statement)
open Validation (bind_eq_ok)

/-! ## Lists of models -/

/-- The warnings of listed statements. -/
def allWarnings (compiled : List (String × List Statement)) : List Warning :=
  compiled.flatMap fun m => m.2.flatMap Statement.warnings

/-- The number of listed statements. -/
def total (compiled : List (String × List Statement)) : Nat :=
  (compiled.map fun m => m.2.length).foldl (· + ·) 0

/-- The number of listed statements of each model. -/
def totals (compiled : List (String × List Statement)) : List (String × Nat) :=
  compiled.map fun m => (m.1, m.2.length)

theorem length_compileModel (d : Dialect) (r : Resolved) :
    (Sql.compileModel d r.model).length = methodCount r := by
  rw [Sql.compileModel, List.length_map, methodCount]

theorem total_compileModels (d : Dialect) (models : List Resolved) :
    total (compileModels d models) = (models.map methodCount).foldl (· + ·) 0 := by
  rw [total, compileModels, List.map_map]
  simp only [Function.comp_def, length_compileModel]

theorem totals_compileModels (d : Dialect) (models : List Resolved) :
    totals (compileModels d models) = methodCounts models := by
  rw [totals, compileModels, List.map_map, methodCounts]
  simp only [Function.comp_def, length_compileModel]

theorem embeds_compileModels {d : Dialect} {models : List Resolved} {units : List ModelUnit}
    (h : List.Forall₂ (fun r u => modelUnit d r = .ok u) models units) :
    List.Forall₂ (fun m u => Embeds u m.2) (compileModels d models) units := by
  rw [compileModels, List.forall₂_map_left_iff]
  exact h.imp fun _ _ hu => modelUnit_embeds hu

theorem warnings_compileModels {d : Dialect} {models : List Resolved} {units : List ModelUnit}
    (h : List.Forall₂ (fun r u => modelUnit d r = .ok u) models units) :
    units.flatMap ModelUnit.warnings = allWarnings (compileModels d models) := by
  rw [allWarnings, compileModels, List.flatMap_map]
  induction h with
  | nil => rfl
  | cons hu _ ih => rw [List.flatMap_cons, List.flatMap_cons, warnings_modelUnit hu, ih]

/-- What generation makes of models agrees with the statements that are listed for them. -/
structure Agrees (c : Config) (d : Dialect) (models : List Resolved) (units : List ModelUnit)
    (p : GeneratedPackage) : Prop where
  /-- Every model has a unit. -/
  made : List.Forall₂ (fun r u => modelUnit d r = .ok u) models units
  /-- The package is generated, and its first files are those of the units. -/
  generated : Generation.generate c.package c.modulePath d models = .ok p
  files : units.map (unitFile c.package) <+: p.files
  /-- Model by model, the units embed the listed statements, in order. -/
  embedded : List.Forall₂ (fun m u => Embeds u m.2) (compileModels d models) units
  warnings : p.warnings = allWarnings (compileModels d models)
  /-- The methods that are counted are the statements that are listed. -/
  methods : (models.map methodCount).foldl (· + ·) 0 = total (compileModels d models)
  modelMethods : methodCounts models = totals (compileModels d models)

theorem generate_agrees (c : Config) (d : Dialect) (models : List Resolved) :
    ∃ units p, Agrees c d models units p := by
  obtain ⟨units, hunits⟩ := modelUnits_ok d models
  obtain ⟨support, -, hgenerate⟩ := generate_of_units hunits c.package c.modulePath
  exact ⟨units, _, {
    made := hunits
    generated := hgenerate
    files := List.prefix_append _ _
    embedded := embeds_compileModels hunits
    warnings := warnings_compileModels hunits
    methods := (total_compileModels d models).symm
    modelMethods := (totals_compileModels d models).symm }⟩

/-! ## Runs -/

/-- The report on listed statements. -/
def reportOf (compiled : List (String × List Statement)) : Report :=
  { models := compiled.length
    methods := total compiled
    modelMethods := totals compiled
    files := 0
    warnings := allWarnings compiled }

theorem check_eq (c : Config) (disk : Disk) :
    check c disk = (statements c disk).map reportOf := by
  unfold check statements
  -- Both start with the dialect and the models, and nothing after that can fail.
  cases Dialect.parse c.dialect with
  | error e => rfl
  | ok d =>
      cases resolve c disk with
      | error e => rfl
      | ok models =>
          show Except.ok _ = Except.ok (reportOf (compileModels d models))
          rw [reportOf, totals_compileModels, compileModels, List.length_map]
          rfl

/-- Generation gives a package and the report of the check, which differs from it only in the number
of files. -/
def ReportsOn (c : Config) (disk : Disk) (p : GeneratedPackage) : Prop :=
  generate c disk = (check c disk).map fun report => (p, { report with files := p.files.length })

/-- Generation reports on the package that is made of the resolved models. -/
theorem Agrees.reportsOn {c : Config} {d : Dialect} {disk : Disk} {models : List Resolved}
    {units : List ModelUnit} {p : GeneratedPackage} (h : Agrees c d models units p)
    (hdialect : Dialect.parse c.dialect = .ok d) (hresolve : resolve c disk = .ok models) :
    ReportsOn c disk p := by
  rw [ReportsOn, generate, check, hdialect, hresolve]
  refine bind_eq_ok.2 ⟨d, rfl, bind_eq_ok.2 ⟨models, rfl, bind_eq_ok.2 ⟨p, h.generated, ?_⟩⟩⟩
  rw [h.methods, h.warnings]
  rfl

/-- Generation fails only where a check does. Otherwise it reports on a package that agrees with the
models. -/
theorem generate_eq (c : Config) (disk : Disk) : ∃ p, ReportsOn c disk p ∧
    ∀ d models, Dialect.parse c.dialect = .ok d → resolve c disk = .ok models →
      ∃ units, Agrees c d models units p := by
  cases hdialect : Dialect.parse c.dialect with
  | error e =>
      refine ⟨⟨[], []⟩, ?_, nofun⟩
      rw [ReportsOn, generate, check, hdialect]
      rfl
  | ok d =>
      cases hresolve : resolve c disk with
      | error e =>
          refine ⟨⟨[], []⟩, ?_, nofun⟩
          rw [ReportsOn, generate, check, hdialect, hresolve]
          rfl
      | ok models =>
          obtain ⟨units, p, h⟩ := generate_agrees c d models
          refine ⟨p, h.reportsOn hdialect hresolve, ?_⟩
          rintro _ _ ⟨⟩ ⟨⟩
          exact ⟨units, h⟩

/-- What a compilation does after a check: it writes files and reports how many. -/
def writeAfter (c : Config) (disk : Disk) (files : List TextFile) :
    Except CompileError Report → Except CompileError Report × Disk
  | .error e => (.error e, disk)
  | .ok report =>
    let (written, disk) := writePackage c.outDir disk files
    (written.map fun _ => { report with files := files.length }, disk)

/-- The three runs tell the same about a model directory. -/
structure RunsAgree (c : Config) (disk : Disk) (p : GeneratedPackage) : Prop where
  /-- A check reports on the statements that are listed, and fails with them. -/
  checked : check c disk = (statements c disk).map reportOf
  /-- Generation gives the report of the check. -/
  generated : ReportsOn c disk p
  /-- Its package is the one that agrees with the resolved models. -/
  resolved : ∀ d models, Dialect.parse c.dialect = .ok d → resolve c disk = .ok models →
    ∃ units, Agrees c d models units p
  /-- A compilation gives the report of the check, unless its files cannot be written. -/
  compiled : compile c disk = writeAfter c disk p.files (check c disk)

theorem runs_agree (c : Config) (disk : Disk) : ∃ p, RunsAgree c disk p := by
  obtain ⟨p, hgenerate, hresolved⟩ := generate_eq c disk
  refine ⟨p, check_eq c disk, hgenerate, hresolved, ?_⟩
  rw [compile, hgenerate]
  cases check c disk <;> rfl

/-- **The front ends agree, and generation cannot fail.** Whatever resolved models are given, every
unit and the package are generated, and they hold exactly the statements, warnings and numbers of
methods that are listed for the models. Whatever the directory holds, a check and a compilation
report the same, both report on the statements that are listed, and the files that are written are
those of the package that is generated for its models. -/
theorem front_ends_agree (c : Config) (d : Dialect) (models : List Resolved) (disk : Disk) :
    (∃ units p, Agrees c d models units p) ∧ ∃ p, RunsAgree c disk p :=
  ⟨generate_agrees c d models, runs_agree c disk⟩

end DataAccess.Compiler
