import DataAccess.Proofs.ArgsMethod
import DataAccess.Proofs.PredeclaredNames
import DataAccess.Proofs.Substitution

set_option autoImplicit false

/-! # Shadowed names

A package that declares a predeclared name takes its meaning away from all files of the package
(`Shadows`). The names that the code takes for granted are reserved, so no model can declare them,
but not all that it uses are: the support file takes an `int`, a row has fields for its columns, and
an upsert returns a `bool` (`Unguarded`).

Only a method can have such a name (`declares_predeclared_iff`), since all other declarations have
capitals in their names. The names in use are collected file by file (`mem_exposed_modelUnit`,
`exposed_supportFile`). Together they say which names are shadowed (`package_shadows_iff`). -/

namespace DataAccess.Generation

open Go (Func Node SourceFile Struct Value exported isIdentifier predeclared)
open Sql (Dialect Statement)
open Validation (bind_eq_ok exists_of_mem_right mapM_eq_ok resolveModel validate validate_eq_ok_iff
  validate_ok)

/-! ## Names of accepted models -/

/-- The names that go into the code of a model are names in Go. -/
structure NamesFit (m : Resolved) : Prop where
  struct : isIdentifier (exported m.name) = true
  methods : ∀ q ∈ m.model.access.methods, isIdentifier q.name = true
  parameters : ∀ q ∈ m.model.access.methods, ∀ p ∈ q.parameters, isIdentifier (exported p) = true
  columns : ∀ q ∈ m.model.access.methods, ∀ c ∈ scanColumns m q, isIdentifier (exported c) = true

theorem mem_allColumns_of_scan {r : Registry} {m : Model} {m' : Resolved}
    (h : resolveModel r m = .ok m') {q : Method} (hq : q ∈ m'.model.access.methods) {c : String}
    (hc : c ∈ scanColumns m' q) : c ∈ allColumns m' := by
  cases q with
  | find q =>
      have hfind : q ∈ m'.model.access.find := by simpa [Access.methods] using hq
      have hprojection :=
        Validation.checkProjection_iff.1 ((Validation.resolveModel_columns h).2 q hfind)
      rw [scanColumns] at hc
      split at hc
      · exact hc
      · exact hprojection c hc
  | update q => exact hc
  | add q => exact hc
  | addOrReplace q => exact hc
  | delete q => exact hc

section Accepted

variable {models : List Model} {r : Registry} {resolved : List Resolved}

/-- A method of a resolved model is named after a method of one of the models. -/
theorem exists_method_name (h : validate models r = .ok resolved) {m : Resolved}
    (hm : m ∈ resolved) {q : Method} (hq : q ∈ m.model.access.methods) :
    ∃ m₀ ∈ models, ∃ q₀ ∈ m₀.access.methods, q.name = q₀.name := by
  obtain ⟨-, -, hresolved⟩ := validate_ok h
  obtain ⟨m₀, hm₀, hresolve⟩ := exists_of_mem_right hresolved hm
  obtain ⟨q₀, hq₀, hkept⟩ := exists_of_mem_right (Validation.resolveModel_ok hresolve).2 hq
  exact ⟨m₀, hm₀, q₀, hq₀, hkept.name⟩

/-- No method of an accepted run has a reserved name. -/
theorem method_unreserved (h : validate models r = .ok resolved) {m : Resolved} (hm : m ∈ resolved)
    {q : Method} (hq : q ∈ m.model.access.methods) : q.name ∉ reservedNames := by
  obtain ⟨hwell, -⟩ := validate_eq_ok_iff.1 h
  obtain ⟨m₀, hm₀, q₀, hq₀, hname⟩ := exists_method_name h hm hq
  have hmethod : q₀.name ∈ Validation.allMethods models :=
    List.mem_flatMap.2 ⟨m₀, hm₀, List.mem_map_of_mem hq₀⟩
  rw [hname]
  exact hwell.unreserved _ ((Validation.allMethods_sublist models).subset hmethod)

/-- In an accepted run the names fit. -/
theorem namesFit_of_validate (h : validate models r = .ok resolved) {m : Resolved}
    (hm : m ∈ resolved) : NamesFit m := by
  obtain ⟨hwell, -⟩ := validate_eq_ok_iff.1 h
  obtain ⟨-, -, hresolved⟩ := validate_ok h
  obtain ⟨m₀, hm₀, hresolve⟩ := exists_of_mem_right hresolved hm
  constructor
  · rw [(Validation.resolveModel_ok hresolve).1]
    exact hwell.structs m₀ hm₀
  · intro q hq
    obtain ⟨m₁, hm₁, q₁, hq₁, hname⟩ := exists_method_name h hm hq
    rw [hname]
    exact (hwell.methods m₁ hm₁ q₁ hq₁).name
  · exact fun q hq => (fieldsFit_of_validate h hm hq).identifier
  · intro q hq c hc
    exact isIdentifier_allColumns hresolve c (mem_allColumns_of_scan hresolve hq hc)

end Accepted

/-! ## Names that a model uses -/

/-- The predeclared names that the code of a model uses and that a method may have. -/
inductive Uses (m : Resolved) : String → Prop
  | int {a : Attribute} (ha : a ∈ m.columns) (htype : a.type = .int) : Uses m "int32"
  | float {a : Attribute} (ha : a ∈ m.columns) (htype : a.type = .float) : Uses m "float64"
  | bool {a : Attribute} (ha : a ∈ m.columns) (htype : a.type = .bool) : Uses m "bool"
  /-- An upsert tells whether it inserted a row. -/
  | inserted {q : Upsert} (hq : q ∈ m.model.access.addOrReplace) : Uses m "bool"
  /-- An upsert that fails inserted no row. -/
  | failed {q : Upsert} (hq : q ∈ m.model.access.addOrReplace) : Uses m "false"

theorem uses_iff {m : Resolved} {name : String} :
    Uses m name ↔ (∃ a ∈ m.columns, name ∈ exposedType a.type) ∨
      ∃ q ∈ m.model.access.methods, q.kind = .addOrReplace ∧ (name = "bool" ∨ name = "false") := by
  have hmethods : ∀ {u : Upsert}, u ∈ m.model.access.addOrReplace →
      Method.addOrReplace u ∈ m.model.access.methods := by
    intro u hu
    simpa [Access.methods] using hu
  constructor
  · intro h
    cases h with
    | int ha htype => exact .inl ⟨_, ha, by simp [htype, exposedType]⟩
    | float ha htype => exact .inl ⟨_, ha, by simp [htype, exposedType]⟩
    | bool ha htype => exact .inl ⟨_, ha, by simp [htype, exposedType]⟩
    | inserted hq => exact .inr ⟨_, hmethods hq, rfl, .inl rfl⟩
    | failed hq => exact .inr ⟨_, hmethods hq, rfl, .inr rfl⟩
  · rintro (⟨a, ha, hname⟩ | ⟨q, hq, hkind, hname⟩)
    · cases htype : a.type with
      | int =>
          rw [htype, exposedType, List.mem_singleton] at hname
          exact hname ▸ .int ha htype
      | float =>
          rw [htype, exposedType, List.mem_singleton] at hname
          exact hname ▸ .float ha htype
      | bool =>
          rw [htype, exposedType, List.mem_singleton] at hname
          exact hname ▸ .bool ha htype
      | _ => simp [htype, exposedType] at hname
    · cases q with
      | addOrReplace u =>
          have hu : u ∈ m.model.access.addOrReplace := by simpa [Access.methods] using hq
          rcases hname with rfl | rfl
          · exact .inserted hu
          · exact .failed hu
      | _ => cases hkind

/-! ## Units -/

section Units

variable {d : Dialect} {m : Resolved} {us : List MethodUnit} {fs : List Func}

/-- Of what is generated for a method, only the access function of an upsert refers to exposed
names. -/
theorem mem_exposed_methodUnit (hfit : NamesFit m) {q : Method} (hq : q ∈ m.model.access.methods)
    {u : MethodUnit} (hu : methodUnit d m q = .ok u) :
    exposed u.params.occurrences = [] ∧ exposed u.request.occurrences = [] ∧
      ∀ name, name ∈ exposed u.access.occurrences ↔
        q.kind = .addOrReplace ∧ (name = "bool" ∨ name = "false") := by
  have hname : isIdentifier (Sql.compileMethod d m.model q).name = true := hfit.methods q hq
  have hkind : (Sql.compileMethod d m.model q).kind = q.kind := rfl
  rw [methodUnit, requestStruct_eq, accessFunction_eq] at hu
  cases hu
  refine ⟨exposed_paramsStruct _, exposed_requestOf hname fun p hp => ?_, fun name => ?_⟩
  · rcases Sql.mem_params_compileMethod hp with rfl | ⟨name, hmem, hp⟩
    · exact .inl rfl
    · exact .inr ⟨name, hp, hfit.parameters q hq name hmem⟩
  · rw [← hkind]
    exact mem_exposed_accessOf hname (.exported hfit.struct) (hfit.columns q hq)

theorem exposed_prepareFunctions (hname : isIdentifier (exported m.name) = true)
    (h : prepareFunctions (exported m.name) us = .ok fs) :
    exposed (fs.flatMap Func.occurrences) = [] := by
  rw [prepareFunctions] at h
  split_ifs at h
  · cases h
    rfl
  · obtain ⟨f, hf, ⟨⟩⟩ := bind_eq_ok.1 h
    rw [List.flatMap_singleton, exposed_prepareFunction hname hf]

/-- The lists and the constants of a unit refer to each other only. -/
theorem exposed_values (hfit : NamesFit m)
    (hus : List.Forall₂ (fun q v => methodUnit d m q = .ok v) m.model.access.methods us)
    (fs : List Func) :
    exposed ((unitOf m us fs).vars.flatMap Value.occurrences) = [] ∧
      exposed ((unitOf m us fs).consts.flatMap Value.occurrences) = [] := by
  have hnames : ∀ s ∈ us.map MethodUnit.statement, isIdentifier s.name = true := by
    intro s hs
    obtain ⟨v, hv, rfl⟩ := List.mem_map.1 hs
    obtain ⟨q, hq, hunit⟩ := exists_of_mem_right hus hv
    obtain ⟨v', hv', hof⟩ := methodUnit_ok d m q
    cases hunit.symm.trans hv'
    rw [hof.statement_name]
    exact hfit.methods q hq
  constructor
  · simp only [unitOf]
    split_ifs
    · rfl
    · rw [List.flatMap_singleton, exposed_statementsVar hnames]
  · rw [exposed_flatMap, List.flatMap_eq_nil_iff]
    intro v hv
    obtain ⟨s, -, rfl⟩ := List.mem_map.1 hv
    rfl

/-- Of the structs of a unit only the row refers to exposed names. -/
theorem exposed_structs (hfit : NamesFit m)
    (hus : List.Forall₂ (fun q v => methodUnit d m q = .ok v) m.model.access.methods us) :
    exposed ((unitOf m us fs).structs.flatMap Struct.occurrences) =
      m.columns.flatMap fun a => exposedType a.type := by
  have hrest : exposed ((us.flatMap fun u => [u.params, u.request]).flatMap Struct.occurrences) =
      [] := by
    rw [exposed_flatMap, List.flatMap_eq_nil_iff]
    intro s hs
    obtain ⟨v, hv, hs⟩ := List.mem_flatMap.1 hs
    obtain ⟨q, hq, hunit⟩ := exists_of_mem_right hus hv
    obtain ⟨hparams, hrequest, -⟩ := mem_exposed_methodUnit hfit hq hunit
    simp only [List.mem_cons, List.not_mem_nil, or_false] at hs
    rcases hs with rfl | rfl
    · exact hparams
    · exact hrequest
  simp only [unitOf, List.flatMap_cons, exposed_append, exposed_rowStruct, hrest, List.append_nil]

theorem mem_exposed_funcs (hfit : NamesFit m)
    (hus : List.Forall₂ (fun q v => methodUnit d m q = .ok v) m.model.access.methods us)
    (hfs : prepareFunctions (exported m.name) us = .ok fs) {name : String} :
    name ∈ exposed ((unitOf m us fs).funcs.flatMap Func.occurrences) ↔
      ∃ q ∈ m.model.access.methods,
        q.kind = .addOrReplace ∧ (name = "bool" ∨ name = "false") := by
  simp only [unitOf, List.flatMap_append, exposed_append, exposed_prepareFunctions hfit.struct hfs,
    List.append_nil, List.flatMap_map, exposed_flatMap, List.mem_flatMap]
  constructor
  · rintro ⟨v, hv, hname⟩
    obtain ⟨q, hq, hunit⟩ := exists_of_mem_right hus hv
    exact ⟨q, hq, ((mem_exposed_methodUnit hfit hq hunit).2.2 name).1 hname⟩
  · rintro ⟨q, hq, hname⟩
    obtain ⟨v, hv, hunit⟩ := exists_of_mem_right hus.flip hq
    exact ⟨v, hv, ((mem_exposed_methodUnit hfit hq hunit).2.2 name).2 hname⟩

/-- The file of a model refers to the exposed names that the model uses. -/
theorem mem_exposed_modelUnit (hfit : NamesFit m) {u : ModelUnit} (hu : modelUnit d m = .ok u)
    (package : String) {name : String} :
    name ∈ exposed (u.sourceFile package).occurrences ↔ Uses m name := by
  obtain ⟨us, fs, hus, hfs, rfl⟩ := modelUnit_eq hu
  obtain ⟨hvars, hconsts⟩ := exposed_values hfit hus fs
  have hfile : exposed ((unitOf m us fs).sourceFile package).occurrences =
      (m.columns.flatMap fun a => exposedType a.type) ++
        exposed ((unitOf m us fs).funcs.flatMap Func.occurrences) := by
    simp only [ModelUnit.sourceFile, SourceFile.occurrences, exposed_append, hvars, hconsts,
      exposed_structs hfit hus, List.nil_append, Node.allOccurrences_nil, List.append_nil]
  rw [hfile, List.mem_append, mem_exposed_funcs hfit hus hfs, List.mem_flatMap, uses_iff]

end Units

/-- The support file takes the place of an element as an `int`. -/
theorem exposed_supportFile {package : String} {f : SourceFile} (h : supportFile package = .ok f) :
    exposed f.occurrences = ["int"] := by
  obtain ⟨g, hg, ⟨⟩⟩ := bind_eq_ok.1 h
  have hvar : exposed notPreparedVar.occurrences = [] := by decide +kernel
  have hfunction : exposed g.occurrences = ["int"] := by
    cases hg
    decide +kernel
  simp [SourceFile.occurrences, hvar, hfunction]

/-! ## Declared names -/

/-- Only a method can have the name of something predeclared; the names made from those of models
and methods have capitals. -/
theorem mem_methods_of_predeclared {goName name : String} {methods : List String}
    (hgo : goName ∉ predeclared) (h : name ∈ unitNames goName methods)
    (hname : name ∈ predeclared) : name ∈ methods := by
  have hcapital : ∀ c ∈ name.toList, c.isUpper ≠ true := fun c hc hupper =>
    Go.not_predeclared_of_isUpper hc hupper hname
  have hif : ∀ {made : String}, name ∈ ifMethods methods [made] → name = made := by
    intro made hmade
    rw [ifMethods] at hmade
    split at hmade
    · cases hmade
    · exact List.mem_singleton.1 hmade
  -- All but the names of methods hold a capital that can be pointed out.
  simp only [unitNames, List.mem_append, List.mem_cons, List.mem_flatMap, List.mem_map,
    List.not_mem_nil, or_false] at h
  rcases h with (((rfl | ⟨q, -, rfl | rfl⟩) | hmethod | hprepare) | hstatements) | ⟨q, -, rfl⟩
  · exact absurd hname hgo
  · exact absurd (by decide) (hcapital 'P' (by simp [paramsName]))
  · exact absurd (by decide) (hcapital 'R' (by simp [requestName]))
  · exact hmethod
  · exact absurd (by decide) (hcapital 'P' (by simp [hif hprepare, prepareName]))
  · exact absurd (by decide) (hcapital 'S' (by simp [hif hstatements, statementsName]))
  · exact absurd (by decide) (hcapital 'Q' (by simp [queryName]))

/-! ## Shadowing -/

/-- Files of one package declare a predeclared name that they use. -/
structure Shadows (files : List SourceFile) (name : String) : Prop where
  predeclared : name ∈ Go.predeclared
  declared : ∃ f ∈ files, name ∈ f.declares
  used : ∃ f ∈ files, name ∈ f.mentions

/-- The predeclared names that the code for models uses and that a method may have: `int` in the
support file, and those of each model. -/
def Unguarded (resolved : List Resolved) (name : String) : Prop :=
  name = "int" ∨ ∃ m ∈ resolved, Uses m name

theorem isExposed_of_unguarded {resolved : List Resolved} {name : String}
    (h : Unguarded resolved name) : isExposed name = true := by
  have hnames : ∀ name ∈ ["int", "int32", "float64", "bool", "false"], isExposed name = true := by
    decide +kernel
  refine hnames name ?_
  rcases h with rfl | ⟨m, -, h⟩
  · simp
  · cases h <;> simp

section Run

variable {models : List Model} {r : Registry} {resolved : List Resolved} {d : Dialect}
  {package : String} {units : List ModelUnit} {support : SourceFile}
  (h : validate models r = .ok resolved) (hunits : resolved.mapM (modelUnit d) = .ok units)
  (hsupport : supportFile package = .ok support)

include h hunits hsupport

/-- The predeclared names that are declared are those of methods. -/
theorem declares_predeclared_iff {name : String} (hname : name ∈ predeclared) :
    (∃ f ∈ sourceFiles package units support, name ∈ f.declares) ↔
      ∃ m ∈ resolved, ∃ q ∈ m.model.access.methods, q.name = name := by
  have hdeclares : ∀ {m u}, modelUnit d m = .ok u → (u.sourceFile package).declares =
      unitNames (exported m.name) (m.model.access.methods.map Method.name) := by
    intro m u hu
    obtain ⟨u', hu', hnames⟩ := modelUnit_ok d m
    cases hu.symm.trans hu'
    exact hnames package
  have hhelpers : support.declares = [rangeBound, notPreparedError] := by
    obtain ⟨support', hsupport', hnames⟩ := supportFile_ok package
    cases hsupport.symm.trans hsupport'
    exact hnames
  constructor
  · rintro ⟨f, hf, hdeclared⟩
    rcases List.mem_append.1 hf with hf | hf
    · obtain ⟨u, hu, rfl⟩ := List.mem_map.1 hf
      obtain ⟨m, hm, hunit⟩ := exists_of_mem_right (mapM_eq_ok.1 hunits) hu
      rw [hdeclares hunit] at hdeclared
      have hgo := (Go.OwnName.exported (namesFit_of_validate h hm).struct).own
      exact ⟨m, hm, List.mem_map.1 (mem_methods_of_predeclared hgo hdeclared hname)⟩
    · have hnone : ∀ name ∈ [rangeBound, notPreparedError], name ∉ predeclared := by decide +kernel
      rw [List.mem_singleton.1 hf, hhelpers] at hdeclared
      exact absurd hname (hnone name hdeclared)
  · rintro ⟨m, hm, q, hq, rfl⟩
    obtain ⟨u, hu, hunit⟩ := exists_of_mem_right (mapM_eq_ok.1 hunits).flip hm
    refine ⟨_, mem_sourceFiles hu support, ?_⟩
    have hmethod : q.name ∈ m.model.access.methods.map Method.name := List.mem_map_of_mem hq
    rw [hdeclares hunit]
    simp [unitNames, hmethod]

/-- The exposed names that are used are the unguarded ones. -/
theorem mentions_exposed_iff {name : String} (hname : isExposed name = true) :
    (∃ f ∈ sourceFiles package units support, name ∈ f.mentions) ↔ Unguarded resolved name := by
  have hexposed : ∀ {f : SourceFile}, name ∈ f.mentions ↔ name ∈ exposed f.occurrences := by
    intro f
    rw [mem_exposed, and_iff_left hname, SourceFile.mentions]
  constructor
  · rintro ⟨f, hf, hmentions⟩
    rw [hexposed] at hmentions
    rcases List.mem_append.1 hf with hf | hf
    · obtain ⟨u, hu, rfl⟩ := List.mem_map.1 hf
      obtain ⟨m, hm, hunit⟩ := exists_of_mem_right (mapM_eq_ok.1 hunits) hu
      exact .inr ⟨m, hm,
        (mem_exposed_modelUnit (namesFit_of_validate h hm) hunit package).1 hmentions⟩
    · rw [List.mem_singleton.1 hf, exposed_supportFile hsupport, List.mem_singleton] at hmentions
      exact .inl hmentions
  · rintro (rfl | ⟨m, hm, huses⟩)
    · refine ⟨support, List.mem_append_right _ List.mem_cons_self, hexposed.2 ?_⟩
      rw [exposed_supportFile hsupport]
      exact List.mem_cons_self
    · obtain ⟨u, hu, hunit⟩ := exists_of_mem_right (mapM_eq_ok.1 hunits).flip hm
      exact ⟨_, mem_sourceFiles hu support, hexposed.2
        ((mem_exposed_modelUnit (namesFit_of_validate h hm) hunit package).2 huses)⟩

theorem shadows_iff (name : String) : Shadows (sourceFiles package units support) name ↔
    (∃ m ∈ resolved, ∃ q ∈ m.model.access.methods, q.name = name) ∧ Unguarded resolved name := by
  constructor
  · rintro ⟨hname, hdeclared, hused⟩
    obtain ⟨m, hm, q, hq, heq⟩ := (declares_predeclared_iff h hunits hsupport hname).1 hdeclared
    -- The method passed the check against reserved names, so its name is an exposed one.
    have hexposed : isExposed name = true :=
      isExposed_iff.2 ⟨hname, heq ▸ method_unreserved h hm hq⟩
    exact ⟨⟨m, hm, q, hq, heq⟩, (mentions_exposed_iff h hunits hsupport hexposed).1 hused⟩
  · rintro ⟨hmethod, hunguarded⟩
    have hexposed := isExposed_of_unguarded hunguarded
    have hname := (isExposed_iff.1 hexposed).1
    exact ⟨hname, (declares_predeclared_iff h hunits hsupport hname).2 hmethod,
      (mentions_exposed_iff h hunits hsupport hexposed).2 hunguarded⟩

end Run

/-- **Which predeclared names the generated package shadows.** In an accepted run the files of the
package shadow a predeclared name exactly if a method has that name and it is one of those that no
check keeps free: `int`, the types of columns, or the result of an upsert. -/
theorem package_shadows_iff {models : List Model} {r : Registry} {resolved : List Resolved}
    (h : validate models r = .ok resolved) (d : Dialect) (package : String) :
    ∃ units support, resolved.mapM (modelUnit d) = .ok units ∧ supportFile package = .ok support ∧
      ∀ name, Shadows (sourceFiles package units support) name ↔
        (∃ m ∈ resolved, ∃ q ∈ m.model.access.methods, q.name = name) ∧
          Unguarded resolved name := by
  obtain ⟨units, hunits⟩ := modelUnits_ok d resolved
  obtain ⟨support, hsupport, -⟩ := supportFile_ok package
  exact ⟨units, support, mapM_eq_ok.2 hunits, hsupport,
    shadows_iff h (mapM_eq_ok.2 hunits) hsupport⟩

def textRegistry : Registry := .ofList [{ id := "x", name := "x", type := .text }]

/-- A model without numbers, with an upsert and with methods that are named like types. -/
def typedModel : Model :=
  { name := "a"
    attributes := ["x"]
    access :=
     { addOrReplace := [{ name := "bool", values := [⟨"x", "x"⟩] }]
       delete := [{ name := "float64" }] } }

theorem typedModel_shadows : ∃ m, validate [typedModel] textRegistry = .ok [m] ∧
    ∀ d package, ∃ units support,
      [m].mapM (modelUnit d) = .ok units ∧ supportFile package = .ok support ∧
        Shadows (sourceFiles package units support) "bool" ∧
        ¬Shadows (sourceFiles package units support) "float64" := by
  have haccepted : validate [typedModel] textRegistry = .ok _ :=
    Validation.validate_of_isOk (by decide +kernel)
  refine ⟨_, haccepted, fun d package => ?_⟩
  obtain ⟨units, support, hunits, hsupport, hshadows⟩ := package_shadows_iff haccepted d package
  refine ⟨units, support, hunits, hsupport, (hshadows _).2 ⟨by decide +kernel, ?_⟩, ?_⟩
  · exact .inr ⟨_, List.mem_cons_self, .inserted List.mem_cons_self⟩
  · intro hfloat
    have hcolumns : ∀ m ∈ [typedModel].map fun m => Resolved.mk
        (m.rename (Validation.columnOf textRegistry)) (Validation.entries textRegistry m),
        ∀ a ∈ m.columns, exposedType a.type = [] := by decide +kernel
    obtain ⟨-, hint | ⟨m, hm, huses⟩⟩ := (hshadows _).1 hfloat
    · exact absurd hint (by decide)
    · rcases uses_iff.1 huses with ⟨a, ha, hname⟩ | ⟨q, -, -, hname⟩
      · rw [hcolumns m hm a ha] at hname
        cases hname
      · exact absurd hname (by decide)

/-- A model with a method named `int`. -/
def intModel : Model := { name := "a", access := { delete := [{ name := "int" }] } }

/-- An accepted method can shadow a type that the support file uses. -/
theorem int_method_shadows : ∃ resolved, validate [intModel] textRegistry = .ok resolved ∧
    ∀ d package, ∃ units support,
      resolved.mapM (modelUnit d) = .ok units ∧ supportFile package = .ok support ∧
        Shadows (sourceFiles package units support) "int" := by
  have haccepted : validate [intModel] textRegistry = .ok _ :=
    Validation.validate_of_isOk (by decide +kernel)
  refine ⟨_, haccepted, fun d package => ?_⟩
  obtain ⟨units, hunits⟩ := modelUnits_ok d _
  obtain ⟨support, hsupport, -⟩ := supportFile_ok package
  exact ⟨units, support, mapM_eq_ok.2 hunits, hsupport,
    (shadows_iff haccepted (mapM_eq_ok.2 hunits) hsupport "int").2
      ⟨by decide +kernel, .inl rfl⟩⟩

end DataAccess.Generation
