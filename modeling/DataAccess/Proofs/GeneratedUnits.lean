import DataAccess.Generation.Package
import DataAccess.Proofs.Acceptance

set_option autoImplicit false

/-! # Generated units

Directives are put on nodes by a check that can fail, but the nodes of the generated code always
pass it. So the code of a request can be written down as it is (`requestOf`), a unit is generated for
every model (`modelUnit_ok`), with declarations whose names are known, and a package for any models
(`generate_of_units`). -/

namespace DataAccess.Go

/-- The package-level names that a file declares. -/
def SourceFile.declares (f : SourceFile) : List String :=
  f.structs.map Struct.name ++ f.funcs.map Func.name ++ f.vars.map Value.name ++
    f.consts.map Value.name

end DataAccess.Go

namespace DataAccess.Generation

open Go (Func Handler Node SourceFile Struct)
open Sql (Dialect Parameter Statement)
open Validation (bind_eq_ok mapError_eq_ok mapM_eq_ok)

/-! ## The code of a request -/

/-- Appends a value to the bind values. -/
def appendNode (value : Node) : Node :=
  ⟨.call (.function "append" [.ident "args", value]), .assign ["args"], none, none⟩

/-- Takes one element of a parameter into a new variable. -/
def takeNode (bound name : String) (element : Int) : Node :=
  ⟨.call (.function rangeBound [parameterNode name, .int element]), .define [bound, "err"],
    some (.err [.nil]), none⟩

/-- The variable that holds an element for a position. -/
def boundName (position : Nat) : String := "bound" ++ toString position

/-- The statements that append the bind value of a placeholder. -/
def bindCode (position : Nat) : Parameter → List Node
  | .named name none => [appendNode (parameterNode name)]
  | .named name (some element) =>
    [takeNode (boundName position) name element, appendNode (.ident (boundName position))]
  | .generated function args =>
    [appendNode (.call (.function function (args.map Node.ident) (generatorImport function)))]

/-- The statements that append all bind values, from the given position on. -/
def allBindCode (position : Nat) : List Parameter → List Node
  | [] => []
  | p :: ps => bindCode position p ++ allBindCode (position + 1) ps

/-- The body of `Args`. -/
def argsCode (params : List Parameter) : List Node :=
  ⟨.call (.function "make" [.ident "[]any", .int 0, .int params.length]), .define ["args"], none,
    none⟩ :: allBindCode 1 params ++ [.ret [.ident "args", .nil]]

/-- The request of a statement. -/
def requestOf (s : Statement) : Struct :=
  { name := requestName s.name
    doc := [requestName s.name ++ " is the input of " ++ s.name ++ "."]
    fields := [{ name := "Params", type := .builtin (paramsName s.name) }]
    methods := [
      { name := "Args"
        doc := ["Args returns the bind values in placeholder order."]
        receiver := some ⟨"r", requestName s.name⟩
        returns := [.builtin "[]any", .error]
        body := argsCode s.params }] }

theorem bindNodes_eq (position : Nat) (p : Parameter) :
    bindNodes position p = .ok (bindCode position p) := by
  cases p with
  | named name element => cases element <;> rfl
  | generated function args => rfl

theorem bindAll_eq (position : Nat) (ps : List Parameter) :
    bindAll position ps = .ok (allBindCode position ps) := by
  induction ps generalizing position with
  | nil => rfl
  | cons p ps ih =>
      rw [bindAll, bindNodes_eq, ih]
      rfl

/-- Generating a request never fails. -/
theorem requestStruct_eq (s : Statement) : requestStruct s = .ok (requestOf s) := by
  have hbody : argsBody s.params = .ok (argsCode s.params) := by
    rw [argsBody, bindAll_eq]
    rfl
  rw [requestStruct]
  exact bind_eq_ok.2 ⟨_, bind_eq_ok.2 ⟨_, hbody, rfl⟩, rfl⟩

/-! ## Functions -/

theorem accessFunction_ok (s : Statement) (row : String) (columns : List String) :
    ∃ f, accessFunction s row columns = .ok f ∧ f.name = s.name := by
  obtain ⟨name, kind, sql, params, warnings⟩ := s
  cases kind <;> exact ⟨_, rfl, rfl⟩

theorem prepareFunction_ok (goName : String) :
    ∃ f, prepareFunction goName = .ok f ∧ f.name = prepareName goName := ⟨_, rfl, rfl⟩

/-- The support file declares the two shared helpers and nothing else. -/
theorem supportFile_ok (package : String) :
    ∃ f, supportFile package = .ok f ∧ f.declares = [rangeBound, notPreparedError] := ⟨_, rfl, rfl⟩

/-! ## Units -/

/-- The unit of a method. -/
structure IsUnitOf (d : Dialect) (r : Resolved) (q : Method) (u : MethodUnit) : Prop where
  statement : u.statement = Sql.compileMethod d r.model q
  params : u.params = paramsStruct u.statement
  request : u.request = requestOf u.statement
  access : u.access.name = q.name

theorem methodUnit_ok (d : Dialect) (r : Resolved) (q : Method) :
    ∃ u, methodUnit d r q = .ok u ∧ IsUnitOf d r q u := by
  obtain ⟨f, hf, hname⟩ := accessFunction_ok (Sql.compileMethod d r.model q) (Go.exported r.name)
    (scanColumns r q)
  refine ⟨⟨Sql.compileMethod d r.model q, paramsStruct (Sql.compileMethod d r.model q),
    requestOf (Sql.compileMethod d r.model q), f⟩, ?_, rfl, rfl, rfl, hname⟩
  rw [methodUnit, requestStruct_eq, hf]
  rfl

theorem methodUnits_ok (d : Dialect) (r : Resolved) (qs : List Method)
    (place : Method → CompileError → CompileError) :
    ∃ us, (qs.mapM fun q => (methodUnit d r q).mapError (place q)) = .ok us ∧
      List.Forall₂ (IsUnitOf d r) qs us := by
  induction qs with
  | nil => exact ⟨[], rfl, .nil⟩
  | cons q qs ih =>
      obtain ⟨u, hu, hunit⟩ := methodUnit_ok d r q
      obtain ⟨us, hus, hunits⟩ := ih
      refine ⟨u :: us, ?_, .cons hunit hunits⟩
      exact mapM_eq_ok.2 (.cons (mapError_eq_ok.2 hu) (mapM_eq_ok.1 hus))

/-- What is declared only if there are methods. -/
def ifMethods (methods declared : List String) : List String :=
  if methods.isEmpty then [] else declared

/-- The names that the unit of a model declares: structs, functions, variables and constants. -/
def unitNames (goName : String) (methods : List String) : List String :=
  (goName :: methods.flatMap fun q => [paramsName q, requestName q]) ++
    (methods ++ ifMethods methods [prepareName goName]) ++
    ifMethods methods [statementsName goName] ++ methods.map queryName

theorem prepareFunctions_ok {d : Dialect} {r : Resolved} {qs : List Method}
    {us : List MethodUnit} (h : List.Forall₂ (IsUnitOf d r) qs us) (goName : String) :
    ∃ fs, prepareFunctions goName us = .ok fs ∧
      fs.map Func.name = ifMethods (qs.map Method.name) [prepareName goName] := by
  cases h with
  | nil => exact ⟨[], rfl, rfl⟩
  | cons _ _ =>
      obtain ⟨f, hf, hname⟩ := prepareFunction_ok goName
      refine ⟨[f], ?_, by rw [List.map_singleton, hname]; rfl⟩
      exact bind_eq_ok.2 ⟨f, hf, rfl⟩

/-- The unit of a model, from the units of its methods and the functions that prepare them. -/
def unitOf (r : Resolved) (methods : List MethodUnit) (prepare : List Func) : ModelUnit :=
  let statements := methods.map MethodUnit.statement
  { goName := Go.exported r.name
    structs := rowStruct r :: methods.flatMap fun u => [u.params, u.request]
    funcs := methods.map MethodUnit.access ++ prepare
    vars := if statements.isEmpty then [] else [statementsVar (Go.exported r.name) statements]
    consts := statements.map queryConst
    statements }

theorem IsUnitOf.statement_name {d : Dialect} {r : Resolved} {q : Method} {u : MethodUnit}
    (h : IsUnitOf d r q u) : u.statement.name = q.name := by
  rw [h.statement]
  rfl

section Names

variable {d : Dialect} {r : Resolved} {qs : List Method} {us : List MethodUnit}

theorem names_structs (h : List.Forall₂ (IsUnitOf d r) qs us) :
    (us.flatMap fun u => [u.params, u.request]).map Struct.name =
      (qs.map Method.name).flatMap fun q => [paramsName q, requestName q] := by
  induction h with
  | nil => rfl
  | cons hu _ ih =>
      have hparams := congrArg Struct.name hu.params
      have hrequest := congrArg Struct.name hu.request
      simp only [paramsStruct, requestOf, hu.statement_name] at hparams hrequest
      simpa [hparams, hrequest] using ih

theorem names_access (h : List.Forall₂ (IsUnitOf d r) qs us) :
    (us.map MethodUnit.access).map Func.name = qs.map Method.name := by
  induction h with
  | nil => rfl
  | cons hu _ ih => rw [List.map_cons, List.map_cons, List.map_cons, ih, hu.access]

theorem names_consts (h : List.Forall₂ (IsUnitOf d r) qs us) :
    ((us.map MethodUnit.statement).map queryConst).map Go.Value.name =
      (qs.map Method.name).map queryName := by
  induction h with
  | nil => rfl
  | cons hu _ ih =>
      rw [List.map_cons, List.map_cons, List.map_cons, List.map_cons, List.map_cons, ih,
        queryConst, hu.statement_name]

theorem names_vars (h : List.Forall₂ (IsUnitOf d r) qs us) (prepare : List Func) :
    (unitOf r us prepare).vars.map Go.Value.name =
      ifMethods (qs.map Method.name) [statementsName (Go.exported r.name)] := by
  cases h <;> rfl

end Names

/-- A unit is generated for every model, and the names it declares follow from the names of the
model and its methods. -/
theorem modelUnit_ok (d : Dialect) (r : Resolved) :
    ∃ u, modelUnit d r = .ok u ∧ ∀ package, (u.sourceFile package).declares =
      unitNames (Go.exported r.name) (r.model.access.methods.map Method.name) := by
  obtain ⟨us, hus, hunits⟩ := methodUnits_ok d r r.model.access.methods
    fun q => .inMethod r.name q.name
  obtain ⟨fs, hfs, hprepare⟩ := prepareFunctions_ok hunits (Go.exported r.name)
  refine ⟨unitOf r us fs, ?_, fun package => ?_⟩
  · rw [modelUnit]
    exact bind_eq_ok.2 ⟨us, hus, bind_eq_ok.2 ⟨fs, mapError_eq_ok.2 hfs, rfl⟩⟩
  · show (rowStruct r :: us.flatMap fun u => [u.params, u.request]).map Struct.name ++
      (us.map MethodUnit.access ++ fs).map Func.name ++ (unitOf r us fs).vars.map Go.Value.name ++
      ((us.map MethodUnit.statement).map queryConst).map Go.Value.name = _
    rw [List.map_cons, List.map_append, names_structs hunits, names_access hunits, hprepare,
      names_vars hunits, names_consts hunits, rowStruct, unitNames]

/-- The unit of a model is made of the units of its methods and the function that prepares them. -/
theorem modelUnit_eq {d : Dialect} {r : Resolved} {u : ModelUnit} (h : modelUnit d r = .ok u) :
    ∃ us fs, List.Forall₂ (fun q v => methodUnit d r q = .ok v) r.model.access.methods us ∧
      prepareFunctions (Go.exported r.name) us = .ok fs ∧ u = unitOf r us fs := by
  rw [modelUnit] at h
  obtain ⟨us, hus, h⟩ := bind_eq_ok.1 h
  obtain ⟨fs, hfs, h⟩ := bind_eq_ok.1 h
  refine ⟨us, fs, (mapM_eq_ok.1 hus).imp fun _ _ hq => mapError_eq_ok.1 hq, mapError_eq_ok.1 hfs, ?_⟩
  exact (Except.ok.inj h).symm

/-- The unit of a model has its Go name. -/
theorem goName_modelUnit {d : Dialect} {r : Resolved} {u : ModelUnit}
    (h : modelUnit d r = .ok u) : u.goName = Go.exported r.name := by
  obtain ⟨us, fs, -, -, hu⟩ := modelUnit_eq h
  rw [hu, unitOf]

/-- The unit of a model holds the units of its methods beside the struct of its rows. -/
theorem mem_modelUnit {d : Dialect} {r : Resolved} {u : ModelUnit} (h : modelUnit d r = .ok u) :
    rowStruct r ∈ u.structs ∧ ∀ q ∈ r.model.access.methods, ∀ v, methodUnit d r q = .ok v →
      v.statement ∈ u.statements ∧ v.access ∈ u.funcs := by
  obtain ⟨us, fs, hus, -, hu⟩ := modelUnit_eq h
  rw [hu]
  refine ⟨List.mem_cons_self, fun q hq v hv => ?_⟩
  obtain ⟨v', hv', hunit⟩ := Validation.exists_of_mem_right hus.flip hq
  have hsame : v = v' := Except.ok.inj (hv.symm.trans hunit)
  rw [hsame]
  exact ⟨List.mem_map_of_mem hv', List.mem_append_left _ (List.mem_map_of_mem hv')⟩

/-! ## Packages -/

theorem modelUnits_ok (d : Dialect) (models : List Resolved) :
    ∃ units, List.Forall₂ (fun r u => modelUnit d r = .ok u) models units :=
  Validation.exists_forall₂_iff.2 fun r _ => (modelUnit_ok d r).imp fun _ hu => hu.1

/-- A package is generated from the units of its models. -/
theorem generate_of_units {d : Dialect} {models : List Resolved} {units : List ModelUnit}
    (h : List.Forall₂ (fun r u => modelUnit d r = .ok u) models units)
    (package modulePath : String) :
    ∃ support, supportFile package = .ok support ∧ generate package modulePath d models = .ok
      { files := units.map (unitFile package) ++
          [⟨supportFileName, support.render⟩, ⟨schemaFileName, schemaText d models⟩,
           ⟨goModFileName, goMod modulePath (packageImports package units).dependencies⟩]
        warnings := units.flatMap ModelUnit.warnings } := by
  obtain ⟨support, hsupport, -⟩ := supportFile_ok package
  refine ⟨support, hsupport, ?_⟩
  rw [generate]
  exact bind_eq_ok.2 ⟨units, mapM_eq_ok.2 h, bind_eq_ok.2 ⟨support, hsupport, rfl⟩⟩

end DataAccess.Generation
