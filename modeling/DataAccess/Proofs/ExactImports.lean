import DataAccess.Proofs.FileNames
import DataAccess.Proofs.PredeclaredNames
import DataAccess.Proofs.Qualifiers
import DataAccess.Proofs.UnitImports

set_option autoImplicit false

/-! # Exact imports

Go refuses a file that refers to a package without importing it, and one that imports a package
without referring to it. Here the qualifiers in the code of a unit are told part by part and
compared with the imports of that part (`Covers`). So the unit imports exactly what it refers to,
and that can be told from the model (`ImportsExact`). Of these imports only one comes from another
module, and the module file requires that one or none (`dependencies_packageImports`). -/

namespace DataAccess.Generation

open Go (Covers Func Import ImportSet Node Occurrence SourceFile Struct TypeRef Value qualifiersIn
  typeQualifiers)
open Sql (Dialect Parameter Statement)

/-! ## Types -/

/-- The names of the structs of a unit. A dot can only come from the name of a method, and that is
followed by a word. -/
def IsStructName (name : String) : Prop :=
  '.' ∉ name.toList ∨ "Params".toList <:+ name.toList ∨ "Request".toList <:+ name.toList

instance : DecidablePred IsStructName := fun _ => inferInstanceAs (Decidable (_ ∨ _ ∨ _))

theorem isStructName_exported (s : String) : IsStructName (Go.exported s) :=
  .inl (Go.separator_not_mem_exported (by decide) s)

theorem isStructName_paramsName (method : String) : IsStructName (paramsName method) :=
  .inr (.inl ⟨method.toList, by simp [paramsName]⟩)

theorem isStructName_requestName (method : String) : IsStructName (requestName method) :=
  .inr (.inr ⟨method.toList, by simp [requestName]⟩)

/-- The types of other packages, and what is behind a pointer. -/
def packageTexts : List String :=
  ["context.Context", "map[string]*sql.Stmt", "*sql.DB", "sql.DB", "*time.Time", "time.Time",
   "json.RawMessage"]

theorem not_isStructName : ∀ text ∈ packageTexts, ¬IsStructName text := by decide

/-- The qualifiers of the types of other packages. -/
structure PackageTypes (own : List String) : Prop where
  context (vars : List String) : contextType.occurrence.qualifiers own vars = ["context"]
  statements (vars : List String) : statementMapType.occurrence.qualifiers own vars = ["sql"]
  database (vars : List String) : databaseType.occurrence.qualifiers own vars = ["sql"]
  time (vars : List String) : timeType.occurrence.qualifiers own vars = ["time"]
  json (vars : List String) : jsonType.occurrence.qualifiers own vars = ["json"]

theorem packageTypes_of_structs {own : List String} (h : ∀ name ∈ own, IsStructName name) :
    PackageTypes own := by
  have hown {text : String} (htext : text ∈ packageTexts) : text ∉ own := fun hmem =>
    not_isStructName text htext (h text hmem)
  have hname (text : String) (htext : text ∈ packageTexts)
      (hsign : text.toList.head?.any Go.isSign = false) :
      typeQualifiers own text.toList = qualifiersIn text.toList :=
    Go.typeQualifiers_of_not_own (hown htext) hsign
  have hpointer (text : String) (hptr : "*" ++ text ∈ packageTexts) (htext : text ∈ packageTexts)
      (hsign : text.toList.head?.any Go.isSign = false) :
      typeQualifiers own ("*" ++ text).toList = qualifiersIn text.toList :=
    (Go.typeQualifiers_pointer (hown hptr)).trans (hname text htext hsign)
  constructor <;> intro vars
  · exact (hname "context.Context" (by decide) (by decide)).trans (by decide)
  · exact (hname "map[string]*sql.Stmt" (by decide) (by decide)).trans (by decide)
  · exact (hpointer "sql.DB" (by decide) (by decide) (by decide)).trans (by decide)
  · exact (hpointer "time.Time" (by decide) (by decide) (by decide)).trans (by decide)
  · exact (hname "json.RawMessage" (by decide) (by decide)).trans (by decide)

/-! ## Access functions -/

section Functions

variable {own vars : List String}

theorem qualifiers_prologue (s : Statement) :
    (Node.allOccurrences (prologueCode s)).flatMap (Occurrence.qualifiers own vars) = [] := by
  cases hkind : s.kind <;>
    simp (disch := decide) [prologueCode, hkind, zeros, onError,
      Occurrence.qualifiers_name_of_not_mem]

/-- Rows are read into the fields of a variable. -/
theorem qualifiers_scanTargets (hitem : "item" ∈ vars) (columns : List String) :
    (Node.allOccurrences (scanTargets columns)).flatMap (Occurrence.qualifiers own vars) = [] := by
  induction columns with
  | nil => rfl
  | cons c columns ih =>
      have htarget : (Occurrence.name ("item." ++ Go.exported c)).qualifiers own vars = [] :=
        Occurrence.qualifiers_field (by decide) (by decide) hitem
          (Go.separator_not_mem_exported (by decide) c)
      rw [scanTargets] at ih
      simp only [scanTargets, List.map_cons, Node.allOccurrences_cons, Node.occurrences_unary,
        Node.occurrences_ident, List.flatMap_append, List.flatMap_singleton, htarget, ih,
        List.append_nil]

theorem qualifiers_result {row : String} (hrow : row ∈ own) {kind : MethodKind}
    (hitem : kind = .find → "item" ∈ vars) (columns : List String) :
    (Node.allOccurrences (resultCode row columns kind)).flatMap (Occurrence.qualifiers own vars) =
      [] := by
  cases kind with
  | find =>
      simp (disch := decide) [-List.flatMap_eq_nil_iff, resultCode, rowsCode, scanLoop,
        runStatement, zeros, onError, Occurrence.qualifiers_name_of_not_mem,
        Occurrence.qualifiers_own hrow, Occurrence.qualifiers_type_of_own hrow,
        qualifiers_scanTargets (hitem rfl)]
  | update | delete =>
      simp (disch := decide) [resultCode, executeCode, runStatement, zeros, onError,
        Occurrence.qualifiers_name_of_not_mem]
  | add | addOrReplace =>
      simp (disch := decide) [resultCode, rowCode, runStatement, zeros, onError,
        Occurrence.qualifiers_name_of_not_mem, Occurrence.qualifiers_type_of_not_mem]

theorem qualifiers_resultTypes {row : String} (hrow : row ∈ own) (kind : MethodKind)
    (vars : List String) : ((resultTypes row kind).map TypeRef.occurrence).flatMap
      (Occurrence.qualifiers own vars) = [] := by
  cases kind <;>
    simp (disch := decide) [resultTypes, TypeRef.error, Occurrence.qualifiers_type_of_own hrow,
      Occurrence.qualifiers_type_of_not_mem]

/-- A find makes a variable for each row. -/
theorem item_mem_bound {s : Statement} (h : s.kind = .find) (row : String)
    (columns : List String) : "item" ∈ (accessOf s row columns).bound := by
  have hmem : Occurrence.bound "item" ∈ (accessOf s row columns).occurrences := by
    simp [Func.occurrences, accessOf, h, resultCode, rowsCode, scanLoop]
  exact List.mem_filterMap.2 ⟨_, hmem, rfl⟩

/-- An access function refers to the packages of its parameters. -/
theorem qualifiers_accessOf (htypes : PackageTypes own) {s : Statement} {row : String}
    (hrequest : requestName s.name ∈ own) (hrow : row ∈ own) (columns : List String) :
    (accessOf s row columns).qualifiers own = ["context", "sql"] := by
  have hresult := qualifiers_result hrow (fun hkind : s.kind = .find =>
    item_mem_bound hkind row columns) columns
  have hreturns := qualifiers_resultTypes hrow s.kind (accessOf s row columns).bound
  rw [Func.qualifiers]
  generalize (accessOf s row columns).bound = vars at hresult hreturns
  simp (disch := decide) only [Func.occurrences, accessOf, Option.elim_none, List.flatMap_cons,
    List.flatMap_nil, List.flatMap_append, Node.allOccurrences_append, List.nil_append,
    List.append_nil, List.cons_append, TypeRef.occurrence_builtin, htypes.context,
    htypes.statements, hreturns, hresult, qualifiers_prologue, Occurrence.qualifiers_bound,
    Occurrence.qualifiers_type_of_own hrequest]

/-- Preparing takes a database and makes a map of statements. -/
theorem qualifiers_prepareFunction (htypes : PackageTypes own) {goName : String} {f : Func}
    (h : prepareFunction goName = .ok f) :
    f.qualifiers own = ["context", "sql", "sql", "sql"] := by
  have hbody :
      prepareBody (statementsName goName) = .ok (prepareCode (statementsName goName)) := rfl
  have hlist : '.' ∉ (statementsName goName).toList := by
    simpa [statementsName] using Naming.separator_not_mem_camel (by decide) goName
  have hmap : (Occurrence.name statementMapType.name).qualifiers own
      ["ctx", "db", "stmts", "entry", "stmt", "err"] = ["sql"] := by
    rw [Occurrence.qualifiers]
    decide
  rw [prepareFunction, hbody] at h
  cases h
  rw [Func.qualifiers, show Func.bound _ = ["ctx", "db", "stmts", "entry", "stmt", "err"] from rfl]
  simp (disch := decide) [Func.occurrences, prepareCode, TypeRef.error, htypes.context,
    htypes.database, htypes.statements, hmap, Occurrence.qualifiers_type_of_not_mem,
    Occurrence.qualifiers_name_of_not_mem, Occurrence.qualifiers_name_of_not_mem hlist]

/-! ## Requests -/

/-- The code for a bind value refers to a package only if that makes the value. -/
theorem covers_bindCode (hr : "r" ∈ vars) (huuid : "uuid" ∉ vars) (position : Nat) {p : Parameter}
    (hp : p = .newId ∨ ∃ name, p.name? = some name) :
    Covers (bindImports p) ((Node.allOccurrences (bindCode position p)).flatMap
      (Occurrence.qualifiers own vars)) := by
  have hfield (name : String) :
      (Occurrence.name ("r.Params." ++ Go.exported name)).qualifiers own vars = [] :=
    Occurrence.qualifiers_field (by decide) (by decide) hr
      (Go.separator_not_mem_exported (by decide) name)
  have hbound : '.' ∉ (boundName position).toList := by
    intro hdot
    rcases (Go.isNameChar_iff.1 ((ownName_boundName position).chars _ hdot)) with ⟨-, hne⟩
    exact hne rfl
  rcases hp with rfl | ⟨name, hname⟩
  · have hmake : (Occurrence.name Parameter.idGenerator).qualifiers own vars = ["uuid"] := by
      rw [Occurrence.qualifiers,
        show qualifiersIn Parameter.idGenerator.toList = ["uuid"] by decide, List.filter_singleton]
      simp [huuid]
    have hcode : (Node.allOccurrences (bindCode position .newId)).flatMap
        (Occurrence.qualifiers own vars) = ["uuid"] := by
      simp (disch := decide) [Parameter.newId, bindCode, appendNode, hmake,
        Occurrence.qualifiers_name_of_not_mem]
    rw [hcode]
    exact .singleton (by decide)
  · cases p with
    | generated function args => cases hname
    | named name' element =>
        have hcode : (Node.allOccurrences (bindCode position (.named name' element))).flatMap
            (Occurrence.qualifiers own vars) = [] := by
          cases element <;>
            simp (disch := decide) [bindCode, appendNode, takeNode, parameterNode, hfield,
              Occurrence.qualifiers_name_of_not_mem, Occurrence.qualifiers_name_of_not_mem hbound]
        rw [hcode]
        exact .nil

theorem covers_allBindCode (hr : "r" ∈ vars) (huuid : "uuid" ∉ vars) (position : Nat)
    {ps : List Parameter} (hps : ∀ p ∈ ps, p = .newId ∨ ∃ name, p.name? = some name) :
    Covers (ps.flatMap bindImports) ((Node.allOccurrences (allBindCode position ps)).flatMap
      (Occurrence.qualifiers own vars)) := by
  induction ps generalizing position with
  | nil => exact .nil
  | cons p ps ih =>
      obtain ⟨hp, hps⟩ := List.forall_mem_cons.1 hps
      rw [allBindCode, Node.allOccurrences_append, List.flatMap_append, List.flatMap_cons]
      exact (covers_bindCode hr huuid position hp).append (ih (position + 1) hps)

theorem bound_not_mem_idents (x : String) (args : List String) :
    Occurrence.bound x ∉ Node.allOccurrences (args.map Node.ident) := by
  induction args with
  | nil => simp
  | cons a args ih => simpa using ih

/-- The code for bind values makes these variables only. -/
theorem bound_allBindCode {position : Nat} {ps : List Parameter} {x : String}
    (h : Occurrence.bound x ∈ Node.allOccurrences (allBindCode position ps)) :
    x = "err" ∨ ∃ k, x = boundName k := by
  induction ps generalizing position with
  | nil => cases h
  | cons p ps ih =>
      rw [allBindCode, Node.allOccurrences_append, List.mem_append] at h
      rcases h with h | h
      · cases p with
        | named name element =>
            cases element <;>
              simp [bindCode, appendNode, takeNode, parameterNode] at h
            rcases h with rfl | rfl
            · exact .inr ⟨position, rfl⟩
            · exact .inl rfl
        | generated function args =>
            simp [bindCode, appendNode, bound_not_mem_idents] at h
      · exact ih h

/-- The method of a request that lists the bind values. -/
def argsOf (s : Statement) : Func :=
  { name := "Args"
    doc := ["Args returns the bind values in placeholder order."]
    receiver := some ⟨"r", requestName s.name⟩
    returns := [.builtin "[]any", .error]
    body := argsCode s.params }

theorem methods_requestOf (s : Statement) : (requestOf s).methods = [argsOf s] := rfl

theorem r_mem_bound (s : Statement) : "r" ∈ (argsOf s).bound := List.mem_cons_self

/-- No variable of it has the name of the package. -/
theorem uuid_not_mem_bound (s : Statement) : "uuid" ∉ (argsOf s).bound := by
  intro hmem
  obtain ⟨o, ho, hbound⟩ := List.mem_filterMap.1 hmem
  cases o with
  | type text => cases hbound
  | name text => cases hbound
  | bound x =>
      cases hbound
      have hcode : Occurrence.bound "uuid" ∈ Node.allOccurrences (allBindCode 1 s.params) := by
        simpa [argsOf, Func.occurrences, argsCode, TypeRef.error] using ho
      rcases bound_allBindCode hcode with heq | ⟨k, heq⟩
      · exact absurd heq (by decide)
      · have hhead := congrArg (·.toList.head?) heq
        simp [boundName] at hhead

/-- A request refers to the packages of its bind values. -/
theorem covers_requestOf {s : Statement} (hparams : paramsName s.name ∈ own)
    (hrequest : requestName s.name ∈ own)
    (hps : ∀ p ∈ s.params, p = .newId ∨ ∃ name, p.name? = some name) :
    Covers (requestOf s).imports ((requestOf s).qualifiers own) := by
  have hfields : (requestOf s).fields.flatMap (·.type.occurrence.qualifiers own []) = [] := by
    simp [requestOf, Occurrence.qualifiers_own hparams]
  have hargs : (argsOf s).qualifiers own = (Node.allOccurrences (allBindCode 1 s.params)).flatMap
      (Occurrence.qualifiers own (argsOf s).bound) := by
    rw [Func.qualifiers]
    generalize (argsOf s).bound = vars
    simp (disch := decide) [-List.flatMap_eq_nil_iff, argsOf, Func.occurrences, argsCode,
      TypeRef.error, Occurrence.qualifiers_own hrequest, Occurrence.qualifiers_name_of_not_mem,
      Occurrence.qualifiers_type_of_not_mem]
  rw [imports_requestOf, Struct.qualifiers, hfields, methods_requestOf, List.nil_append,
    List.flatMap_singleton, hargs]
  exact covers_allBindCode (r_mem_bound s) (uuid_not_mem_bound s) 1 hps

/-! ## Rows and values -/

theorem covers_columnType (htypes : PackageTypes own) (a : Attribute) :
    Covers (columnType a).imports ((columnType a).occurrence.qualifiers own vars) := by
  have hscalar (required : Bool) {name : String} (h : '.' ∉ name.toList) :
      Covers (scalarType required name).imports
        ((scalarType required name).occurrence.qualifiers own vars) := by
    have hnone : (scalarType required name).occurrence.qualifiers own vars = [] := by
      cases required
      · refine Occurrence.qualifiers_type_of_not_mem ?_
        simpa [scalarType, TypeRef.builtin, TypeRef.render] using h
      · exact Occurrence.qualifiers_type_of_not_mem h
    rw [hnone]
    exact .nil
  unfold columnType
  cases a.type with
  | timestamp => exact htypes.time vars ▸ .singleton (by decide)
  | json => exact htypes.json vars ▸ .singleton (by decide)
  | text | uuid | int | bigint | float | bool => exact hscalar _ (by decide)

theorem covers_rowStruct (htypes : PackageTypes own) (r : Resolved) :
    Covers (rowStruct r).imports ((rowStruct r).qualifiers own) := by
  have hfixed : Covers (fixedFields.flatMap (·.type.imports))
      (fixedFields.flatMap (·.type.occurrence.qualifiers own [])) := by
    have hqualifiers : fixedFields.flatMap (·.type.occurrence.qualifiers own []) = ["time"] := by
      simp (disch := decide) [fixedFields, htypes.time, Occurrence.qualifiers_type_of_not_mem]
    rw [hqualifiers]
    exact .singleton (by decide)
  have hcolumns := Covers.flatMap fun a (_ : a ∈ r.columns) => @covers_columnType own [] htypes a
  have hall := hfixed.append hcolumns
  simpa [Struct.imports, Struct.qualifiers, rowStruct, List.flatMap_map, columnField] using hall

theorem qualifiers_paramsStruct (s : Statement) : (paramsStruct s).qualifiers own = [] := by
  simp (disch := decide) [Struct.qualifiers, paramsStruct, TypeRef.any,
    Occurrence.qualifiers_type_of_not_mem]

theorem qualifiers_queryConst (s : Statement) : (queryConst s).qualifiers own = [] := by
  simp [Value.qualifiers, Value.occurrences, queryConst]

theorem qualifiers_statementsVar (goName : String) (statements : List Statement) :
    (statementsVar goName statements).qualifiers own = [] := by
  have hentries : (Go.Element.allOccurrences (statements.map statementEntry)).flatMap
      (Occurrence.qualifiers own []) = [] := by
    induction statements with
    | nil => rfl
    | cons s statements ih =>
        have hquery : '.' ∉ (queryName s.name).toList := by
          simpa [queryName] using Naming.separator_not_mem_camel (by decide) s.name
        rw [List.map_cons, Go.Element.allOccurrences_cons, List.flatMap_append, ih]
        simp [statementEntry, Occurrence.qualifiers_name_of_not_mem hquery]
  simp (disch := decide) [-List.flatMap_eq_nil_iff, Value.qualifiers, Value.occurrences,
    statementsVar, hentries, Occurrence.qualifiers_type_of_not_mem]

end Functions

/-! ## Units -/

theorem methodUnit_eq {d : Dialect} {r : Resolved} {q : Method} {v : MethodUnit}
    (h : methodUnit d r q = .ok v) : v =
      { statement := Sql.compileMethod d r.model q
        params := paramsStruct (Sql.compileMethod d r.model q)
        request := requestOf (Sql.compileMethod d r.model q)
        access := accessOf (Sql.compileMethod d r.model q) (Go.exported r.name)
          (scanColumns r q) } := by
  rw [methodUnit, requestStruct_eq, accessFunction_eq] at h
  exact (Except.ok.inj h).symm

theorem name_rowStruct (r : Resolved) : (rowStruct r).name = Go.exported r.name := by
  rw [rowStruct]

/-- The structs of a unit: the row, and two for each method. -/
theorem mem_structs_unitOf {r : Resolved} {us : List MethodUnit} {fs : List Func} {s : Struct} :
    s ∈ (unitOf r us fs).structs ↔ s = rowStruct r ∨ ∃ v ∈ us, s = v.params ∨ s = v.request := by
  simp [unitOf]

/-- The code of a method refers to the packages that it imports, if its structs are in the file. -/
theorem covers_methodUnit {own : List String} (htypes : PackageTypes own) {d : Dialect}
    {r : Resolved} {q : Method} {v : MethodUnit} (h : methodUnit d r q = .ok v)
    (hrow : Go.exported r.name ∈ own) (hparams : v.params.name ∈ own)
    (hrequest : v.request.name ∈ own) :
    Covers v.params.imports (v.params.qualifiers own) ∧
      Covers v.request.imports (v.request.qualifiers own) ∧
      Covers v.access.imports (v.access.qualifiers own) := by
  have haccess : v.access.imports = [{ path := "context" }, { path := "database/sql" }] :=
    (imports_methodUnit h).2.2
  rw [haccess]
  cases methodUnit_eq h
  refine ⟨?_, ?_, ?_⟩
  · rw [imports_paramsStruct, qualifiers_paramsStruct]
    exact .nil
  · refine covers_requestOf hparams hrequest fun p hp => ?_
    exact (Sql.mem_params_compileMethod hp).imp_right fun ⟨name, _, hname⟩ => ⟨name, hname⟩
  · rw [qualifiers_accessOf htypes hrequest hrow]
    exact .append (.singleton (by decide)) (.singleton (by decide))

theorem covers_prepareFunction {own : List String} (htypes : PackageTypes own) {goName : String}
    {f : Func} (h : prepareFunction goName = .ok f) : Covers f.imports (f.qualifiers own) := by
  intro q
  rw [qualifiers_prepareFunction htypes h, imports_prepareFunction h]
  simp [show Import.qualifier { path := "context" } = "context" by decide,
    show Import.qualifier { path := "database/sql" } = "sql" by decide, eq_comm]

section Unit

variable {d : Dialect} {r : Resolved} {us : List MethodUnit}
  (hus : List.Forall₂ (fun q v => methodUnit d r q = .ok v) r.model.access.methods us)
include hus

/-- The types of other packages are not mistaken for structs of the unit. -/
theorem packageTypes_unitOf (fs : List Func) :
    PackageTypes ((unitOf r us fs).structs.map Struct.name) := by
  refine packageTypes_of_structs fun name hname => ?_
  obtain ⟨s, hs, rfl⟩ := List.mem_map.1 hname
  rcases mem_structs_unitOf.1 hs with rfl | ⟨v, hv, hs⟩
  · rw [name_rowStruct]
    exact isStructName_exported r.name
  · obtain ⟨q, -, hunit⟩ := Validation.exists_of_mem_right hus hv
    cases methodUnit_eq hunit
    rcases hs with rfl | rfl
    · exact isStructName_paramsName _
    · exact isStructName_requestName _

theorem covers_methods_unitOf (fs : List Func) {v : MethodUnit} (hv : v ∈ us) :
    Covers v.params.imports (v.params.qualifiers ((unitOf r us fs).structs.map Struct.name)) ∧
      Covers v.request.imports (v.request.qualifiers ((unitOf r us fs).structs.map Struct.name)) ∧
      Covers v.access.imports (v.access.qualifiers ((unitOf r us fs).structs.map Struct.name)) := by
  obtain ⟨q, -, hunit⟩ := Validation.exists_of_mem_right hus hv
  have hstruct (s : Struct) (hs : s = rowStruct r ∨ ∃ v ∈ us, s = v.params ∨ s = v.request) :
      s.name ∈ (unitOf r us fs).structs.map Struct.name :=
    List.mem_map_of_mem (mem_structs_unitOf.2 hs)
  have hrow := hstruct (rowStruct r) (.inl rfl)
  rw [name_rowStruct] at hrow
  exact covers_methodUnit (packageTypes_unitOf hus fs) hunit hrow
    (hstruct v.params (.inr ⟨v, hv, .inl rfl⟩)) (hstruct v.request (.inr ⟨v, hv, .inr rfl⟩))

end Unit

/-- The code of a model refers to the packages that it imports. -/
theorem covers_modelUnit {d : Dialect} {r : Resolved} {u : ModelUnit} (h : modelUnit d r = .ok u)
    (package : String) :
    Covers (u.sourceFile package).imports (u.sourceFile package).qualifiers := by
  obtain ⟨us, fs, hus, hfs, rfl⟩ := modelUnit_eq h
  refine Go.covers_sourceFile rfl rfl ?vars ?consts ?structs ?funcs
  case vars =>
    intro v hv
    have hvar : v = statementsVar (Go.exported r.name) (us.map MethodUnit.statement) := by
      change v ∈ (if _ then [] else _) at hv
      split_ifs at hv
      · cases hv
      · exact List.mem_singleton.1 hv
    rw [hvar, imports_statementsVar, qualifiers_statementsVar]
    exact .nil
  case consts =>
    intro v hv
    obtain ⟨s, -, rfl⟩ := List.mem_map.1 hv
    rw [qualifiers_queryConst]
    exact .nil
  case structs =>
    intro s hs
    have hparts : s = rowStruct r ∨ ∃ v ∈ us, s = v.params ∨ s = v.request :=
      (@mem_structs_unitOf r us fs s).1 hs
    rcases hparts with rfl | ⟨v, hv, rfl | rfl⟩
    · exact covers_rowStruct (packageTypes_unitOf hus fs) r
    · exact (covers_methods_unitOf hus fs hv).1
    · exact (covers_methods_unitOf hus fs hv).2.1
  case funcs =>
    intro f hf
    rcases List.mem_append.1 hf with hf | hf
    · obtain ⟨v, hv, rfl⟩ := List.mem_map.1 hf
      exact (covers_methods_unitOf hus fs hv).2.2
    · rw [prepareFunctions] at hfs
      split_ifs at hfs
      · cases hfs
        cases hf
      · obtain ⟨g, hg, ⟨⟩⟩ := Validation.bind_eq_ok.1 hfs
        rw [List.mem_singleton.1 hf]
        exact covers_prepareFunction (packageTypes_unitOf hus [g]) hg

/-! ## Imports told from the model -/

/-- A model with a method that inserts rows. -/
def Inserts (r : Resolved) : Prop :=
  ∃ q ∈ r.model.access.methods, q.kind = .add ∨ q.kind = .addOrReplace

instance : DecidablePred Inserts := fun r =>
  inferInstanceAs (Decidable (∃ q ∈ r.model.access.methods, _))

/-- The imports of the file of a model are exact. They can be told from the model, each stands there
once, and the code refers to all of them and to no other package. -/
structure ImportsExact (r : Resolved) (f : SourceFile) : Prop where
  time : "time" ∈ f.importSet.paths
  context : "context" ∈ f.importSet.paths ↔ r.model.access.methods ≠ []
  sql : "database/sql" ∈ f.importSet.paths ↔ r.model.access.methods ≠ []
  uuid : "github.com/google/uuid" ∈ f.importSet.paths ↔ Inserts r
  json : "encoding/json" ∈ f.importSet.paths ↔ ∃ a ∈ r.columns, a.type = .json
  only : f.importSet.paths ⊆
    ["time", "context", "database/sql", "github.com/google/uuid", "encoding/json"]
  once : f.importSet.paths.Nodup
  used : Covers f.importSet.imports f.qualifiers

theorem inserts_iff {r : Resolved} :
    Inserts r ↔ ∃ q ∈ r.model.access.methods, q.kind.inserts = true := by
  have hkind (k : MethodKind) : k.inserts = true ↔ k = .add ∨ k = .addOrReplace := by
    cases k <;> simp [MethodKind.inserts]
  simp only [Inserts, hkind]

/-- The paths of what a model needs. -/
theorem needs_path_iff {r : Resolved} {path : String} : (∃ i, Needs r i ∧ i.path = path) ↔
    path = "time" ∨
    (path = "context" ∨ path = "database/sql") ∧ r.model.access.methods ≠ [] ∨
    path = "github.com/google/uuid" ∧ Inserts r ∨
    path = "encoding/json" ∧ ∃ a ∈ r.columns, a.type = .json := by
  rw [inserts_iff]
  constructor
  · rintro ⟨i, hi, rfl⟩
    cases hi with
    | time => exact .inl rfl
    | json ha htype => exact .inr (.inr (.inr ⟨rfl, _, ha, htype⟩))
    | context hq => exact .inr (.inl ⟨.inl rfl, List.ne_nil_of_mem hq⟩)
    | sql hq => exact .inr (.inl ⟨.inr rfl, List.ne_nil_of_mem hq⟩)
    | uuid hq hinserts => exact .inr (.inr (.inl ⟨rfl, _, hq, hinserts⟩))
  · rintro (rfl | ⟨hpath, hmethods⟩ | ⟨rfl, q, hq, hinserts⟩ | ⟨rfl, a, ha, htype⟩)
    · exact ⟨_, .time, rfl⟩
    · obtain ⟨q, hq⟩ := List.exists_mem_of_ne_nil _ hmethods
      rcases hpath with rfl | rfl
      · exact ⟨_, .context hq, rfl⟩
      · exact ⟨_, .sql hq, rfl⟩
    · exact ⟨_, .uuid hq hinserts, rfl⟩
    · exact ⟨_, .json ha htype, rfl⟩

/-- An import set loses only imports of paths that it has, and these have the same qualifier. -/
theorem covers_ofList {is : List Import} {qs : List String} (h : Covers is qs)
    (hsubset : is ⊆ unitImports) : Covers (ImportSet.ofList is).imports qs := by
  have hpath : ∀ i ∈ unitImports, ∀ j ∈ unitImports, i.path = j.path → i = j := by decide
  intro q
  rw [h q]
  constructor
  · rintro ⟨i, hi, hq⟩
    obtain ⟨j, hj, hsame⟩ := List.mem_map.1 (ImportSet.mem_paths_ofList.2 ⟨i, hi, rfl⟩)
    have heq : j = i := hpath j (hsubset (ImportSet.ofList_subset is hj)) i (hsubset hi) hsame
    exact ⟨j, hj, heq ▸ hq⟩
  · rintro ⟨i, hi, hq⟩
    exact ⟨i, ImportSet.ofList_subset is hi, hq⟩

theorem importsExact_modelUnit {d : Dialect} {r : Resolved} {u : ModelUnit}
    (h : modelUnit d r = .ok u) (package : String) : ImportsExact r (u.sourceFile package) := by
  have hpaths {path : String} :
      path ∈ (u.sourceFile package).importSet.paths ↔ ∃ i, Needs r i ∧ i.path = path := by
    rw [SourceFile.importSet, ImportSet.mem_paths_ofList]
    simp only [mem_imports_modelUnit h]
  simp only [needs_path_iff] at hpaths
  constructor
  · simp [hpaths]
  · simp [hpaths]
  · simp [hpaths]
  · simp [hpaths]
  · simp [hpaths]
  · intro path hpath
    rcases hpaths.1 hpath with rfl | ⟨rfl | rfl, -⟩ | ⟨rfl, -⟩ | ⟨rfl, -⟩ <;> simp
  · exact ImportSet.nodup_paths_ofList _
  · exact covers_ofList (covers_modelUnit h package) (imports_modelUnit h package)

/-! ## Required modules -/

/-- The module that makes primary keys. -/
def uuidModule : Go.Dependency := { name := "github.com/google/uuid", version := "v1.6.0" }

theorem Needs.dependency_iff {r : Resolved} {m : Go.Dependency} :
    (∃ i, Needs r i ∧ i.dependency = some m) ↔ m = uuidModule ∧ Inserts r := by
  rw [inserts_iff]
  constructor
  · rintro ⟨i, hi, hm⟩
    cases hi with
    | uuid hq hinserts => exact ⟨(Option.some.inj hm).symm, _, hq, hinserts⟩
    | time | json | context | sql => cases hm
  · rintro ⟨rfl, q, hq, hinserts⟩
    exact ⟨_, .uuid hq hinserts, rfl⟩

theorem mem_dependencies_packageImports {package : String} {units : List ModelUnit}
    {m : Go.Dependency} : m ∈ (packageImports package units).dependencies ↔
      ∃ u ∈ units, ∃ i ∈ (u.sourceFile package).imports, i.dependency = some m := by
  have hall (s : ImportSet) : m ∈ (units.foldl
      (fun s u => s.extend (u.sourceFile package).importSet) s).dependencies ↔
      m ∈ s.dependencies ∨
        ∃ u ∈ units, ∃ i ∈ (u.sourceFile package).imports, i.dependency = some m := by
    induction units generalizing s with
    | nil => simp
    | cons u units ih =>
        rw [List.foldl_cons, ih, SourceFile.importSet, ImportSet.mem_dependencies_extend,
          List.exists_mem_cons_iff, or_assoc]
  rw [packageImports, hall]
  simp

theorem inOrder_packageImports (package : String) (units : List ModelUnit) :
    (packageImports package units).InOrder := by
  have hall {s : ImportSet} (hs : s.InOrder) : (units.foldl
      (fun s u => s.extend (u.sourceFile package).importSet) s).InOrder := by
    induction units generalizing s with
    | nil => exact hs
    | cons u units ih => exact ih (ImportSet.inOrder_extend hs _)
  exact hall Ordered.increasing_nil

/-- A package depends on one other module, if some model inserts rows, and else on none. -/
theorem dependencies_packageImports {d : Dialect} {models : List Resolved}
    {units : List ModelUnit} (h : List.Forall₂ (fun r u => modelUnit d r = .ok u) models units)
    (package : String) : (packageImports package units).dependencies =
      if ∃ r ∈ models, Inserts r then [uuidModule] else [] := by
  have hmem (m : Go.Dependency) : m ∈ (packageImports package units).dependencies ↔
      m = uuidModule ∧ ∃ r ∈ models, Inserts r := by
    rw [mem_dependencies_packageImports]
    constructor
    · rintro ⟨u, hu, i, hi, hm⟩
      obtain ⟨r, hr, hunit⟩ := Validation.exists_of_mem_right h hu
      rw [mem_imports_modelUnit hunit] at hi
      obtain ⟨hmodule, hinserts⟩ := Needs.dependency_iff.1 ⟨i, hi, hm⟩
      exact ⟨hmodule, r, hr, hinserts⟩
    · rintro ⟨hmodule, r, hr, hinserts⟩
      obtain ⟨u, hu, hunit⟩ := Validation.exists_of_mem_right h.flip hr
      obtain ⟨i, hi, hm⟩ := Needs.dependency_iff.2 ⟨hmodule, hinserts⟩
      exact ⟨u, hu, i, (mem_imports_modelUnit hunit package).2 hi, hm⟩
  refine (inOrder_packageImports package units).eq_of_mem_iff ?_ fun m => ?_
  · split_ifs
    · exact List.pairwise_singleton _ _
    · exact .nil
  · rw [hmem]
    split_ifs with hinserts <;> simp [hinserts]

theorem goMod_eq (modulePath : String) (ms : List Go.Dependency) : goMod modulePath ms =
    "module " ++ modulePath ++ "\n\ngo 1.22\n" ++ requirements ms := by
  have hversion : "\n\ngo " ++ goVersion ++ "\n" = "\n\ngo 1.22\n" := by decide
  rw [goMod, ← hversion]
  simp only [String.append_assoc]

/-- The module file of a package. -/
theorem goMod_generate (package modulePath : String) (d : Dialect) (models : List Resolved) :
    ∃ p, generate package modulePath d models = .ok p ∧ p.file? goModFileName =
      some (goMod modulePath (if ∃ r ∈ models, Inserts r then [uuidModule] else [])) := by
  obtain ⟨units, hunits⟩ := modelUnits_ok d models
  obtain ⟨support, -, hgenerate⟩ := generate_of_units hunits package modulePath
  refine ⟨_, hgenerate, ?_⟩
  have hnone : (units.map (unitFile package)).find? (·.name == goModFileName) = none := by
    rw [List.find?_eq_none]
    intro f hf
    obtain ⟨u, -, rfl⟩ := List.mem_map.1 hf
    simpa [unitFile, ModelUnit.fileName] using goFile_ne (by decide) (Naming.snake u.goName)
  rw [GeneratedPackage.file?, List.find?_append, hnone, dependencies_packageImports hunits]
  rfl

/-- **Imports are exact.** The code of every model imports what it refers to and nothing else, and
the package requires another module only to make primary keys. -/
theorem imports_exact (package modulePath : String) (d : Dialect) :
    (∀ r : Resolved, ∃ u, modelUnit d r = .ok u ∧ ImportsExact r (u.sourceFile package)) ∧
      ∀ models : List Resolved, ∃ p, generate package modulePath d models = .ok p ∧
        p.file? goModFileName = some ("module " ++ modulePath ++ "\n\ngo 1.22\n" ++
          if ∃ r ∈ models, Inserts r then "\nrequire github.com/google/uuid v1.6.0\n" else "") := by
  constructor
  · intro r
    obtain ⟨u, hu, -⟩ := modelUnit_ok d r
    exact ⟨u, hu, importsExact_modelUnit hu package⟩
  · intro models
    obtain ⟨p, hp, hfile⟩ := goMod_generate package modulePath d models
    refine ⟨p, hp, hfile.trans ?_⟩
    rw [goMod_eq]
    split_ifs
    · rw [show requirements [uuidModule] = "\nrequire github.com/google/uuid v1.6.0\n" by decide]
    · rw [show requirements [] = "" by decide]

end DataAccess.Generation
