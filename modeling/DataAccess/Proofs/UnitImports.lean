import DataAccess.Proofs.BindValues
import DataAccess.Proofs.GeneratedUnits
import DataAccess.Proofs.ImportSets

set_option autoImplicit false

/-! # The imports of a unit

The code of a model takes types and functions from five packages at most. `Needs` tells from the
model which of them, and these are the imports of its unit (`mem_imports_modelUnit`). For that all
its declarations are gone through; most of their nodes need no other package. -/

namespace DataAccess.Go

theorem Node.allImports_append (ns ms : List Node) :
    Node.allImports (ns ++ ms) = Node.allImports ns ++ Node.allImports ms := by
  simp only [Node.allImports_eq_flatMap, List.flatMap_append]

/-- Nodes without imports. -/
theorem Node.allImports_map {α : Type} {node : α → Node} (h : ∀ a, (node a).imports = [])
    (as : List α) : Node.allImports (as.map node) = [] := by
  rw [Node.allImports_eq_flatMap, List.flatMap_eq_nil_iff]
  intro n hn
  obtain ⟨a, -, rfl⟩ := List.mem_map.1 hn
  exact h a

end DataAccess.Go

namespace DataAccess.Generation

open Go (Element Func Import Node SourceFile Struct Value)
open Sql (Dialect Parameter Statement)

/-! ## Structs -/

theorem mem_imports_columnType {a : Attribute} {i : Import} : i ∈ (columnType a).imports ↔
    a.type = .timestamp ∧ i = { path := "time" } ∨
      a.type = .json ∧ i = { path := "encoding/json" } := by
  unfold columnType
  cases a.type <;> simp [scalarType, timeType, jsonType, Go.TypeRef.builtin, Go.TypeRef.external,
    Go.TypeRef.handle, Go.TypeRef.imports]

/-- Every row has a time, and it may have documents. -/
theorem mem_imports_rowStruct {r : Resolved} {i : Import} : i ∈ (rowStruct r).imports ↔
    i = { path := "time" } ∨
      i = { path := "encoding/json" } ∧ ∃ a ∈ r.columns, a.type = .json := by
  have hfixed : fixedFields.flatMap (·.type.imports) = [{ path := "time" }] := rfl
  have himports : (rowStruct r).imports =
      { path := "time" } :: r.columns.flatMap fun a => (columnType a).imports := by
    simp [Struct.imports, rowStruct, hfixed, List.flatMap_map, columnField]
  rw [himports, List.mem_cons, List.mem_flatMap]
  constructor
  · rintro (hi | ⟨a, ha, hi⟩)
    · exact .inl hi
    · rcases mem_imports_columnType.1 hi with ⟨-, hi⟩ | ⟨htype, hi⟩
      · exact .inl hi
      · exact .inr ⟨hi, a, ha, htype⟩
  · rintro (hi | ⟨hi, a, ha, htype⟩)
    · exact .inl hi
    · exact .inr ⟨a, ha, mem_imports_columnType.2 (.inr ⟨htype, hi⟩)⟩

theorem imports_paramsStruct (s : Statement) : (paramsStruct s).imports = [] := by
  simp [Struct.imports, paramsStruct, Go.TypeRef.any, Go.TypeRef.builtin, Go.TypeRef.imports]

/-- The import that a bind value needs. -/
def bindImports : Parameter → List Import
  | .named _ _ => []
  | .generated function _ => (generatorImport function).toList

theorem imports_bindCode (position : Nat) (p : Parameter) :
    Node.allImports (bindCode position p) = bindImports p := by
  cases p with
  | named name element => cases element <;> rfl
  | generated function args =>
      have hcode : Node.allImports (bindCode position (.generated function args)) =
          (generatorImport function).toList ++ Node.allImports (args.map Node.ident) := by
        simp [bindCode, appendNode, Go.Call.function, Node.call, Node.ident, Node.ofShape,
          Node.allImports, Node.imports, Go.Shape.imports, Go.Call.imports, Go.Callee.imports]
      rw [hcode, Node.allImports_map fun _ => rfl, List.append_nil, bindImports]

theorem imports_allBindCode (position : Nat) (ps : List Parameter) :
    Node.allImports (allBindCode position ps) = ps.flatMap bindImports := by
  induction ps generalizing position with
  | nil => rfl
  | cons p ps ih =>
      rw [allBindCode, Node.allImports_append, imports_bindCode, ih, List.flatMap_cons]

theorem imports_requestOf (s : Statement) :
    (requestOf s).imports = s.params.flatMap bindImports := by
  have hcode : Node.allImports (argsCode s.params) = Node.allImports (allBindCode 1 s.params) := by
    rw [argsCode, Node.allImports_append]
    exact List.append_nil _
  rw [← imports_allBindCode 1, ← hcode]
  simp [Struct.imports, requestOf, Func.imports, Go.TypeRef.builtin, Go.TypeRef.error,
    Go.TypeRef.imports]

/-- The request of a method that inserts needs the package that makes primary keys. -/
theorem mem_imports_request {d : Dialect} {m : Model} {q : Method} {i : Import} :
    i ∈ (requestOf (Sql.compileMethod d m q)).imports ↔
      q.kind.inserts = true ∧ i = uuidImport := by
  have hnewId : bindImports .newId = [uuidImport] := by decide
  rw [imports_requestOf, List.mem_flatMap]
  constructor
  · rintro ⟨p, hp, hi⟩
    rcases Sql.mem_params_compileMethod hp with rfl | ⟨name, -, hname⟩
    · rw [hnewId, List.mem_singleton] at hi
      exact ⟨Sql.newId_mem_params_iff.1 hp, hi⟩
    · cases p with
      | named name' element => cases hi
      | generated function args => cases hname
  · rintro ⟨hinserts, rfl⟩
    exact ⟨.newId, Sql.newId_mem_params_iff.2 hinserts, by simp [hnewId]⟩

/-! ## Functions -/

theorem imports_accessFunction {s : Statement} {row : String} {columns : List String} {f : Func}
    (h : accessFunction s row columns = .ok f) :
    f.imports = [{ path := "context" }, { path := "database/sql" }] := by
  obtain ⟨name, kind, sql, params, warnings⟩ := s
  cases kind with
  | find =>
      -- A column adds a target to the list that is read into, and that has no import.
      induction columns generalizing f with
      | nil => cases h; rfl
      | cons c columns ih =>
          cases h
          have hfewer := ih rfl
          exact hfewer
  | update => cases h; rfl
  | delete => cases h; rfl
  | add => cases h; rfl
  | addOrReplace => cases h; rfl

theorem imports_prepareFunction {goName : String} {f : Func} (h : prepareFunction goName = .ok f) :
    f.imports =
      [{ path := "context" }, { path := "database/sql" }, { path := "database/sql" }] := by
  cases h
  rfl

/-! ## Values -/

theorem imports_statementsVar (goName : String) (statements : List Statement) :
    (statementsVar goName statements).imports = [] := by
  have hentries : Element.allImports (statements.map statementEntry) = [] := by
    rw [Element.allImports_eq_flatMap, List.flatMap_eq_nil_iff]
    intro e he
    obtain ⟨s, -, rfl⟩ := List.mem_map.1 he
    rfl
  simp [Value.imports, statementsVar, Node.compositeBlock, Node.ofShape, Node.imports,
    Go.Shape.imports, hentries, Go.TypeRef.builtin, Go.TypeRef.imports]

/-! ## Units -/

theorem imports_methodUnit {d : Dialect} {r : Resolved} {q : Method} {u : MethodUnit}
    (h : methodUnit d r q = .ok u) :
    u.params.imports = [] ∧
      (∀ i, i ∈ u.request.imports ↔ q.kind.inserts = true ∧ i = uuidImport) ∧
      u.access.imports = [{ path := "context" }, { path := "database/sql" }] := by
  rw [methodUnit, requestStruct_eq] at h
  obtain ⟨request, ⟨⟩, h⟩ := Validation.bind_eq_ok.1 h
  obtain ⟨f, hf, ⟨⟩⟩ := Validation.bind_eq_ok.1 h
  exact ⟨imports_paramsStruct _, fun _ => mem_imports_request, imports_accessFunction hf⟩

/-- There is a function that prepares statements only if there are methods. -/
theorem imports_prepareFunctions {goName : String} {us : List MethodUnit} {fs : List Func}
    (h : prepareFunctions goName us = .ok fs) : ∀ f ∈ fs, us ≠ [] ∧
      f.imports =
        [{ path := "context" }, { path := "database/sql" }, { path := "database/sql" }] := by
  intro f hf
  rw [prepareFunctions] at h
  split_ifs at h with hus
  · cases h
    cases hf
  · obtain ⟨g, hg, ⟨⟩⟩ := Validation.bind_eq_ok.1 h
    rw [List.mem_singleton.1 hf]
    exact ⟨by simpa using hus, imports_prepareFunction hg⟩

/-- What the code of a model takes types and functions from. -/
inductive Needs (r : Resolved) : Import → Prop
  /-- Every row tells when it was changed. -/
  | time : Needs r { path := "time" }
  | json {a : Attribute} (ha : a ∈ r.columns) (htype : a.type = .json) :
      Needs r { path := "encoding/json" }
  | context {q : Method} (hq : q ∈ r.model.access.methods) : Needs r { path := "context" }
  | sql {q : Method} (hq : q ∈ r.model.access.methods) : Needs r { path := "database/sql" }
  /-- A new row gets a new primary key. -/
  | uuid {q : Method} (hq : q ∈ r.model.access.methods) (hinserts : q.kind.inserts = true) :
      Needs r uuidImport

theorem needs_of_mem_context {r : Resolved} {q : Method} (hq : q ∈ r.model.access.methods)
    {i : Import} (h : i ∈ [{ path := "context" }, { path := "database/sql" },
      ({ path := "database/sql" } : Import)]) : Needs r i := by
  simp only [List.mem_cons, List.not_mem_nil, or_false] at h
  rcases h with rfl | rfl | rfl
  · exact .context hq
  · exact .sql hq
  · exact .sql hq

/-- The imports of the code of a model. -/
theorem mem_imports_modelUnit {d : Dialect} {r : Resolved} {u : ModelUnit}
    (h : modelUnit d r = .ok u) (package : String) {i : Import} :
    i ∈ (u.sourceFile package).imports ↔ Needs r i := by
  obtain ⟨us, fs, hus, hfs, rfl⟩ := modelUnit_eq h
  have hvars : (unitOf r us fs).vars.flatMap Value.imports = [] := by
    simp only [unitOf]
    split_ifs
    · rfl
    · simp [imports_statementsVar]
  have hconsts : (unitOf r us fs).consts.flatMap Value.imports = [] := by
    rw [List.flatMap_eq_nil_iff]
    intro v hv
    obtain ⟨s, -, rfl⟩ := List.mem_map.1 hv
    rfl
  have hfile : i ∈ ((unitOf r us fs).sourceFile package).imports ↔
      i ∈ (rowStruct r).imports ∨
      (∃ v ∈ us, i ∈ v.params.imports ∨ i ∈ v.request.imports ∨ i ∈ v.access.imports) ∨
      ∃ f ∈ fs, i ∈ f.imports := by
    simp only [ModelUnit.sourceFile, SourceFile.imports, hvars, hconsts, Node.allImports,
      List.nil_append, List.append_nil]
    simp only [unitOf, List.flatMap_cons, List.flatMap_append, List.flatMap_map, List.mem_append,
      List.mem_flatMap, List.mem_cons, List.not_mem_nil, or_false]
    constructor
    · rintro ((hi | ⟨s, ⟨v, hv, rfl | rfl⟩, hi⟩) | ⟨v, hv, hi⟩ | hi)
      · exact .inl hi
      · exact .inr (.inl ⟨v, hv, .inl hi⟩)
      · exact .inr (.inl ⟨v, hv, .inr (.inl hi)⟩)
      · exact .inr (.inl ⟨v, hv, .inr (.inr hi)⟩)
      · exact .inr (.inr hi)
    · rintro (hi | ⟨v, hv, hi | hi | hi⟩ | hi)
      · exact .inl (.inl hi)
      · exact .inl (.inr ⟨_, ⟨v, hv, .inl rfl⟩, hi⟩)
      · exact .inl (.inr ⟨_, ⟨v, hv, .inr rfl⟩, hi⟩)
      · exact .inr (.inl ⟨v, hv, hi⟩)
      · exact .inr (.inr hi)
  rw [hfile, mem_imports_rowStruct]
  constructor
  · rintro ((rfl | ⟨rfl, a, ha, htype⟩) | ⟨v, hv, hi⟩ | ⟨f, hf, hi⟩)
    · exact .time
    · exact .json ha htype
    · obtain ⟨q, hq, hunit⟩ := Validation.exists_of_mem_right hus hv
      obtain ⟨hparams, hrequest, haccess⟩ := imports_methodUnit hunit
      rw [hparams, hrequest, haccess] at hi
      rcases hi with hi | ⟨hinserts, rfl⟩ | hi
      · cases hi
      · exact .uuid hq hinserts
      · exact needs_of_mem_context hq (by simp_all)
    · obtain ⟨hne, himports⟩ := imports_prepareFunctions hfs f hf
      obtain ⟨v, hv⟩ := List.exists_mem_of_ne_nil us hne
      obtain ⟨q, hq, -⟩ := Validation.exists_of_mem_right hus hv
      exact needs_of_mem_context hq (himports ▸ hi)
  · have hmethod : ∀ {q : Method}, q ∈ r.model.access.methods → ∃ v ∈ us,
        (q.kind.inserts = true → uuidImport ∈ v.request.imports) ∧
        v.access.imports = [{ path := "context" }, { path := "database/sql" }] := by
      intro q hq
      obtain ⟨v, hv, hunit⟩ := Validation.exists_of_mem_right hus.flip hq
      obtain ⟨-, hrequest, haccess⟩ := imports_methodUnit hunit
      exact ⟨v, hv, fun hinserts => (hrequest _).2 ⟨hinserts, rfl⟩, haccess⟩
    intro hneeds
    cases hneeds with
    | time => exact .inl (.inl rfl)
    | json ha htype => exact .inl (.inr ⟨rfl, _, ha, htype⟩)
    | context hq =>
        obtain ⟨v, hv, -, haccess⟩ := hmethod hq
        exact .inr (.inl ⟨v, hv, .inr (.inr (by simp [haccess]))⟩)
    | sql hq =>
        obtain ⟨v, hv, -, haccess⟩ := hmethod hq
        exact .inr (.inl ⟨v, hv, .inr (.inr (by simp [haccess]))⟩)
    | uuid hq hinserts =>
        obtain ⟨v, hv, hrequest, -⟩ := hmethod hq
        exact .inr (.inl ⟨v, hv, .inr (.inl (hrequest hinserts))⟩)

/-- The packages that the code of models takes types and functions from. -/
def unitImports : List Import :=
  [{ path := "time" }, { path := "context" }, { path := "database/sql" },
   { path := "encoding/json" }, uuidImport]

/-- The code of a model has no other imports than these. -/
theorem imports_modelUnit {d : Dialect} {r : Resolved} {u : ModelUnit} (h : modelUnit d r = .ok u)
    (package : String) : (u.sourceFile package).imports ⊆ unitImports := by
  intro i hi
  rw [mem_imports_modelUnit h] at hi
  cases hi <;> simp [unitImports]

end DataAccess.Generation
