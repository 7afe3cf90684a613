import DataAccess.Proofs.GeneratedUnits
import DataAccess.Proofs.LiveComparisons

set_option autoImplicit false

/-! # The choice of a dialect

A dialect decides how placeholders, membership in a list, the current time and the flag of an upsert
are written, and nothing else. What is bound and what is left out follows from the method alone, so
the statements of a method in two dialects are the same but for their SQL
(`compileMethod_sameButSql`). The generated code looks at the SQL of a statement in one place only,
the constant that holds it, so the units of a model in two dialects are the same but for the texts
of their constants (`dialect_only_in_sql`). -/

namespace DataAccess.Sql

/-- Two statements that are the same but for their SQL. -/
structure Statement.SameButSql (s t : Statement) : Prop where
  name : t.name = s.name
  kind : t.kind = s.kind
  params : t.params = s.params
  warnings : t.warnings = s.warnings

/-- The statements of a method in two dialects. -/
theorem compileMethod_sameButSql (d e : Dialect) (m : Model) (q : Method) :
    (compileMethod d m q).SameButSql (compileMethod e m q) where
  name := rfl
  kind := rfl
  params := by rw [params_compileMethod_eq, params_compileMethod_eq]
  warnings := by rw [warnings_compileMethod, warnings_compileMethod]

end DataAccess.Sql

namespace DataAccess.Go

/-- Two values that are the same but for the texts they consist of. -/
def Value.SameButText (a b : Value) : Prop :=
  ∃ s t : String, a.value = .raw s ∧ b = { a with value := .raw t }

theorem Value.SameButText.name {a b : Value} (h : a.SameButText b) : b.name = a.name := by
  obtain ⟨s, t, -, rfl⟩ := h
  rfl

/-- A text needs no import. -/
theorem Value.SameButText.imports {a b : Value} (h : a.SameButText b) : b.imports = a.imports := by
  obtain ⟨s, t, ha, rfl⟩ := h
  rw [Value.imports, Value.imports, ha]
  rfl

end DataAccess.Go

namespace DataAccess.Generation

open Go (Func SourceFile Value)
open Sql (Dialect Statement compileMethod_sameButSql)
open Validation (bind_eq_ok)

/-! ## Code that does not look at the SQL -/

section Statements

variable {s t : Statement} (h : s.SameButSql t)

include h

theorem paramsStruct_sameButSql : paramsStruct t = paramsStruct s := by
  simp only [paramsStruct, h.name, h.params]

theorem requestOf_sameButSql : requestOf t = requestOf s := by
  simp only [requestOf, h.name, h.params]

theorem accessFunction_sameButSql (row : String) (columns : List String) :
    accessFunction t row columns = accessFunction s row columns := by
  simp only [accessFunction, prologue, h.name, h.kind]

theorem statementEntry_sameButSql : statementEntry t = statementEntry s := by
  simp only [statementEntry, h.name]

/-- The constant of a statement is where its SQL stands. -/
theorem queryConst_sameButSql : (queryConst s).SameButText (queryConst t) := by
  refine ⟨s.sql, t.sql, rfl, ?_⟩
  simp only [queryConst, h.name]

end Statements

/-! ## Units -/

/-- Two units of a method that are the same but for the SQL of the statement. -/
structure MethodUnit.SameButSql (u v : MethodUnit) : Prop where
  statement : u.statement.SameButSql v.statement
  params : v.params = u.params
  request : v.request = u.request
  access : v.access = u.access

/-- The units of a method in two dialects. -/
theorem methodUnit_sameButSql {d e : Dialect} {r : Resolved} {q : Method} {u v : MethodUnit}
    (hu : methodUnit d r q = .ok u) (hv : methodUnit e r q = .ok v) : u.SameButSql v := by
  have hs := compileMethod_sameButSql d e r.model q
  -- Apart from its statement a unit holds two structs and the access function, which are made from
  -- the statement.
  rw [methodUnit, requestStruct_eq] at hu hv
  obtain ⟨request, ⟨⟩, hu⟩ := bind_eq_ok.1 hu
  obtain ⟨f, hf, ⟨⟩⟩ := bind_eq_ok.1 hu
  obtain ⟨request', ⟨⟩, hv⟩ := bind_eq_ok.1 hv
  obtain ⟨g, hg, ⟨⟩⟩ := bind_eq_ok.1 hv
  rw [accessFunction_sameButSql hs, hf] at hg
  exact ⟨hs, paramsStruct_sameButSql hs, requestOf_sameButSql hs, (Except.ok.inj hg).symm⟩

theorem methodUnits_sameButSql {d e : Dialect} {r : Resolved} {qs : List Method}
    {us vs : List MethodUnit} (hus : List.Forall₂ (fun q u => methodUnit d r q = .ok u) qs us)
    (hvs : List.Forall₂ (fun q v => methodUnit e r q = .ok v) qs vs) :
    List.Forall₂ MethodUnit.SameButSql us vs := by
  induction hus generalizing vs with
  | nil =>
      cases hvs
      exact .nil
  | cons hu _ ih =>
      cases hvs with
      | cons hv hvs => exact .cons (methodUnit_sameButSql hu hv) (ih hvs)

/-! ## Models -/

/-- Two units of a model that are the same but for the SQL of their statements. -/
structure ModelUnit.SameButSql (u v : ModelUnit) : Prop where
  goName : v.goName = u.goName
  structs : v.structs = u.structs
  funcs : v.funcs = u.funcs
  vars : v.vars = u.vars
  constNames : v.consts.map Value.name = u.consts.map Value.name
  /-- Nothing of a constant differs but its text. -/
  consts : List.Forall₂ Value.SameButText u.consts v.consts
  /-- These texts are the SQL of the statements, in both units. -/
  texts : ∀ w ∈ [u, v], w.consts.map Value.value = w.statements.map fun s => .raw s.sql
  statements : List.Forall₂ Statement.SameButSql u.statements v.statements
  imports : ∀ package, (v.sourceFile package).imports = (u.sourceFile package).imports

/-- What related elements agree on, related lists agree on. -/
theorem map_eq_of_forall₂ {α β : Type} {R : α → α → Prop} {f : α → β} {as bs : List α}
    (h : List.Forall₂ R as bs) (hf : ∀ {a b}, R a b → f b = f a) : bs.map f = as.map f := by
  induction h with
  | nil => rfl
  | cons hab _ ih => rw [List.map_cons, List.map_cons, hf hab, ih]

theorem isEmpty_eq_of_forall₂ {α : Type} {R : α → α → Prop} {as bs : List α}
    (h : List.Forall₂ R as bs) : bs.isEmpty = as.isEmpty := by
  cases h <;> rfl

/-- The constants of a unit hold the SQL of its statements. -/
theorem texts_unitOf (r : Resolved) (us : List MethodUnit) (prepare : List Func) :
    (unitOf r us prepare).consts.map Value.value =
      (unitOf r us prepare).statements.map fun s => .raw s.sql := List.map_map

section Units

variable {us vs : List MethodUnit} (h : List.Forall₂ MethodUnit.SameButSql us vs)

include h

theorem prepareFunctions_sameButSql (goName : String) :
    prepareFunctions goName vs = prepareFunctions goName us := by
  rw [prepareFunctions, prepareFunctions, isEmpty_eq_of_forall₂ h]

theorem structs_sameButSql :
    (vs.flatMap fun u => [u.params, u.request]) = us.flatMap fun u => [u.params, u.request] := by
  rw [List.flatMap_def, List.flatMap_def,
    map_eq_of_forall₂ h fun hu => by rw [hu.params, hu.request]]

theorem statements_sameButSql : List.Forall₂ Statement.SameButSql
    (us.map MethodUnit.statement) (vs.map MethodUnit.statement) := by
  rw [List.forall₂_map_left_iff, List.forall₂_map_right_iff]
  exact h.imp fun _ _ hu => hu.statement

theorem vars_sameButSql (r : Resolved) (prepare : List Func) :
    (unitOf r vs prepare).vars = (unitOf r us prepare).vars := by
  have hstatements := statements_sameButSql h
  have hentries := map_eq_of_forall₂ hstatements statementEntry_sameButSql
  simp only [unitOf, statementsVar, isEmpty_eq_of_forall₂ hstatements, hentries]

theorem consts_sameButSql : List.Forall₂ Value.SameButText
    ((us.map MethodUnit.statement).map queryConst)
    ((vs.map MethodUnit.statement).map queryConst) := by
  rw [List.forall₂_map_left_iff, List.forall₂_map_right_iff]
  exact (statements_sameButSql h).imp fun _ _ hs => queryConst_sameButSql hs

theorem unitOf_sameButSql (r : Resolved) (prepare : List Func) :
    (unitOf r us prepare).SameButSql (unitOf r vs prepare) := by
  have hstructs : (unitOf r vs prepare).structs = (unitOf r us prepare).structs :=
    congrArg (rowStruct r :: ·) (structs_sameButSql h)
  have hfuncs : (unitOf r vs prepare).funcs = (unitOf r us prepare).funcs :=
    congrArg (· ++ prepare) (map_eq_of_forall₂ h MethodUnit.SameButSql.access)
  have hvars := vars_sameButSql h r prepare
  have hconsts := consts_sameButSql h
  have himports : (unitOf r vs prepare).consts.flatMap Value.imports =
      (unitOf r us prepare).consts.flatMap Value.imports := by
    rw [List.flatMap_def, List.flatMap_def]
    exact congrArg List.flatten (map_eq_of_forall₂ hconsts Value.SameButText.imports)
  refine ⟨rfl, hstructs, hfuncs, hvars, map_eq_of_forall₂ hconsts Value.SameButText.name, hconsts,
    ?_, statements_sameButSql h, fun package => ?_⟩
  · simp [texts_unitOf]
  · simp only [SourceFile.imports, ModelUnit.sourceFile, hstructs, hfuncs, hvars, himports]

end Units

/-- **The dialect changes the SQL and nothing else.** In any two dialects a method compiles to
statements with the same name, kind, bind values and warnings. The units of a model can be generated
in both dialects and have the same structs, functions, variables and imports; they have the same
constants but for the texts that these hold, the SQL of the statements. -/
theorem dialect_only_in_sql (d e : Dialect) (r : Resolved) :
    (∀ q, (Sql.compileMethod d r.model q).SameButSql (Sql.compileMethod e r.model q)) ∧
      ∃ u v, modelUnit d r = .ok u ∧ modelUnit e r = .ok v ∧ u.SameButSql v := by
  refine ⟨compileMethod_sameButSql d e r.model, ?_⟩
  obtain ⟨u, hu, -⟩ := modelUnit_ok d r
  obtain ⟨v, hv, -⟩ := modelUnit_ok e r
  refine ⟨u, v, hu, hv, ?_⟩
  obtain ⟨us, fs, hus, hfs, rfl⟩ := modelUnit_eq hu
  obtain ⟨vs, gs, hvs, hgs, rfl⟩ := modelUnit_eq hv
  have hunits := methodUnits_sameButSql hus hvs
  -- Statements are prepared in both units or in neither, by the same function.
  have hprepare : gs = fs := by
    rw [prepareFunctions_sameButSql hunits, hfs] at hgs
    exact (Except.ok.inj hgs).symm
  rw [hprepare]
  exact unitOf_sameButSql hunits r fs

end DataAccess.Generation
