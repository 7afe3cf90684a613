import DataAccess.Proofs.SqlColumns
import DataAccess.Proofs.WellFormed

set_option autoImplicit false

/-! # The names of tables

No check looks at the names of tables. But the Go name of a model is made from its words in
`snake_case`, and these are the name of its table: models with one table would have one Go name
(`Go.exported_eq_of_snake_eq`). The Go names of accepted models differ because each of them is
declared (`goNames_sublist`), so their tables differ, also without their schemas
(`tables_apart`). -/

namespace DataAccess

/-- The exported spelling of a name is made from its `snake_case` form alone. -/
theorem Go.exported_eq_of_snake_eq {a b : String} (h : Naming.snake a = Naming.snake b) :
    exported a = exported b := by
  have hwords : exportedWords a = exportedWords b := by rw [exportedWords, h, exportedWords]
  rw [exported, hwords, exported]

namespace Sql

theorem tableLexemes_inj {a b : TableRef} (h : tableLexemes a = tableLexemes b) : a = b := by
  obtain ⟨schema, table⟩ := a
  obtain ⟨schema', table'⟩ := b
  cases schema <;> cases schema' <;> simp_all [tableLexemes]

/-- Different tables are written differently. -/
theorem qualified_inj {schema schema' : Option String} {table table' : String}
    (h : qualified schema table = qualified schema' table') :
    schema = schema' ∧ table = table' := by
  have hlexemes : tableLexemes (schema, table) = tableLexemes (schema', table') := by
    rw [← (lexemes_qualified schema table).1, h, (lexemes_qualified schema' table').1]
  exact Prod.mk.inj (tableLexemes_inj hlexemes)

end Sql

namespace Validation

open Generation (Declared declaredNames)

/-- The Go names of the models are among the declared names. -/
theorem goNames_sublist (models : List Model) :
    (models.map fun m => Go.exported m.name).Sublist (allDeclared models) := by
  induction models with
  | nil => exact .slnil
  | cons m models ih =>
      have hmodel : [Go.exported m.name].Sublist ((declaredNames m).map Declared.name) := by
        rw [Generation.map_name_declaredNames, Generation.predictedNames, List.cons_append]
        exact (List.nil_sublist _).cons_cons _
      exact hmodel.append ih

/-- Models with different Go names have different tables. -/
theorem nodup_tableNames {models : List Model}
    (h : (models.map fun m => Go.exported m.name).Nodup) :
    (models.map Model.tableName).Nodup := by
  rw [List.Nodup, List.pairwise_map] at h ⊢
  exact h.imp fun hne htable => hne (Go.exported_eq_of_snake_eq htable)

end Validation

namespace Generation

open Validation

/-- Resolution keeps the name of the table. -/
theorem tableNames_resolved {r : Registry} {models : List Model} {resolved : List Resolved}
    (h : List.Forall₂ (fun m m' => resolveModel r m = .ok m') models resolved) :
    (resolved.map fun m => (tableOf m).name) = models.map Model.tableName := by
  induction h with
  | nil => rfl
  | @cons m m' models resolved hm _ ih =>
      have hname : m'.model.tableName = m.tableName :=
        congrArg Naming.snake (resolveModel_ok hm).1
      rw [List.map_cons, List.map_cons, ih]
      exact congrArg (· :: _) hname

/-- **Different models have different tables.** In an accepted run no two models have one table
name, whatever their schemas. Resolution keeps the names, so the tables that the schema creates have
different names, and statements refer to them by different texts. -/
theorem tables_apart {models : List Model} {r : Registry} {resolved : List Resolved}
    (h : validate models r = .ok resolved) :
    (models.map Model.tableName).Nodup ∧
      (resolved.map fun m => (tableOf m).name) = models.map Model.tableName ∧
      (resolved.map fun m => (tableOf m).reference).Nodup := by
  obtain ⟨-, -, hpackage, hresolved⟩ := validate_iff.1 h
  have hdeclared := (checkPackage_iff.1 hpackage).1
  have hmodels := nodup_tableNames (hdeclared.sublist (goNames_sublist models))
  have hnames := tableNames_resolved hresolved
  refine ⟨hmodels, hnames, ?_⟩
  rw [← hnames] at hmodels
  rw [List.Nodup, List.pairwise_map] at hmodels ⊢
  exact hmodels.imp fun hne href => hne (Sql.qualified_inj href).2

/-- Two models whose names differ in an underscore only, each in a schema of its own. -/
def twoSchemaModels : List Model :=
  [{ name := "a_b", schema := some "x" }, { name := "ab", schema := some "y" }]

theorem twoSchemaModels_apart :
    ∃ resolved, validate twoSchemaModels {} = .ok resolved ∧
      (twoSchemaModels.map Model.tableName).Nodup ∧
      (resolved.map fun m => (tableOf m).name) = twoSchemaModels.map Model.tableName ∧
      (resolved.map fun m => (tableOf m).reference).Nodup := by
  obtain ⟨resolved, h⟩ : ∃ resolved, validate twoSchemaModels {} = .ok resolved := by
    apply exists_ok_of_isOk
    decide +kernel
  exact ⟨resolved, h, tables_apart h⟩

end Generation

end DataAccess
