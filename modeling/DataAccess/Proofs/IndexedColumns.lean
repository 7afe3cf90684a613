import DataAccess.Proofs.SchemaStatements
import DataAccess.Proofs.Substitution

set_option autoImplicit false

/-! # Indexed columns

A schema indexes the columns of declared indexes, those that filters compare, and those by which
upserts find their rows (`Model.Indexes`). All of them are resolved through the registry, which
knows the attributes of every model. The main result is that the schema of a model indexes only
columns of its own table exactly if the model lists the attributes (`indexed_columns_exist_iff`).
Validation does not see to that. -/

namespace DataAccess

/-! ## Renaming and comparisons -/

namespace Filter

def renameComparison (g : String → String) (c : Comparison) : Comparison :=
  { c with attr := g c.attr }

mutual

theorem comparisons_rename (g : String → String) : ∀ f : Filter,
    comparisons (rename g f) = (comparisons f).map (renameComparison g)
  | .compare c => rfl
  | .group op fs => by
      rw [rename, comparisons, comparisons, allComparisons_renameAll g fs]

theorem allComparisons_renameAll (g : String → String) : ∀ fs : List Filter,
    allComparisons (renameAll g fs) = (allComparisons fs).map (renameComparison g)
  | [] => rfl
  | f :: fs => by
      rw [renameAll, allComparisons, allComparisons, comparisons_rename g f,
        allComparisons_renameAll g fs, List.map_append]

end

end Filter

theorem Method.filters_rename (g : String → String) (q : Method) :
    (q.rename g).filters = Filter.renameAll g q.filters := by
  cases q <;> rfl

/-! ## What a model indexes -/

/-- A model indexes an attribute: it declares an index with it, compares it at some depth of a
filter, or finds the row of an upsert by it. -/
def Model.Indexes (m : Model) (id : String) : Prop :=
  (∃ index ∈ m.indexes, id ∈ index) ∨
    (∃ q ∈ m.access.methods, ∃ f ∈ q.filters, ∃ c, Filter.Occurs (.compare c) f ∧ c.attr = id) ∨
    ∃ u ∈ m.access.addOrReplace, id ∈ u.conflictTarget

/-- All that a model indexes, by where it does. -/
theorem Model.forall_indexes {m : Model} {P : String → Prop} : (∀ id, m.Indexes id → P id) ↔
    (∀ index ∈ m.indexes, ∀ id ∈ index, P id) ∧
      (∀ q ∈ m.access.methods, ∀ c ∈ Filter.allComparisons q.filters, P c.attr) ∧
      ∀ u ∈ m.access.addOrReplace, ∀ id ∈ u.conflictTarget, P id := by
  constructor
  · intro h
    refine ⟨fun index hindex id hid => h id (.inl ⟨index, hindex, hid⟩), ?_,
      fun u hu id hid => h id (.inr (.inr ⟨u, hu, hid⟩))⟩
    intro q hq c hc
    obtain ⟨f, hf, hoccurs⟩ := Filter.mem_allComparisons_iff.1 hc
    exact h c.attr (.inr (.inl ⟨q, hq, f, hf, c, hoccurs, rfl⟩))
  · rintro ⟨hdeclared, hcompared, hfound⟩ id
      (⟨index, hindex, hid⟩ | ⟨q, hq, f, hf, c, hoccurs, rfl⟩ | ⟨u, hu, hid⟩)
    · exact hdeclared index hindex id hid
    · exact hcompared q hq c (Filter.mem_allComparisons_iff.2 ⟨f, hf, hoccurs⟩)
    · exact hfound u hu id hid

namespace Generation

open Sql (Dialect fixedColumns layout? scriptIndexes statements)
open Validation (columnOf entries resolved_eq_map validate)

/-- The columns that filters of a method compare have indexes, but for the primary key. -/
theorem forall_filterIndexes {q : Method} {P : String → Prop} (hid : P Sql.idColumn) :
    (∀ i ∈ filterIndexes q, ∀ c ∈ i.columns, P c) ↔
      ∀ c ∈ Filter.allComparisons q.filters, P c.attr := by
  have hcolumn : ∀ column, column ∈ filteredColumns q.filters ↔
      ∃ c ∈ Filter.allComparisons q.filters, c.attr = column := by
    intro column
    rw [filteredColumns, List.mem_eraseDups, List.mem_map]
  constructor
  · intro h c hc
    by_cases hkey : c.attr = Sql.idColumn
    · rwa [hkey]
    · have hmem : ⟨[c.attr], false⟩ ∈ filterIndexes q :=
        List.mem_map.2 ⟨c.attr, List.mem_filter.2 ⟨(hcolumn _).2 ⟨c, hc, rfl⟩, by simpa⟩, rfl⟩
      exact h _ hmem c.attr List.mem_cons_self
  · intro h i hi column hmem
    obtain ⟨column', hfiltered, rfl⟩ := List.mem_map.1 hi
    obtain ⟨c, hc, rfl⟩ := (hcolumn _).1 (List.mem_filter.1 hfiltered).1
    rw [List.mem_singleton.1 hmem]
    exact h c hc

/-- All columns that the indexes of a model have. -/
theorem forall_modelIndexes {m : Model} {P : String → Prop} (hid : P Sql.idColumn) :
    (∀ i ∈ modelIndexes m, ∀ c ∈ i.columns, P c) ↔ ∀ c, m.Indexes c → P c := by
  rw [Model.forall_indexes, modelIndexes, List.forall_mem_append, List.forall_mem_append,
    List.forall_mem_map, List.forall_mem_map, and_assoc]
  refine and_congr_right fun _ => and_congr_left fun _ => ?_
  rw [List.forall_mem_flatMap]
  exact forall₂_congr fun q _ => forall_filterIndexes hid

/-- A renamed model indexes what the model does, renamed. -/
theorem forall_indexes_rename {m : Model} {g : String → String} {P : String → Prop} :
    (∀ c, (m.rename g).Indexes c → P c) ↔ ∀ id, m.Indexes id → P (g id) := by
  rw [Model.forall_indexes, Model.forall_indexes]
  show (∀ index ∈ m.indexes.map (List.map g), _) ∧ (∀ q ∈ (m.access.rename g).methods, _) ∧
    (∀ u ∈ m.access.addOrReplace.map (Upsert.rename g), _) ↔ _
  simp only [Access.methods_rename, List.forall_mem_map, Method.filters_rename,
    Filter.allComparisons_renameAll, Filter.renameComparison, Upsert.conflictTarget_rename]

/-! ## The schema of a model -/

/-- Every index statement of a script is on columns of the table that the script creates. -/
def IndexesOwnColumns (script : String) : Prop :=
  ∀ i ∈ scriptIndexes script, ∃ table ∈ (statements script).filterMap layout?,
    table.table = i.table ∧ ∀ c ∈ i.columns, c ∈ table.columns

theorem indexesOwnColumns_iff (d : Dialect) (m : Resolved) :
    IndexesOwnColumns ((tableOf m).schemaText d) ↔ ∀ i ∈ modelIndexes m.model, ∀ c ∈ i.columns,
      c ∈ fixedColumns ++ m.columns.map Attribute.name := by
  have hlayout : (statements ((tableOf m).schemaText d)).filterMap layout? =
      [⟨(m.model.schema, m.model.tableName), fixedColumns ++ m.columns.map Attribute.name⟩] := by
    rw [Sql.Table.statements_schema, Sql.Table.filterMap_layout?_allBodies]
    simp [tableOf, tableColumn, Function.comp_def]
  unfold IndexesOwnColumns
  rw [hlayout, scriptIndexes, Sql.Table.statements_schema]
  simp only [List.mem_singleton, exists_eq_left, Sql.Table.mem_filterMap_index?_allBodies]
  constructor
  · intro h i hi c hc
    exact (h _ ⟨i, hi, List.ne_nil_of_mem hc, rfl⟩).2 c hc
  · rintro h _ ⟨i, hi, -, rfl⟩
    exact ⟨rfl, h i hi⟩

/-- **When the schema indexes only existing columns.** The schema of a model of an accepted run
indexes only columns of the table that it creates exactly if every attribute that the model indexes
stands for a fixed column or for a column of an attribute that the model lists. -/
theorem indexed_columns_exist_iff {models : List Model} {r : Registry} {resolved : List Resolved}
    (h : validate models r = .ok resolved) (d : Dialect) :
    List.Forall₂ (fun m m' => IndexesOwnColumns ((tableOf m').schemaText d) ↔
      ∀ id, m.Indexes id → columnOf r id ∈ fixedColumns ++ m.attributes.map (columnOf r))
      models resolved := by
  obtain ⟨-, -, hresolved⟩ := Validation.validate_ok h
  refine hresolved.imp fun m m' hresolve => ?_
  obtain ⟨hresolvable, rfl⟩ := (Validation.resolveModel_computes m m').1 hresolve
  have hcolumns : (entries r m).map Attribute.name = m.attributes.map (columnOf r) :=
    Validation.map_name_filterMap hresolvable.registered
  rw [indexesOwnColumns_iff, forall_modelIndexes (by simp [fixedColumns]), forall_indexes_rename,
    hcolumns]

def foreignRegistry : Registry := .ofList [{ id := "x", name := "x", type := .text }]

/-- A model that indexes the attribute it lists in every way, and the primary key. -/
def listingModel : Model :=
  { name := "a"
    attributes := ["x"]
    indexes := [["x", "id"], []]
    access :=
     { addOrReplace := [{ name := "Put", values := [⟨"x", "x"⟩] }]
       delete :=
         [{ name := "Clear"
            filters := [.group .not [.compare { attr := "x", operator := .eq, parameter := "x" }],
                        .compare { attr := "id", operator := .eq, parameter := "id" }] }] } }

theorem listingModel_indexed : ∃ m, validate [listingModel] foreignRegistry = .ok [m] ∧
    ∀ d, IndexesOwnColumns ((tableOf m).schemaText d) := by
  have haccepted : validate [listingModel] foreignRegistry = .ok _ :=
    Validation.validate_of_isOk (by decide +kernel)
  refine ⟨_, haccepted, fun d => ?_⟩
  obtain ⟨hiff, -⟩ := List.forall₂_cons.1 (indexed_columns_exist_iff haccepted d)
  exact hiff.2 (Model.forall_indexes.2 (by decide +kernel))

/-- A model that compares an attribute that it does not list. -/
def foreignModel : Model :=
  { name := "a"
    access :=
     { delete :=
         [{ name := "Clear"
            filters := [.compare { attr := "x", operator := .eq, parameter := "x" }] }] } }

/-- In an accepted run the schema can index a column that no table has. -/
theorem foreign_filter_indexed : ∃ m, validate [foreignModel] foreignRegistry = .ok [m] ∧
    ∀ d, ¬IndexesOwnColumns ((tableOf m).schemaText d) := by
  have haccepted : validate [foreignModel] foreignRegistry = .ok _ :=
    Validation.validate_of_isOk (by decide +kernel)
  exact ⟨_, haccepted, fun d => (indexesOwnColumns_iff d _).not.2 (by decide +kernel)⟩

end Generation

end DataAccess
