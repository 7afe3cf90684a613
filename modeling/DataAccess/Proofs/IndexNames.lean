import DataAccess.Proofs.SchemaStatements
import DataAccess.Proofs.Substitution

set_option autoImplicit false

/-! # Names of indexes

The name of an index is put together from the names of its table and of its columns, with
underscores between them, and a name may have underscores of its own. So indexes of one kind share
a name exactly if the words between the underscores are the same in a row (`indexName_eq_iff`).

The main result is about all index statements of a schema: those that share a name in one namespace
are the same statement exactly if indexes with the same words have the same table and columns
(`index_names_apart_iff`). Validation does not see to that. -/

namespace DataAccess.Sql

/-- Where an index has its name: names are taken in one schema. -/
def IndexStatement.place (i : IndexStatement) : Option String × String := (i.table.1, i.name)

/-! ## Words of a name -/

/-- The words of a name between its underscores. -/
def nameWords (name : String) : List (List Char) := name.toList.splitOn '_'

/-- The words of the table and the columns of an index, in a row. -/
def Table.indexWords (t : Table) (i : Index) : List (List Char) :=
  (t.name :: i.columns).flatMap nameWords

theorem splitOn_intercalate_names {names : List String} (hne : names ≠ []) :
    (String.intercalate "_" names).toList.splitOn '_' = names.flatMap nameWords := by
  induction names with
  | nil => exact absurd rfl hne
  | cons name names ih =>
      cases names with
      | nil => simp [nameWords]
      | cons name' names =>
          have hchars : (String.intercalate "_" (name :: name' :: names)).toList =
              name.toList ++ '_' :: (String.intercalate "_" (name' :: names)).toList := by
            rw [String.intercalate_cons_cons]
            simp
          rw [hchars, List.splitOn_append_cons_self, ih (by simp)]
          rfl

theorem splitOn_indexName {t : Table} {i : Index} (hne : i.columns ≠ []) :
    (t.indexName i).toList.splitOn '_' =
      t.indexWords i ++ [(if i.unique then "key" else "idx" : String).toList] := by
  have hchars : (t.indexName i).toList = t.name.toList ++ '_' ::
      ((String.intercalate "_" i.columns).toList ++
        '_' :: (if i.unique then "key" else "idx" : String).toList) := by
    unfold Table.indexName
    simp
  have hkind : (if i.unique then "key" else "idx" : String).toList.splitOn '_' =
      [(if i.unique then "key" else "idx" : String).toList] := by
    cases i.unique <;> decide
  rw [hchars, List.splitOn_append_cons_self, List.splitOn_append_cons_self,
    splitOn_intercalate_names hne, hkind, Table.indexWords, List.flatMap_cons, List.append_assoc,
    nameWords]

/-- Indexes share a name exactly if they are of one kind and have the same words. -/
theorem indexName_eq_iff {t t' : Table} {i i' : Index} (hne : i.columns ≠ [])
    (hne' : i'.columns ≠ []) : t.indexName i = t'.indexName i' ↔
      i.unique = i'.unique ∧ t.indexWords i = t'.indexWords i' := by
  have hback : ∀ name : String, List.intercalate ['_'] (name.toList.splitOn '_') = name.toList :=
    fun name => List.intercalate_splitOn '_'
  -- A name and its words determine each other, so the words can be compared.
  have hsplit : t.indexName i = t'.indexName i' ↔
      (t.indexName i).toList.splitOn '_' = (t'.indexName i').toList.splitOn '_' := by
    constructor
    · intro h
      rw [h]
    · intro h
      rw [← String.toList_inj, ← hback, h, hback]
  rw [hsplit, splitOn_indexName hne, splitOn_indexName hne']
  constructor
  · intro h
    -- The last word is the kind.
    obtain ⟨hwords, hkind⟩ := List.append_inj' h rfl
    refine ⟨?_, hwords⟩
    cases hunique : i.unique <;> cases hunique' : i'.unique <;> simp_all
  · rintro ⟨hunique, hwords⟩
    rw [hunique, hwords]

/-- Indexes that have one name in one schema, by their words. -/
theorem place_indexOf_eq_iff {t t' : Table} {i i' : Index} (hne : i.columns ≠ [])
    (hne' : i'.columns ≠ []) : (t.indexOf i).place = (t'.indexOf i').place ↔
      t.schema = t'.schema ∧ i.unique = i'.unique ∧ t.indexWords i = t'.indexWords i' := by
  rw [← indexName_eq_iff hne hne']
  exact Prod.mk.injEq _ _ _ _ ▸ Iff.rfl

/-- Indexes with one name in one schema differ only in their tables and columns. -/
theorem indexOf_eq_iff {t t' : Table} {i i' : Index} (hne : i.columns ≠ [])
    (hne' : i'.columns ≠ []) (hplace : (t.indexOf i).place = (t'.indexOf i').place) :
    t.indexOf i = t'.indexOf i' ↔ t.name = t'.name ∧ i.columns = i'.columns := by
  obtain ⟨hschema, hunique, -⟩ := (place_indexOf_eq_iff hne hne').1 hplace
  have hname : t.indexName i = t'.indexName i' := congrArg Prod.snd hplace
  rw [Table.indexOf, Table.indexOf, hunique, hname, hschema]
  simp

/-- The text of an index statement is determined by what it says. -/
theorem indexBody_eq_iff {t t' : Table} {i i' : Index} :
    t.indexBody i = t'.indexBody i' ↔ t.indexOf i = t'.indexOf i' := by
  constructor
  · intro h
    have hindex := congrArg index? h
    rw [Table.index?_indexBody, Table.index?_indexBody] at hindex
    exact Option.some.inj hindex
  · intro h
    simp only [Table.indexOf, IndexStatement.mk.injEq, Prod.mk.injEq] at h
    obtain ⟨hunique, hname, ⟨hschema, htable⟩, hcolumns⟩ := h
    unfold Table.indexBody Table.reference
    rw [hunique, hname, hschema, htable, hcolumns]

end DataAccess.Sql

namespace DataAccess.Generation

open Sql (Dialect Index index? statements)
open Validation (validate)

/-! ## Indexes of a schema -/

/-- Index statements that have one name in one schema are the same statement. -/
def IndexNamesApart (script : String) : Prop :=
  ∀ s ∈ statements script, ∀ s' ∈ statements script, ∀ i ∈ index? s, ∀ i' ∈ index? s',
    i.place = i'.place → s = s'

/-- Indexes of one kind in one schema that have the same words have the same table and columns. -/
def IndexWordsApart (models : List Resolved) : Prop :=
  ∀ m ∈ models, ∀ m' ∈ models, m.model.schema = m'.model.schema →
    ∀ i ∈ modelIndexes m.model, ∀ i' ∈ modelIndexes m'.model, i.columns ≠ [] → i'.columns ≠ [] →
      i.unique = i'.unique → (tableOf m).indexWords i = (tableOf m').indexWords i' →
        m.model.tableName = m'.model.tableName ∧ i.columns = i'.columns

/-- The index statements of the schema are those of the models. -/
theorem mem_index?_statements {d : Dialect} {models : List Resolved} {s : String}
    {x : Sql.IndexStatement} : s ∈ statements (schemaText d models) ∧ index? s = some x ↔
      ∃ m ∈ models, ∃ i ∈ modelIndexes m.model, i.columns ≠ [] ∧
        s = (tableOf m).indexBody i ∧ x = (tableOf m).indexOf i := by
  rw [statements_schemaText, List.mem_flatMap]
  constructor
  · rintro ⟨⟨m, hm, hs⟩, hx⟩
    exact ⟨m, hm, Sql.Table.mem_allBodies_index?.1 ⟨hs, hx⟩⟩
  · rintro ⟨m, hm, hindex⟩
    obtain ⟨hs, hx⟩ := Sql.Table.mem_allBodies_index? (d := d) (t := tableOf m).2 hindex
    exact ⟨⟨m, hm, hs⟩, hx⟩

theorem indexWordsApart_iff {models : List Resolved} : IndexWordsApart models ↔
    ∀ m ∈ models, ∀ m' ∈ models, ∀ i ∈ modelIndexes m.model, ∀ i' ∈ modelIndexes m'.model,
      i.columns ≠ [] → i'.columns ≠ [] →
        ((tableOf m).indexOf i).place = ((tableOf m').indexOf i').place →
          (tableOf m).indexOf i = (tableOf m').indexOf i' := by
  constructor
  · intro h m hm m' hm' i hi i' hi' hne hne' hplace
    obtain ⟨hschema, hunique, hwords⟩ := (Sql.place_indexOf_eq_iff hne hne').1 hplace
    have hsame := h m hm m' hm' hschema i hi i' hi' hne hne' hunique hwords
    exact (Sql.indexOf_eq_iff hne hne' hplace).2 hsame
  · intro h m hm m' hm' hschema i hi i' hi' hne hne' hunique hwords
    have hplace := (Sql.place_indexOf_eq_iff hne hne').2 ⟨hschema, hunique, hwords⟩
    exact (Sql.indexOf_eq_iff hne hne' hplace).1 (h m hm m' hm' i hi i' hi' hne hne' hplace)

theorem IndexNamesApart.words {d : Dialect} {models : List Resolved}
    (h : IndexNamesApart (schemaText d models)) : IndexWordsApart models := by
  rw [indexWordsApart_iff]
  intro m hm m' hm' i hi i' hi' hne hne' hplace
  obtain ⟨hs, hindex⟩ := mem_index?_statements (d := d).2 ⟨m, hm, i, hi, hne, rfl, rfl⟩
  obtain ⟨hs', hindex'⟩ := mem_index?_statements (d := d).2 ⟨m', hm', i', hi', hne', rfl, rfl⟩
  exact Sql.indexBody_eq_iff.1 (h _ hs _ hs' _ hindex _ hindex' hplace)

theorem IndexWordsApart.names {models : List Resolved} (h : IndexWordsApart models) (d : Dialect) :
    IndexNamesApart (schemaText d models) := by
  rw [indexWordsApart_iff] at h
  intro s hs s' hs' x hx x' hx' hplace
  obtain ⟨m, hm, i, hi, hne, rfl, rfl⟩ := mem_index?_statements.1 ⟨hs, hx⟩
  obtain ⟨m', hm', i', hi', hne', rfl, rfl⟩ := mem_index?_statements.1 ⟨hs', hx'⟩
  exact Sql.indexBody_eq_iff.2 (h m hm m' hm' i hi i' hi' hne hne' hplace)

/-- **When no index is lost to a name.** The index statements of a schema that share a name in one
namespace are the same statement exactly if indexes of one kind with the same words have the same
table and columns. -/
theorem index_names_apart_iff (d : Dialect) (models : List Resolved) :
    IndexNamesApart (schemaText d models) ↔ IndexWordsApart models :=
  ⟨fun h => h.words, fun h => h.names d⟩

def joinedRegistry : Registry :=
  .ofList
    [{ id := "b_c", name := "b_c", type := .text },
     { id := "b", name := "b", type := .text },
     { id := "c", name := "c", type := .text }]

/-- A model with an upsert by the column `b_c` and one by the columns `b` and `c`. -/
def joinedModel : Model :=
  { name := "a"
    attributes := ["b_c", "b", "c"]
    access :=
     { addOrReplace :=
         [{ name := "PutJoined", values := [⟨"b_c", "b_c"⟩] },
          { name := "PutPair", values := [⟨"b", "b"⟩, ⟨"c", "c"⟩], conflict := ["b", "c"] }] } }

/-- In an accepted run two different unique indexes can share a name. -/
theorem joined_columns_share_name :
    ∃ resolved, validate [joinedModel] joinedRegistry = .ok resolved ∧
      ∀ d, ¬IndexNamesApart (schemaText d resolved) := by
  have haccepted : validate [joinedModel] joinedRegistry = .ok _ :=
    Validation.validate_of_isOk (by decide +kernel)
  refine ⟨_, haccepted, fun d hnames => ?_⟩
  -- The words of both indexes are `a`, `b` and `c`, but their columns differ.
  have hsame := hnames.words _ List.mem_cons_self _ List.mem_cons_self rfl ⟨["b_c"], true⟩
    (by decide +kernel) ⟨["b", "c"], true⟩ (by decide +kernel) (by decide) (by decide) rfl
    (by decide +kernel)
  exact absurd hsame.2 (by decide)

end DataAccess.Generation
