import DataAccess.Proofs.IndexNames
import DataAccess.Proofs.TextBytes

set_option autoImplicit false

/-! # Indexes of a schema

A model asks for indexes in three ways: it declares them, it compares columns in its filters, and
its upserts find their rows by columns (`Model.Wants`). The same index may be asked for many times.
The main result is that the schema has one statement for each index that is asked for and no other,
and that the statements stand in the order of their bytes (`schema_indexes_exact`). -/

namespace DataAccess

/-! ## The indexes that a model asks for -/

/-- The filters of all methods that find, update or delete rows. -/
def Access.filters (a : Access) : List Filter :=
  a.find.flatMap Find.filters ++ a.update.flatMap Update.filters ++ a.delete.flatMap Delete.filters

theorem Access.mem_filters {a : Access} {f : Filter} :
    f ∈ a.filters ↔ ∃ q ∈ a.methods, f ∈ q.filters := by
  simp [filters, methods, Method.filters, or_and_right, exists_or]

/-- A model asks for an index: it declares a plain one on columns; it compares a column other than
the primary key at some depth of a filter, whatever becomes of the comparison; or it finds the row of
an upsert by columns, which takes a unique one. -/
inductive Model.Wants (m : Model) : Sql.Index → Prop where
  | declared {columns : List String} (hmem : columns ∈ m.indexes) (hne : columns ≠ []) :
      m.Wants ⟨columns, false⟩
  | compared {f : Filter} {c : Comparison} (hmem : f ∈ m.access.filters)
      (hoccurs : Filter.Occurs (.compare c) f) (hne : c.attr ≠ "id") : m.Wants ⟨[c.attr], false⟩
  | conflict {u : Upsert} (hmem : u ∈ m.access.addOrReplace) (hne : u.conflictTarget ≠ []) :
      m.Wants ⟨u.conflictTarget, true⟩

namespace Generation

open Sql (Dialect Index Table index? scriptIndexes statements)

theorem mem_filterIndexes {q : Method} {i : Index} : i ∈ filterIndexes q ↔
    ∃ f ∈ q.filters, ∃ c, Filter.Occurs (.compare c) f ∧ c.attr ≠ "id" ∧ i = ⟨[c.attr], false⟩ := by
  rw [filterIndexes, List.mem_map]
  constructor
  · rintro ⟨column, hcolumn, rfl⟩
    obtain ⟨hmem, hne⟩ := List.mem_filter.1 hcolumn
    rw [filteredColumns, List.mem_eraseDups, List.mem_map] at hmem
    obtain ⟨c, hc, rfl⟩ := hmem
    obtain ⟨f, hf, hoccurs⟩ := Filter.mem_allComparisons_iff.1 hc
    exact ⟨f, hf, c, hoccurs, by simpa [Sql.idColumn] using hne, rfl⟩
  · rintro ⟨f, hf, c, hoccurs, hne, rfl⟩
    refine ⟨c.attr, List.mem_filter.2 ⟨?_, by simpa [Sql.idColumn] using hne⟩, rfl⟩
    rw [filteredColumns, List.mem_eraseDups, List.mem_map]
    exact ⟨c, Filter.mem_allComparisons_iff.2 ⟨f, hf, hoccurs⟩, rfl⟩

/-- The indexes of the table with columns are those that the model asks for. -/
theorem wants_iff {m : Model} {i : Index} : m.Wants i ↔ i ∈ modelIndexes m ∧ i.columns ≠ [] := by
  rw [modelIndexes, List.mem_append, List.mem_append, List.mem_map, List.mem_flatMap, List.mem_map]
  constructor
  · intro h
    cases h with
    | declared hmem hne => exact ⟨.inl (.inl ⟨_, hmem, rfl⟩), hne⟩
    | compared hmem hoccurs hne =>
        obtain ⟨q, hq, hf⟩ := Access.mem_filters.1 hmem
        exact ⟨.inl (.inr ⟨q, hq, mem_filterIndexes.2 ⟨_, hf, _, hoccurs, hne, rfl⟩⟩),
          List.cons_ne_nil _ _⟩
    | conflict hmem hne => exact ⟨.inr ⟨_, hmem, rfl⟩, hne⟩
  · rintro ⟨(⟨columns, hmem, rfl⟩ | ⟨q, hq, hi⟩) | ⟨u, hmem, rfl⟩, hne⟩
    · exact .declared hmem hne
    · obtain ⟨f, hf, c, hoccurs, hid, rfl⟩ := mem_filterIndexes.1 hi
      exact .compared (Access.mem_filters.2 ⟨q, hq, hf⟩) hoccurs hid
    · exact .conflict hmem hne

/-- The statements for indexes are in the order of their bytes. -/
theorem createIndexes_increasing (t : Table) :
    t.createIndexes.Pairwise fun s s' => Text.bytes s < Text.bytes s' :=
  (Ordered.increasing_ofListBy _).imp Text.bytes_lt

/-- Different indexes of a table have different statements. -/
theorem indexStatement_injective (t : Table) : Function.Injective t.indexStatement := by
  intro i i' h
  rw [Table.indexStatement_eq, Table.indexStatement_eq, String.append_left_inj,
    Sql.indexBody_eq_iff] at h
  simp only [Table.indexOf, Sql.IndexStatement.mk.injEq] at h
  obtain ⟨hunique, -, -, hcolumns⟩ := h
  exact congrArg₂ Index.mk hcolumns hunique

/-- **The indexes of a schema.** The statements for the indexes of a model strictly increase in the
order of their bytes. They are the statements of the indexes that the model asks for, one for each of
them. For every database they are all that follows the statement that creates the table, and reading
the script gives those indexes back. -/
theorem schema_indexes_exact (r : Resolved) :
    ((tableOf r).createIndexes.Pairwise fun s s' => Text.bytes s < Text.bytes s') ∧
    (∀ s, s ∈ (tableOf r).createIndexes ↔
      ∃ i, r.model.Wants i ∧ (tableOf r).indexStatement i = s) ∧
    Function.Injective (tableOf r).indexStatement ∧
    ∀ d : Dialect,
      (∃ bodies, statements ((tableOf r).schemaText d) = Table.createBody d (tableOf r) :: bodies ∧
        (tableOf r).createIndexes = bodies.map (· ++ ";")) ∧
      ∀ x, x ∈ scriptIndexes ((tableOf r).schemaText d) ↔
        ∃ i, r.model.Wants i ∧ (tableOf r).indexOf i = x := by
  refine ⟨createIndexes_increasing _, fun s => ?_, indexStatement_injective _, fun d => ⟨?_, ?_⟩⟩
  · simp only [Table.mem_createIndexes, wants_iff, and_assoc]
    rfl
  · exact ⟨_, Table.statements_schema d _, Table.createIndexes_eq _⟩
  · intro x
    rw [scriptIndexes, Table.statements_schema, Table.mem_filterMap_index?_allBodies]
    simp only [wants_iff, and_assoc, eq_comm]
    rfl

/-- A model that asks for indexes in every way, for some of them more than once, and compares a
column with an unknown operator in an unknown group. -/
def askingModel : Model :=
  { name := "a"
    indexes := [["é", "x"], [], ["x"]]
    access :=
     { find :=
         [{ name := "ByX"
            filters := [.compare { attr := "x", operator := .eq, parameter := "x" },
                        .compare { attr := "id", operator := .eq, parameter := "id" }] }]
       addOrReplace := [{ name := "Put", values := [⟨"x", "x"⟩] }]
       delete :=
         [{ name := "Clear"
            filters := [.group (.unknown "xor")
              [.compare { attr := "y", operator := .unknown "like", parameter := "y" }]] }] } }

example : (tableOf ⟨askingModel, []⟩).createIndexes =
    ["CREATE INDEX IF NOT EXISTS \"a_é_x_idx\" ON a (\"é\", x);",
     "CREATE INDEX IF NOT EXISTS a_x_idx ON a (x);",
     "CREATE INDEX IF NOT EXISTS a_y_idx ON a (y);",
     "CREATE UNIQUE INDEX IF NOT EXISTS a_x_key ON a (x);"] := by
  decide +kernel

end Generation

end DataAccess
