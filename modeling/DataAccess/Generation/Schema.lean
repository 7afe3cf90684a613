import DataAccess.Go.SourceFile
import DataAccess.Sql.Table
import DataAccess.Validation.Resolution

set_option autoImplicit false

/-! # The schema of a run

The table of a model (`tableOf`) has an index for every declared one, for every column that a
filter compares, and a unique one for the columns that identify the row of an upsert. `schemaText`
creates the tables of all models. -/

namespace DataAccess.Generation

open Sql (Column Dialect Index Table)

/-- The columns that filters compare, in order of first appearance. -/
def filteredColumns (fs : List Filter) : List String :=
  ((Filter.allComparisons fs).map Comparison.attr).eraseDups

/-- The plain indexes for the filters of a method; the primary key needs none. -/
def filterIndexes (q : Method) : List Index :=
  ((filteredColumns q.filters).filter (· != Sql.idColumn)).map fun c => ⟨[c], false⟩

/-- The indexes of a model. -/
def modelIndexes (m : Model) : List Index :=
  m.indexes.map (fun columns => ⟨columns, false⟩) ++ m.access.methods.flatMap filterIndexes ++
    m.access.addOrReplace.map fun u => ⟨u.conflictTarget, true⟩

/-- The column of an attribute. -/
def tableColumn (a : Attribute) : Column :=
  { name := a.name, type := a.type, required := a.isRequired }

/-- The table of a model. -/
def tableOf (r : Resolved) : Table :=
  { schema := r.model.schema, name := r.model.tableName, columns := r.columns.map tableColumn,
    indexes := modelIndexes r.model }

/-- The statements that create the tables of all models. -/
def schemaText (d : Dialect) (models : List Resolved) : String :=
  "-- " ++ Go.generatedMarker ++ "\n" ++
    String.join (models.map fun r => "\n" ++ (tableOf r).schemaText d)

end DataAccess.Generation
