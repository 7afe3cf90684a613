import DataAccess.Error
import DataAccess.Go.Identifier
import DataAccess.Model.Basic
import DataAccess.Model.Registry
import DataAccess.Sql.Identifier

set_option autoImplicit false

/-! # Resolution

Models refer to attributes by id, statements to columns by name. Resolution replaces every id of a
model by the column name the registry gives for it, and looks up the attributes of the model
itself. A fixed column stands for itself unless the registry says otherwise. -/

namespace DataAccess

/-- A model whose attributes are column names. -/
structure Resolved where
  model : Model
  /-- The registered attributes of the model, in column order. -/
  columns : List Attribute
  deriving Inhabited

namespace Resolved

def name (r : Resolved) : String := r.model.name

/-- The attribute with a column name. -/
def column? (r : Resolved) (name : String) : Option Attribute :=
  r.columns.find? fun c => c.name == name

end Resolved

namespace Validation

open Sql (fixedColumns)
open Go (exported isIdentifier)

/-! ## References -/

/-- The attribute an id stands for. -/
def resolveAttribute (r : Registry) (id : String) : Except CompileError Attribute :=
  match r.lookup id with
  | some a => .ok a
  | none => .error (.unknownAttribute id)

/-- The column an id stands for. -/
def resolveColumn (r : Registry) (id : String) : Except CompileError String :=
  match r.lookup id with
  | some a => .ok a.name
  | none => if fixedColumns.contains id then .ok id else .error (.unknownAttribute id)

/-- The columns several ids stand for. -/
def resolveColumns (r : Registry) (ids : List String) : Except CompileError (List String) :=
  ids.mapM (resolveColumn r)

/-- Filters with their ids replaced. -/
def resolveFilters (r : Registry) (fs : List Filter) : Except CompileError (List Filter) :=
  Filter.mapAllAttributes (resolveColumn r) fs

/-- Assignments with their ids replaced. -/
def resolveAssignments (r : Registry) (as : List Assignment) :
    Except CompileError (List Assignment) :=
  as.mapM fun a => do
    let attr ← resolveColumn r a.attr
    return { a with attr }

/-! ## Columns of a model -/

/-- Checks that the columns of a model can stand in one table and one struct beside the fixed
columns. `fields` holds the fields so far with their columns. -/
def checkColumns (fields : List (String × String)) : List Attribute → Except CompileError Unit
  | [] => .ok ()
  | c :: cs =>
    let field := exported c.name
    if fixedColumns.contains c.name then .error (.reservedColumn c.name)
    else if !isIdentifier field then .error (.invalidIdentifier c.name "a column")
    else match fields.lookup field with
      | some first =>
        .error (.identifierCollision field ("column '" ++ first ++ "'")
          ("column '" ++ c.name ++ "'"))
      | none => checkColumns ((field, c.name) :: fields) cs

/-- The fields of the fixed columns. -/
def fixedFields : List (String × String) := fixedColumns.map fun c => (exported c, c)

/-! ## Methods -/

/-- Checks that a find reads only columns that the model has. -/
def checkProjection (columns : List Attribute) (attributes : List String) :
    Except CompileError Unit :=
  match attributes.find? fun a => !fixedColumns.contains a && !columns.any (·.name == a) with
  | some a => .error (.attributeNotInModel a)
  | none => .ok ()

def resolveFind (r : Registry) (columns : List Attribute) (m : Find) :
    Except CompileError Find := do
  let attributes ← resolveColumns r m.attributes
  checkProjection columns attributes
  let filters ← resolveFilters r m.filters
  return { name := m.name, attributes, filters }

def resolveUpdate (r : Registry) (m : Update) : Except CompileError Update := do
  let filters ← resolveFilters r m.filters
  let set ← resolveAssignments r m.set
  let increment ← resolveColumns r m.increment
  let timestamp ← resolveColumns r m.timestamp
  return { name := m.name, filters, set, increment, timestamp }

def resolveAdd (r : Registry) (m : Add) : Except CompileError Add := do
  let values ← resolveAssignments r m.values
  return { name := m.name, values }

def resolveUpsert (r : Registry) (m : Upsert) : Except CompileError Upsert := do
  let values ← resolveAssignments r m.values
  let conflict ← resolveColumns r m.conflict
  return { name := m.name, values, conflict }

def resolveDelete (r : Registry) (m : Delete) : Except CompileError Delete := do
  let filters ← resolveFilters r m.filters
  return { name := m.name, filters }

/-! ## Models -/

/-- The access methods of a model with their ids replaced, kind by kind. -/
def resolveAccess (r : Registry) (model : String) (columns : List Attribute) (a : Access) :
    Except CompileError Access := do
  let find ← a.find.mapM fun m => (resolveFind r columns m).mapError (.inMethod model m.name)
  let update ← a.update.mapM fun m => (resolveUpdate r m).mapError (.inMethod model m.name)
  let add ← a.add.mapM fun m => (resolveAdd r m).mapError (.inMethod model m.name)
  let addOrReplace ← a.addOrReplace.mapM fun m =>
    (resolveUpsert r m).mapError (.inMethod model m.name)
  let delete ← a.delete.mapM fun m => (resolveDelete r m).mapError (.inMethod model m.name)
  return { find, update, add, addOrReplace, delete }

/-- The registered attributes of a model, checked to be usable as its columns. -/
def resolveModelColumns (r : Registry) (m : Model) : Except CompileError (List Attribute) := do
  let columns ← m.attributes.mapM (resolveAttribute r)
  checkColumns fixedFields columns
  return columns

/-- A model with every attribute id replaced by a column name. -/
def resolveModel (r : Registry) (m : Model) : Except CompileError Resolved := do
  let columns ← (resolveModelColumns r m).mapError (.inModel m.name)
  let indexes ← (m.indexes.mapM (resolveColumns r)).mapError (.inModel m.name)
  let access ← resolveAccess r m.name columns m.access
  let attributes := columns.map Attribute.name
  return { model := { name := m.name, schema := m.schema, attributes, indexes, access }, columns }

end Validation

end DataAccess
