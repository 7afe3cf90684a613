import DataAccess.Model.Filter

set_option autoImplicit false

/-! # Access methods

What can be done with the rows of a model: find, update, add, add or replace, delete. A model lists
its methods kind by kind (`Access`); `Access.methods` is the one list in which they are compiled
and generated. -/

namespace DataAccess

/-- Gives an attribute the value of a parameter. -/
structure Assignment where
  attr : String
  parameter : String
  deriving DecidableEq, Inhabited

/-- Reads rows. -/
structure Find where
  name : String
  /-- The attributes to read; none at all means every column. -/
  attributes : List String := []
  filters : List Filter := []
  deriving Inhabited

/-- Changes rows. -/
structure Update where
  name : String
  filters : List Filter := []
  set : List Assignment := []
  /-- Attributes that grow by one. -/
  increment : List String := []
  /-- Attributes that take the current time. -/
  timestamp : List String := []
  deriving Inhabited

/-- Inserts a row. -/
structure Add where
  name : String
  values : List Assignment := []
  deriving Inhabited

/-- Inserts a row, or replaces the one that conflicts with it. -/
structure Upsert where
  name : String
  values : List Assignment := []
  /-- The attributes that identify a row; none at all means the first attribute given a value. -/
  conflict : List String := []
  deriving Inhabited

/-- The attributes that identify an existing row. -/
def Upsert.conflictTarget (u : Upsert) : List String :=
  if u.conflict.isEmpty then (u.values.take 1).map Assignment.attr else u.conflict

/-- Deletes rows. -/
structure Delete where
  name : String
  filters : List Filter := []
  deriving Inhabited

/-- The kinds of access methods. -/
inductive MethodKind where
  | find
  | update
  | add
  | addOrReplace
  | delete
  deriving DecidableEq, Inhabited

/-- The name of a kind. -/
def MethodKind.text : MethodKind → String
  | .find => "find"
  | .update => "update"
  | .add => "add"
  | .addOrReplace => "add_or_replace"
  | .delete => "delete"

/-- An access method of any kind. -/
inductive Method where
  | find (m : Find)
  | update (m : Update)
  | add (m : Add)
  | addOrReplace (m : Upsert)
  | delete (m : Delete)

namespace Method

def name : Method → String
  | .find m => m.name
  | .update m => m.name
  | .add m => m.name
  | .addOrReplace m => m.name
  | .delete m => m.name

def kind : Method → MethodKind
  | .find _ => .find
  | .update _ => .update
  | .add _ => .add
  | .addOrReplace _ => .addOrReplace
  | .delete _ => .delete

/-- The filters of a method; inserting takes none. -/
def filters : Method → List Filter
  | .find m => m.filters
  | .update m => m.filters
  | .delete m => m.filters
  | .add _ => []
  | .addOrReplace _ => []

/-- The assignments of a method. -/
def assignments : Method → List Assignment
  | .update m => m.set
  | .add m => m.values
  | .addOrReplace m => m.values
  | .find _ => []
  | .delete _ => []

/-- The parameters of a method with repetitions: assignments first, then comparisons. -/
def parameters (m : Method) : List String :=
  m.assignments.map Assignment.parameter ++
    (Filter.allComparisons m.filters).map Comparison.parameter

end Method

/-- The access methods of a model, kind by kind. -/
structure Access where
  find : List Find := []
  update : List Update := []
  add : List Add := []
  addOrReplace : List Upsert := []
  delete : List Delete := []
  deriving Inhabited

/-- All methods, in the order in which they are compiled and generated. -/
def Access.methods (a : Access) : List Method :=
  a.find.map .find ++ a.update.map .update ++ a.add.map .add ++
    a.addOrReplace.map .addOrReplace ++ a.delete.map .delete

/-- Whether there is no method at all. -/
def Access.isEmpty (a : Access) : Bool := a.methods.isEmpty

end DataAccess
