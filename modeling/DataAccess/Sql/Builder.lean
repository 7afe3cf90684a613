import DataAccess.Model.Access
import DataAccess.Sql.Condition

set_option autoImplicit false

/-! # Building statements

A builder writes the clauses of one statement one after the other. Every clause goes on with the
numbers of the placeholders where the clause before it stopped. The fragments of the clauses are
defined on their own (`setFragment`, `insertParameters`); a builder only numbers and records. -/

namespace DataAccess.Sql

/-! ## Clauses -/

/-- The assignments of a SET clause: first the given ones, then the columns that grow by one, then
those that take the current time. -/
def setFragments (d : Dialect) (assignments : List Assignment) (increments timestamps : List String) :
    List Fragment :=
  (assignments.map fun a => [.text (quote a.attr ++ " = "), .slot (.whole a.parameter)]) ++
  (increments.map fun c => [.text (quote c ++ " = " ++ quote c ++ " + 1")]) ++
  (timestamps.map fun c => [.text (quote c ++ " = " ++ d.now)])

/-- A SET clause. -/
def setFragment (d : Dialect) (assignments : List Assignment) (increments timestamps : List String) :
    Fragment :=
  Fragment.join ", " (setFragments d assignments increments timestamps)

/-- The columns of an inserted row: the primary key, then the ones given a value. -/
def insertColumns (values : List Assignment) : List String :=
  quote idColumn :: values.map fun a => quote a.attr

/-- The bind values of an inserted row, column by column. -/
def insertParameters (values : List Assignment) : List Parameter :=
  .newId :: values.map fun a => .whole a.parameter

/-! ## Builders -/

/-- A statement under construction. -/
structure Builder where
  dialect : Dialect
  /-- The number of the next placeholder. -/
  next : Nat
  /-- The bind values so far. -/
  params : List Parameter
  warnings : List Warning

/-- The columns and placeholders of an inserted row. -/
structure InsertLists where
  columns : List String
  placeholders : List String

namespace Builder

/-- The builder of a new statement. -/
def start (d : Dialect) : Builder :=
  { dialect := d, next := d.firstPlaceholder, params := [], warnings := [] }

/-- Writes a fragment. -/
def emit (b : Builder) (f : Fragment) (warnings : List Warning) : String × Builder :=
  (f.render b.dialect b.next,
   { b with
     next := b.next + f.params.length
     params := b.params ++ f.params
     warnings := b.warnings ++ warnings })

/-- Binds one value and yields its placeholder. -/
def bind (b : Builder) (p : Parameter) : String × Builder := b.emit [.slot p] []

/-- Binds several values and yields their placeholders. -/
def bindAll (b : Builder) : List Parameter → List String × Builder
  | [] => ([], b)
  | p :: ps =>
    let (text, b) := b.bind p
    let (texts, b) := bindAll b ps
    (text :: texts, b)

/-- Writes the condition of a list of filters. -/
def whereClause (b : Builder) (fs : List Filter) : String × Builder :=
  b.emit (Filter.whereFragment b.dialect fs) (Filter.allWarnings fs)

/-- Writes the condition of one filter. -/
def filterClause (b : Builder) (f : Filter) : String × Builder := b.whereClause [f]

/-- Writes a SET clause. -/
def setClause (b : Builder) (assignments : List Assignment) (increments timestamps : List String) :
    String × Builder :=
  b.emit (setFragment b.dialect assignments increments timestamps) []

/-- Binds the values of an inserted row. -/
def valuesClause (b : Builder) (values : List Assignment) : InsertLists × Builder :=
  let (placeholders, b) := b.bindAll (insertParameters values)
  ({ columns := insertColumns values, placeholders }, b)

end Builder

end DataAccess.Sql
