import DataAccess.Model.Attribute

set_option autoImplicit false

/-! # The attribute registry

A registry keeps attributes in the order in which they were registered, and beside them an index
from ids to positions. Registering an id again shadows the earlier attribute. The index is rebuilt
by `reindex`; an attribute list that was put in place without it, as by decoding, cannot be looked
up yet. -/

namespace DataAccess

/-- Positions by id; every id occurs once. -/
abbrev PositionIndex := List (String × Nat)

/-- The index with the position of an id replaced or added. -/
def PositionIndex.set (id : String) (position : Nat) : PositionIndex → PositionIndex
  | [] => [(id, position)]
  | (key, old) :: rest =>
    if key = id then (key, position) :: rest else (key, old) :: PositionIndex.set id position rest

/-- An attribute registry. -/
structure Registry where
  attributes : List Attribute := []
  index : PositionIndex := []
  deriving Inhabited

namespace Registry

/-- Enters attributes into an index, the first of them at position `start`. -/
def enter (start : Nat) (index : PositionIndex) : List Attribute → PositionIndex
  | [] => index
  | a :: as => enter (start + 1) (index.set a.id start) as

/-- The registry with its index rebuilt. -/
def reindex (r : Registry) : Registry := { r with index := enter 0 [] r.attributes }

/-- The registry of a list of attributes. -/
def ofList (attributes : List Attribute) : Registry := reindex { attributes }

/-- Registers an attribute. -/
def insert (r : Registry) (a : Attribute) : Registry :=
  { attributes := r.attributes ++ [a], index := r.index.set a.id r.attributes.length }

/-- Removes the attribute at a position. -/
def removeAt (r : Registry) (position : Nat) : Registry :=
  reindex { r with attributes := r.attributes.eraseIdx position }

/-- The attribute an id stands for. -/
def lookup (r : Registry) (id : String) : Option Attribute := do
  let position ← r.index.lookup id
  r.attributes[position]?

/-- The number of ids that can be looked up. -/
def size (r : Registry) : Nat := r.index.length

end Registry

end DataAccess
