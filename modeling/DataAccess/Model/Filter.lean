import DataAccess.Model.Operator

set_option autoImplicit false

/-! # Filters

A filter is a tree: comparisons of an attribute with a parameter at the leaves, joined by logical
operators. Its comparisons are listed depth first, left to right (`comparisons`), and its
attributes can be replaced (`mapAttributes`) without touching anything else. -/

namespace DataAccess

/-- A comparison of one attribute with a parameter. -/
structure Comparison where
  /-- An attribute id before resolution, a column name after. -/
  attr : String
  /-- A function applied to the attribute, such as `LOWER`. -/
  transformation : Option String := none
  operator : Operator
  parameter : String
  deriving DecidableEq, Inhabited

/-- A filter. -/
inductive Filter where
  | compare (comparison : Comparison)
  | group (connective : Connective) (filters : List Filter)
  deriving Inhabited

namespace Filter

mutual

/-- The comparisons of a filter, depth first and left to right. -/
def comparisons : Filter → List Comparison
  | .compare c => [c]
  | .group _ fs => allComparisons fs

/-- The comparisons of several filters. -/
def allComparisons : List Filter → List Comparison
  | [] => []
  | f :: fs => comparisons f ++ allComparisons fs

end

mutual

/-- A filter with every attribute replaced; the first failure in depth-first order is the answer. -/
def mapAttributes {ε : Type} (g : String → Except ε String) : Filter → Except ε Filter
  | .compare c => do
    let attr ← g c.attr
    return .compare { c with attr }
  | .group op fs => do
    let fs ← mapAllAttributes g fs
    return .group op fs

/-- Several filters with every attribute replaced. -/
def mapAllAttributes {ε : Type} (g : String → Except ε String) :
    List Filter → Except ε (List Filter)
  | [] => .ok []
  | f :: fs => do
    let f ← mapAttributes g f
    let fs ← mapAllAttributes g fs
    return f :: fs

end

end Filter

end DataAccess
