set_option autoImplicit false

/-! # Lists kept in order

`insertBy` puts an element into a list that is strictly increasing for a comparison. An element
that compares equal is already there and stays. `ofListBy` inserts the elements of a list one after
the other, so of several that compare equal the first one is kept. -/

namespace DataAccess.Ordered

/-- The list with an element inserted, unless an equal one is there. -/
def insertBy {α : Type} (cmp : α → α → Ordering) (a : α) : List α → List α
  | [] => [a]
  | b :: bs => match cmp a b with
    | .lt => a :: b :: bs
    | .eq => b :: bs
    | .gt => b :: insertBy cmp a bs

/-- The elements of a list in order, without the later ones of several that compare equal. -/
def ofListBy {α : Type} (cmp : α → α → Ordering) (as : List α) : List α :=
  as.foldl (fun acc a => insertBy cmp a acc) []

end DataAccess.Ordered
