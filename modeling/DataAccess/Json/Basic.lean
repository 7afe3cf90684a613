import DataAccess.Decimal.Shortest

set_option autoImplicit false

/-! # JSON values

The value of a JSON document. Objects keep their members in document order, repeated names
included, because decoding reports the first problem in that order.

`void` stands for a token that obeys the grammar and denotes nothing: a string with an unpaired
surrogate, a number too large for a double, an object with such a name. A reader that never
looks at the token need not mind it. `fits` says that a value can be looked at as a whole. -/

namespace DataAccess

/-- A JSON value. -/
inductive Json where
  | null
  | bool (value : Bool)
  | int (value : Int)
  | float (value : Float)
  | str (value : String)
  | arr (items : List Json)
  | obj (members : List (String × Json))
  | void
  deriving Inhabited

namespace Json

/-- The deepest nesting of arrays and objects that is read. -/
def maxDepth : Nat := 127

mutual

/-- Whether a value denotes something throughout and nests at most `levels` arrays and objects. -/
def fits (levels : Nat) : Json → Bool
  | .void => false
  | .arr items => levels != 0 && fitsItems (levels - 1) items
  | .obj members => levels != 0 && fitsMembers (levels - 1) members
  | _ => true

/-- `fits` for the items of an array. -/
def fitsItems (levels : Nat) : List Json → Bool
  | [] => true
  | v :: vs => fits levels v && fitsItems levels vs

/-- `fits` for the members of an object. -/
def fitsMembers (levels : Nat) : List (String × Json) → Bool
  | [] => true
  | (_, v) :: ms => fits levels v && fitsMembers levels ms

end

/-- Doubles are written without an exponent up to sixteen digits before the point, and with up to
four zeros after it; an exponent has its sign. -/
def floatStyle : Decimal.Style := ⟨16, 5, true⟩

/-- The value of the first member with a name. -/
def get? (name : String) : Json → Option Json
  | .obj members => members.lookup name
  | _ => none

end Json

end DataAccess
