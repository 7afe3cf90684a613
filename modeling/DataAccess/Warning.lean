set_option autoImplicit false

/-! # Warnings

A filter whose operator is not known is left out of its statement. That is not an error, but it is
told. -/

namespace DataAccess

/-- Something that was left out of a statement. -/
inductive Warning where
  /-- A comparison with an unknown operator. -/
  | unknownOperator (attr operator : String)
  /-- A group with an unknown logical operator. -/
  | unknownConnective (operator : String)
  deriving DecidableEq

/-- The wording of a warning. -/
def Warning.message : Warning → String
  | .unknownOperator attr operator =>
    "filter on '" ++ attr ++ "' uses unknown operator '" ++ operator ++ "' and was dropped"
  | .unknownConnective operator =>
    "filter group uses unknown logical operator '" ++ operator ++ "' and was dropped"

end DataAccess
