import DataAccess.Text.Split
import DataAccess.Unicode.CaseMap

set_option autoImplicit false

/-! # Operators of filters

The comparison operators of a filter (`Operator`) and the logical operators that join filters
(`Connective`). Both are read without regard to case and to surplus white space. A spelling that is
none of them is kept as it is, so that it can be reported when the filter is left out. -/

namespace DataAccess

open Text Unicode

/-- A comparison operator. -/
inductive Operator where
  | eq
  | ne
  | lt
  | le
  | gt
  | ge
  | isIn
  | between
  | like
  | notLike
  | ilike
  | is
  | isNot
  /-- A spelling that names no operator. -/
  | unknown (spelling : String)
  deriving DecidableEq, Inhabited

namespace Operator

/-- The operator with a spelling in capitals and single blanks. -/
def ofSpelling? : String → Option Operator
  | "=" => some .eq
  | "==" => some .eq
  | "<>" => some .ne
  | "!=" => some .ne
  | "<" => some .lt
  | "<=" => some .le
  | ">" => some .gt
  | ">=" => some .ge
  | "IN" => some .isIn
  | "BETWEEN" => some .between
  | "LIKE" => some .like
  | "NOT LIKE" => some .notLike
  | "ILIKE" => some .ilike
  | "IS" => some .is
  | "IS NOT" => some .isNot
  | _ => none

/-- Reads an operator. -/
def parse (s : String) : Operator :=
  (ofSpelling? (upperText (String.intercalate " " (words s)))).getD (.unknown s)

/-- The SQL spelling of an operator. -/
def spelling : Operator → String
  | .eq => "="
  | .ne => "<>"
  | .lt => "<"
  | .le => "<="
  | .gt => ">"
  | .ge => ">="
  | .isIn => "IN"
  | .between => "BETWEEN"
  | .like => "LIKE"
  | .notLike => "NOT LIKE"
  | .ilike => "ILIKE"
  | .is => "IS"
  | .isNot => "IS NOT"
  | .unknown s => s

/-- Whether the operator is one of the known ones. -/
def isKnown : Operator → Bool
  | .unknown _ => false
  | _ => true

end Operator

/-- A logical operator. -/
inductive Connective where
  | and
  | or
  | not
  /-- A spelling that names no logical operator. -/
  | unknown (spelling : String)
  deriving DecidableEq, Inhabited

namespace Connective

/-- The logical operator with a spelling in capitals. -/
def ofSpelling? : String → Option Connective
  | "AND" => some .and
  | "OR" => some .or
  | "NOT" => some .not
  | _ => none

/-- Reads a logical operator. -/
def parse (s : String) : Connective :=
  (ofSpelling? (upperText (trim s))).getD (.unknown s)

/-- The spelling of a logical operator. -/
def spelling : Connective → String
  | .and => "AND"
  | .or => "OR"
  | .not => "NOT"
  | .unknown s => s

/-- Whether the logical operator is one of the known ones. -/
def isKnown : Connective → Bool
  | .unknown _ => false
  | _ => true

end Connective

end DataAccess
