import DataAccess.Model.Filter
import DataAccess.Sql.Fragment
import DataAccess.Sql.Identifier
import DataAccess.Warning

set_option autoImplicit false

/-! # Conditions

A condition is what is left of a filter when everything with an unknown operator is taken out,
together with the groups that become empty by it (`Filter.condition?`). What was taken out for its
operator is told by `Filter.warnings`; nothing below an unknown group is looked at. A condition is
written with all its parentheses (`Condition.fragment`). -/

namespace DataAccess

namespace Sql

/-- The left side of a comparison: a column, possibly with a function applied to it. -/
structure Subject where
  column : String
  function : Option String

/-- A subject as SQL text. -/
def Subject.text (s : Subject) : String :=
  match s.function with
  | some f => f ++ "(" ++ quote s.column ++ ")"
  | none => quote s.column

/-- How the parts of a condition are joined; a negation joins its parts like a conjunction. -/
inductive Junction where
  | and
  | or
  | not
  deriving DecidableEq

/-- What stands between the parts. -/
def Junction.separator : Junction → String
  | .and => " AND "
  | .or => " OR "
  | .not => " AND "

/-- What stands before the parts. -/
def Junction.opening : Junction → String
  | .and => "("
  | .or => "("
  | .not => "NOT("

/-- A condition on rows. -/
inductive Condition where
  /-- A comparison with one value. -/
  | compare (subject : Subject) (operator : Operator) (parameter : String)
  /-- A test for a range; the parameter holds both ends. -/
  | between (subject : Subject) (parameter : String)
  /-- A test for membership in a list. -/
  | member (subject : Subject) (parameter : String)
  | junction (j : Junction) (parts : List Condition)

mutual

/-- A condition as a fragment. -/
def Condition.fragment (d : Dialect) : Condition → Fragment
  | .compare s op p => [.text (s.text ++ " " ++ op.spelling ++ " "), .slot (.whole p)]
  | .between s p =>
    [.text ("(" ++ s.text ++ " BETWEEN "), .slot (.named p (some 0)), .text " AND ",
     .slot (.named p (some 1)), .text ")"]
  | .member s p =>
    [.text (s.text ++ d.memberFrame.1), .slot (.whole p), .text d.memberFrame.2]
  | .junction j parts =>
    .text j.opening :: Fragment.join j.separator (Condition.fragments d parts) ++ [.text ")"]

/-- Several conditions as fragments. -/
def Condition.fragments (d : Dialect) : List Condition → List Fragment
  | [] => []
  | c :: cs => c.fragment d :: Condition.fragments d cs

end

/-- The parts joined, unless there are none. -/
def Condition.join? (j : Junction) : List Condition → Option Condition
  | [] => none
  | c :: cs => some (.junction j (c :: cs))

end Sql

open Sql

/-- The condition of a comparison, if its operator is known. -/
def Comparison.condition? (c : Comparison) : Option Condition :=
  let subject : Subject := ⟨c.attr, c.transformation⟩
  match c.operator with
  | .unknown _ => none
  | .isIn => some (.member subject c.parameter)
  | .between => some (.between subject c.parameter)
  | op => some (.compare subject op c.parameter)

/-- How a logical operator joins, if it is known. -/
def Connective.junction? : Connective → Option Junction
  | .and => some .and
  | .or => some .or
  | .not => some .not
  | .unknown _ => none

namespace Filter

mutual

/-- The condition of a filter, if anything of it is left. -/
def condition? : Filter → Option Condition
  | .compare c => c.condition?
  | .group op fs => op.junction?.bind fun j => Condition.join? j (conditions fs)

/-- The conditions of several filters. -/
def conditions : List Filter → List Condition
  | [] => []
  | f :: fs => (condition? f).toList ++ conditions fs

end

mutual

/-- What was taken out of a filter for an unknown operator, depth first and left to right. -/
def warnings : Filter → List Warning
  | .compare c => match c.operator with
    | .unknown op => [.unknownOperator c.attr op]
    | _ => []
  | .group op fs => match op with
    | .unknown op => [.unknownConnective op]
    | _ => allWarnings fs

/-- What was taken out of several filters. -/
def allWarnings : List Filter → List Warning
  | [] => []
  | f :: fs => warnings f ++ allWarnings fs

end

/-- The condition of a list of filters: a single filter stands alone, several must all hold. -/
def allCondition? : List Filter → Option Condition
  | [] => none
  | [f] => f.condition?
  | fs => Condition.join? .and (conditions fs)

/-- The fragment of a list of filters; it is empty if nothing is left of them. -/
def whereFragment (d : Dialect) (fs : List Filter) : Fragment :=
  match allCondition? fs with
  | some c => c.fragment d
  | none => []

end Filter

end DataAccess
