set_option autoImplicit false

/-! # Go literals

Constants as Go source. A text is written as an interpreted string (`quote`), or between back quotes
(`Literal.raw`) where it holds no back quote itself. -/

namespace DataAccess.Go

/-- A character inside an interpreted string: quotes, backslashes and controls are escaped. -/
def escapeChar (c : Char) : List Char :=
  if c = '\"' then ['\\', '\"']
  else if c = '\\' then ['\\', '\\']
  else if c = '\n' then ['\\', 'n']
  else if c = '\r' then ['\\', 'r']
  else if c = '\t' then ['\\', 't']
  else if c.toNat < 0x20 then
    ['\\', 'x', Nat.digitChar (c.toNat / 16), Nat.digitChar (c.toNat % 16)]
  else [c]

/-- A text as an interpreted string. -/
def quote (s : String) : String :=
  "\"" ++ String.ofList (s.toList.flatMap escapeChar) ++ "\""

/-- A constant. -/
inductive Literal where
  | nil
  | bool (value : Bool)
  | int (value : Int)
  | str (value : String)
  /-- A text that is written between back quotes if it can be. -/
  | raw (value : String)
  deriving DecidableEq

/-- A constant as Go source. -/
def Literal.render : Literal → String
  | .nil => "nil"
  | .bool true => "true"
  | .bool false => "false"
  | .int n => toString n
  | .str s => quote s
  | .raw s => if s.toList.contains '\x60' then quote s else "\x60" ++ s ++ "\x60"

end DataAccess.Go
