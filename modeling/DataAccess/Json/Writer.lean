import DataAccess.Json.Basic

set_option autoImplicit false

/-! # Writing JSON

`render` writes a value without white space. In strings the quote, the backslash and the controls
are escaped, all other characters stand for themselves. -/

namespace DataAccess.Json

/-- A character inside a string token. -/
def escapeChar (c : Char) : List Char :=
  if c = '\"' then ['\\', '\"']
  else if c = '\\' then ['\\', '\\']
  else if c = '\x08' then ['\\', 'b']
  else if c = '\t' then ['\\', 't']
  else if c = '\n' then ['\\', 'n']
  else if c = '\x0c' then ['\\', 'f']
  else if c = '\r' then ['\\', 'r']
  else if c.toNat < 0x20 then
    ['\\', 'u', '0', '0', Nat.digitChar (c.toNat / 16), Nat.digitChar (c.toNat % 16)]
  else [c]

/-- A string token. -/
def renderString (s : String) : String :=
  "\"" ++ String.ofList (s.toList.flatMap escapeChar) ++ "\""

mutual

/-- A value as compact text; `void` has no text of its own and is written as `null`. -/
def render : Json → String
  | .null => "null"
  | .bool true => "true"
  | .bool false => "false"
  | .int n => toString n
  | .float x => Decimal.ofFloat floatStyle x
  | .str s => renderString s
  | .arr items => "[" ++ String.intercalate "," (renderItems items) ++ "]"
  | .obj members => "\x7b" ++ String.intercalate "," (renderMembers members) ++ "\x7d"
  | .void => "null"

/-- The items of an array. -/
def renderItems : List Json → List String
  | [] => []
  | v :: vs => render v :: renderItems vs

/-- The members of an object. -/
def renderMembers : List (String × Json) → List String
  | [] => []
  | (name, v) :: ms => (renderString name ++ ":" ++ render v) :: renderMembers ms

end

end DataAccess.Json
