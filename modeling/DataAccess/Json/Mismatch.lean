import DataAccess.Json.Basic
import DataAccess.Unicode.Obscure

set_option autoImplicit false

/-! # What can be wrong with a document

`Mismatch` lists the ways in which a document fails to describe a value of the expected kind, and
`Mismatch.message` words them. -/

namespace DataAccess.Json

/-- A record type as its JSON form shows it: a name, and its fields in declaration order with the
ones that must be present marked. -/
structure RecordShape where
  name : String
  fields : List (String × Bool)

/-- What is expected at a place of a document. -/
inductive Expectation where
  | string
  | sequence
  | record (name : String)

/-- A reason why a document does not describe a value. -/
inductive Mismatch where
  /-- The text is no document, or it holds something that denotes nothing. -/
  | invalid
  /-- A value of another kind than the expected one. -/
  | wrongKind (found : Json) (expected : Expectation)
  /-- A record without one of its required fields. -/
  | missingField (field : String)
  /-- A record with two members for one field. -/
  | repeatedField (field : String)
  /-- A record written as an array that stops before a required field. -/
  | tooShort (length : Nat) (record : String) (fields : Nat)
  /-- A record written as an array that goes on after its last field. -/
  | tooLong
  /-- The name of no storage type. -/
  | unknownStorageType (name : String)
  /-- A filter that is neither a group nor a comparison. -/
  | noFilter

/-- A character inside a quoted text of a message. -/
def quotedChar (c : Char) : List Char :=
  if c = '\"' then ['\\', '\"']
  else if c = '\\' then ['\\', '\\']
  else if c = '\n' then ['\\', 'n']
  else if c = '\r' then ['\\', 'r']
  else if c = '\t' then ['\\', 't']
  else if c.toNat = 0 then ['\\', '0']
  else if Unicode.isObscure c then
    ['\\', 'u', '\x7b'] ++ Nat.toDigits 16 c.toNat ++ ['\x7d']
  else [c]

/-- A text as a message quotes it. -/
def quotedInMessage (s : String) : String :=
  "\"" ++ String.ofList (s.toList.flatMap quotedChar) ++ "\""

/-- A value as a message names it. -/
def describe : Json → String
  | .null => "null"
  | .bool true => "boolean `true`"
  | .bool false => "boolean `false`"
  | .int n => "integer `" ++ toString n ++ "`"
  | .float x => "floating point `" ++ Decimal.ofFloat floatStyle x ++ "`"
  | .str s => "string " ++ quotedInMessage s
  | .arr _ => "sequence"
  | .obj _ => "map"
  | .void => "nothing"

/-- An expectation as a message names it. -/
def Expectation.describe : Expectation → String
  | .string => "a string"
  | .sequence => "a sequence"
  | .record name => "struct " ++ name

/-- The message for an unknown storage type. -/
def unknownStorageTypeMessage (name : String) : String :=
  "unknown storage type `" ++ name ++
    "`, expected one of text, int, bigint, float, bool, timestamp, uuid, json"

/-- The wording of a mismatch. -/
def Mismatch.message : Mismatch → String
  | .invalid => "invalid JSON"
  | .wrongKind found expected => "invalid type: " ++ found.describe ++ ", expected " ++ expected.describe
  | .missingField field => "missing field `" ++ field ++ "`"
  | .repeatedField field => "duplicate field `" ++ field ++ "`"
  | .tooShort length record fields =>
    "invalid length " ++ toString length ++ ", expected struct " ++ record ++ " with " ++
      toString fields ++ " elements"
  | .tooLong => "trailing characters"
  | .unknownStorageType name => unknownStorageTypeMessage name
  | .noFilter => "data did not match any variant of untagged enum FilterNode"

end DataAccess.Json
