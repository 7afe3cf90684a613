import DataAccess.Json.Mismatch
import DataAccess.Json.Reader

set_option autoImplicit false

/-! # Decoding JSON values

Texts, lists and records are read from JSON values in document order, and the first mismatch in
that order is the answer. A record is an object, or an array of its fields in declaration order
that may stop before trailing optional fields. Members of an object that name no field are skipped
unread. -/

namespace DataAccess.Json

/-! ## Texts and lists -/

/-- The failure of a value that is not of the expected kind. -/
def reject {α : Type} (v : Json) (expected : Expectation) : Except Mismatch α :=
  match v with
  | .void => .error .invalid
  | v => .error (.wrongKind v expected)

/-- A text. -/
def string : Json → Except Mismatch String
  | .str s => .ok s
  | v => reject v .string

/-- A text or `null`. -/
def optionalString : Json → Except Mismatch (Option String)
  | .null => .ok none
  | v => some <$> string v

/-- The items of a list, in order. -/
def decodeAll {α : Type} (item : Json → Except Mismatch α) : List Json → Except Mismatch (List α)
  | [] => .ok []
  | v :: vs => do
    let a ← item v
    let as ← decodeAll item vs
    return a :: as

/-- A list. -/
def list {α : Type} (item : Json → Except Mismatch α) : Json → Except Mismatch (List α)
  | .arr vs => decodeAll item vs
  | v => reject v .sequence

/-! ## Records -/

namespace RecordShape

/-- Whether a record has the field. -/
def hasField (shape : RecordShape) (name : String) : Bool :=
  shape.fields.any fun f => f.1 == name

/-- Takes up the members of an object one by one. `seen` holds the fields taken up so far. -/
def takeMembers {α : Type} (shape : RecordShape)
    (set : α → String → Json → Except Mismatch α) (a : α) (seen : List String) :
    List (String × Json) → Except Mismatch (α × List String)
  | [] => .ok (a, seen)
  | (name, v) :: ms =>
    if !shape.hasField name then shape.takeMembers set a seen ms
    else if seen.contains name then .error (.repeatedField name)
    else do
      let a ← set a name v
      shape.takeMembers set a (name :: seen) ms

/-- Takes up the items of an array, field by field; surplus items are left alone. -/
def takeItems {α : Type} (set : α → String → Json → Except Mismatch α) (a : α) :
    List (String × Bool) → List Json → Except Mismatch α
  | (name, _) :: fs, v :: vs => do
    let a ← set a name v
    takeItems set a fs vs
  | _, _ => .ok a

/-- The position of the first required field from `n` on. -/
def firstRequired (n : Nat) : List (String × Bool) → Option Nat
  | [] => none
  | (_, required) :: fs => if required then some n else firstRequired (n + 1) fs

/-- A record: `set` takes up one field, starting from `a`. -/
def decode {α : Type} (shape : RecordShape) (set : α → String → Json → Except Mismatch α) (a : α) :
    Json → Except Mismatch α
  | .obj ms => do
    let (a, seen) ← shape.takeMembers set a [] ms
    match shape.fields.find? fun f => f.2 && !seen.contains f.1 with
    | some f => .error (.missingField f.1)
    | none => return a
  | .arr vs => do
    let a ← takeItems set a shape.fields vs
    match firstRequired vs.length (shape.fields.drop vs.length) with
    | some n => .error (.tooShort n shape.name shape.fields.length)
    | none => if shape.fields.length < vs.length then .error .tooLong else return a
  | v => reject v (.record shape.name)

end RecordShape

/-! ## Documents -/

/-- Decodes a whole text. A text that is no document, or that cannot be looked at as a whole, is
invalid before it is anything else. -/
def decodeText {α : Type} (decode : Json → Except Mismatch α) (text : String) :
    Except Mismatch α :=
  match read? text with
  | none => .error .invalid
  | some v => match decode v with
    | .ok a => .ok a
    | .error e => if v.fits maxDepth then .error e else .error .invalid

end DataAccess.Json
