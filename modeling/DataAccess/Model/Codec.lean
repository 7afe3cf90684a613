import DataAccess.Json.Decode
import DataAccess.Model.Basic
import DataAccess.Model.Registry

set_option autoImplicit false

/-! # Models and registries as JSON

Every description type has a JSON form: `toJson` writes it in full, leaving out only an absent
schema or transformation, and `ofJson` reads it, taking defaults for what is left out. Operators
and storage types are written in their canonical spelling.

A filter is read as a group if it can be, as a comparison otherwise; what is wrong with it inside is
not told. It is the only part that nests without bound, so its reader counts levels. -/

namespace DataAccess

open Json (Mismatch RecordShape)

/-! ## Writing -/

/-- A list of texts. -/
def Json.ofStrings (ss : List String) : Json := .arr (ss.map .str)

mutual

/-- A filter as JSON. -/
def Filter.toJson : Filter → Json
  | .compare c =>
    .obj (("attribute", .str c.attr) ::
      (c.transformation.toList.map fun t => ("transformation", Json.str t)) ++
      [("operator", .str c.operator.spelling), ("parameter", .str c.parameter)])
  | .group op fs => .obj [("operator", .str op.spelling), ("filters", .arr (Filter.allToJson fs))]

/-- Several filters as JSON. -/
def Filter.allToJson : List Filter → List Json
  | [] => []
  | f :: fs => f.toJson :: Filter.allToJson fs

end

/-- An assignment as JSON. -/
def Assignment.toJson (a : Assignment) : Json :=
  .obj [("attribute", .str a.attr), ("parameter", .str a.parameter)]

/-- A list of assignments as JSON. -/
def Assignment.allToJson (as : List Assignment) : Json := .arr (as.map toJson)

def Find.toJson (m : Find) : Json :=
  .obj [("name", .str m.name), ("attributes", .ofStrings m.attributes),
    ("filters", .arr (Filter.allToJson m.filters))]

def Update.toJson (m : Update) : Json :=
  .obj [("name", .str m.name), ("filters", .arr (Filter.allToJson m.filters)),
    ("set", Assignment.allToJson m.set), ("increment", .ofStrings m.increment),
    ("timestamp", .ofStrings m.timestamp)]

def Add.toJson (m : Add) : Json :=
  .obj [("name", .str m.name), ("values", Assignment.allToJson m.values)]

def Upsert.toJson (m : Upsert) : Json :=
  .obj [("name", .str m.name), ("values", Assignment.allToJson m.values),
    ("conflict", .ofStrings m.conflict)]

def Delete.toJson (m : Delete) : Json :=
  .obj [("name", .str m.name), ("filters", .arr (Filter.allToJson m.filters))]

def Access.toJson (a : Access) : Json :=
  .obj [("find", .arr (a.find.map Find.toJson)), ("update", .arr (a.update.map Update.toJson)),
    ("add", .arr (a.add.map Add.toJson)),
    ("add_or_replace", .arr (a.addOrReplace.map Upsert.toJson)),
    ("delete", .arr (a.delete.map Delete.toJson))]

def Model.toJson (m : Model) : Json :=
  .obj (("name", .str m.name) :: (m.schema.toList.map fun s => ("namespace", Json.str s)) ++
    [("attributes", .ofStrings m.attributes), ("indexes", .arr (m.indexes.map Json.ofStrings)),
     ("access", m.access.toJson)])

def Attribute.toJson (a : Attribute) : Json :=
  .obj [("id", .str a.id), ("name", .str a.name), ("type", .str a.type.name),
    ("validations", .ofStrings a.validations)]

def Registry.toJson (r : Registry) : Json :=
  .obj [("attributes", .arr (r.attributes.map Attribute.toJson))]

/-! ## Reading filters -/

/-- The form of a group. -/
def Filter.groupShape : RecordShape := ⟨"group", [("operator", true), ("filters", true)]⟩

/-- Takes up one field of a group; `item` reads the filters inside it. -/
def Filter.setGroup (item : Json → Except Mismatch Filter) (g : Connective × List Filter) :
    String → Json → Except Mismatch (Connective × List Filter)
  | "operator", v => do return (Connective.parse (← v.string), g.2)
  | "filters", v => do return (g.1, ← v.list item)
  | _, _ => .ok g

/-- The form of a comparison. -/
def Comparison.shape : RecordShape :=
  ⟨"comparison",
    [("attribute", true), ("transformation", false), ("operator", true), ("parameter", true)]⟩

/-- Takes up one field of a comparison. -/
def Comparison.set (c : Comparison) : String → Json → Except Mismatch Comparison
  | "attribute", v => do return { c with attr := ← v.string }
  | "transformation", v => do return { c with transformation := ← v.optionalString }
  | "operator", v => do return { c with operator := Operator.parse (← v.string) }
  | "parameter", v => do return { c with parameter := ← v.string }
  | _, _ => .ok c

/-- Reads a filter that nests at most `levels` deep. -/
def Filter.ofJson : Nat → Json → Except Mismatch Filter
  | 0, _ => .error .noFilter
  | levels + 1, v =>
    match groupShape.decode (setGroup (Filter.ofJson levels)) default v with
    | .ok (op, fs) => .ok (.group op fs)
    | .error _ => match Comparison.shape.decode Comparison.set default v with
      | .ok c => .ok (.compare c)
      | .error _ => .error .noFilter

/-- Reads a filter at a place of a document that leaves room for `levels` more levels. A filter is
taken in as a whole before it is told apart, so nothing in it may denote nothing. -/
def Filter.decode (levels : Nat) (v : Json) : Except Mismatch Filter :=
  if v.fits levels then Filter.ofJson levels v else .error .invalid

/-! ## Reading models

A filter inside a model stands below five levels: the model, its access methods, the methods of one
kind, the method, and its list of filters. -/

/-- The levels above the filters of a model. -/
def levelsAboveFilters : Nat := 5

def Assignment.shape : RecordShape := ⟨"Assignment", [("attribute", true), ("parameter", true)]⟩

def Assignment.set (a : Assignment) : String → Json → Except Mismatch Assignment
  | "attribute", v => do return { a with attr := ← v.string }
  | "parameter", v => do return { a with parameter := ← v.string }
  | _, _ => .ok a

def Assignment.ofJson (v : Json) : Except Mismatch Assignment := shape.decode set default v

def Find.shape : RecordShape :=
  ⟨"FindConfig", [("name", true), ("attributes", false), ("filters", false)]⟩

def Find.setField (levels : Nat) (m : Find) : String → Json → Except Mismatch Find
  | "name", v => do return { m with name := ← v.string }
  | "attributes", v => do return { m with attributes := ← v.list Json.string }
  | "filters", v => do return { m with filters := ← v.list (Filter.decode levels) }
  | _, _ => .ok m

def Find.ofJson (levels : Nat) (v : Json) : Except Mismatch Find :=
  shape.decode (setField levels) default v

def Update.shape : RecordShape :=
  ⟨"UpdateConfig",
    [("name", true), ("filters", false), ("set", false), ("increment", false),
     ("timestamp", false)]⟩

def Update.setField (levels : Nat) (m : Update) : String → Json → Except Mismatch Update
  | "name", v => do return { m with name := ← v.string }
  | "filters", v => do return { m with filters := ← v.list (Filter.decode levels) }
  | "set", v => do return { m with set := ← v.list Assignment.ofJson }
  | "increment", v => do return { m with increment := ← v.list Json.string }
  | "timestamp", v => do return { m with timestamp := ← v.list Json.string }
  | _, _ => .ok m

def Update.ofJson (levels : Nat) (v : Json) : Except Mismatch Update :=
  shape.decode (setField levels) default v

def Add.shape : RecordShape := ⟨"AddConfig", [("name", true), ("values", false)]⟩

def Add.setField (m : Add) : String → Json → Except Mismatch Add
  | "name", v => do return { m with name := ← v.string }
  | "values", v => do return { m with values := ← v.list Assignment.ofJson }
  | _, _ => .ok m

def Add.ofJson (v : Json) : Except Mismatch Add := shape.decode setField default v

def Upsert.shape : RecordShape :=
  ⟨"AddOrReplaceConfig", [("name", true), ("values", false), ("conflict", false)]⟩

def Upsert.setField (m : Upsert) : String → Json → Except Mismatch Upsert
  | "name", v => do return { m with name := ← v.string }
  | "values", v => do return { m with values := ← v.list Assignment.ofJson }
  | "conflict", v => do return { m with conflict := ← v.list Json.string }
  | _, _ => .ok m

def Upsert.ofJson (v : Json) : Except Mismatch Upsert := shape.decode setField default v

def Delete.shape : RecordShape := ⟨"DeleteConfig", [("name", true), ("filters", false)]⟩

def Delete.setField (levels : Nat) (m : Delete) : String → Json → Except Mismatch Delete
  | "name", v => do return { m with name := ← v.string }
  | "filters", v => do return { m with filters := ← v.list (Filter.decode levels) }
  | _, _ => .ok m

def Delete.ofJson (levels : Nat) (v : Json) : Except Mismatch Delete :=
  shape.decode (setField levels) default v

def Access.shape : RecordShape :=
  ⟨"AccessConfig",
    [("find", false), ("update", false), ("add", false), ("add_or_replace", false),
     ("delete", false)]⟩

def Access.setField (levels : Nat) (a : Access) : String → Json → Except Mismatch Access
  | "find", v => do return { a with find := ← v.list (Find.ofJson levels) }
  | "update", v => do return { a with update := ← v.list (Update.ofJson levels) }
  | "add", v => do return { a with add := ← v.list Add.ofJson }
  | "add_or_replace", v => do return { a with addOrReplace := ← v.list Upsert.ofJson }
  | "delete", v => do return { a with delete := ← v.list (Delete.ofJson levels) }
  | _, _ => .ok a

def Access.ofJson (levels : Nat) (v : Json) : Except Mismatch Access :=
  shape.decode (setField levels) default v

def Model.shape : RecordShape :=
  ⟨"Model",
    [("name", true), ("namespace", false), ("attributes", false), ("indexes", false),
     ("access", false)]⟩

def Model.setField (levels : Nat) (m : Model) : String → Json → Except Mismatch Model
  | "name", v => do return { m with name := ← v.string }
  | "namespace", v => do return { m with schema := ← v.optionalString }
  | "attributes", v => do return { m with attributes := ← v.list Json.string }
  | "indexes", v => do return { m with indexes := ← v.list (Json.list Json.string) }
  | "access", v => do return { m with access := ← Access.ofJson levels v }
  | _, _ => .ok m

/-- Reads a model from a document that nests at most `levels` deep. -/
def Model.ofJson (levels : Nat) (v : Json) : Except Mismatch Model :=
  shape.decode (setField (levels - levelsAboveFilters)) default v

/-! ## Reading registries -/

/-- Reads a storage type. -/
def StorageType.ofJson (v : Json) : Except Mismatch StorageType := do
  let name ← v.string
  match StorageType.parse? name with
  | some t => return t
  | none => .error (.unknownStorageType name)

def Attribute.shape : RecordShape :=
  ⟨"Attribute", [("id", true), ("name", true), ("type", true), ("validations", false)]⟩

def Attribute.set (a : Attribute) : String → Json → Except Mismatch Attribute
  | "id", v => do return { a with id := ← v.string }
  | "name", v => do return { a with name := ← v.string }
  | "type", v => do return { a with type := ← StorageType.ofJson v }
  | "validations", v => do return { a with validations := ← v.list Json.string }
  | _, _ => .ok a

def Attribute.ofJson (v : Json) : Except Mismatch Attribute := shape.decode set default v

def Registry.shape : RecordShape := ⟨"StaticRegistry", [("attributes", false)]⟩

def Registry.set (r : Registry) : String → Json → Except Mismatch Registry
  | "attributes", v => do return { r with attributes := ← v.list Attribute.ofJson }
  | _, _ => .ok r

/-- Reads a registry; its index is still to be built. -/
def Registry.ofJson (v : Json) : Except Mismatch Registry := shape.decode set default v

/-! ## Reading documents -/

/-- Reads a filter from a text. -/
def Filter.ofText (text : String) : Except Mismatch Filter :=
  Json.decodeText (Filter.decode Json.maxDepth) text

/-- Reads an attribute from a text. -/
def Attribute.ofText (text : String) : Except Mismatch Attribute :=
  Json.decodeText Attribute.ofJson text

/-- Reads a registry from a text. -/
def Registry.ofText (text : String) : Except Mismatch Registry :=
  Json.decodeText Registry.ofJson text

/-- Reads a model from a text. -/
def Model.ofText (text : String) : Except Mismatch Model :=
  Json.decodeText (Model.ofJson Json.maxDepth) text

end DataAccess
