set_option autoImplicit false

/-! # Errors

`CompileError` lists the causes for which a run stops, and the contexts that are wrapped around
them. `message`, `code` and `help` word them, `root` is the cause inside all contexts and `chain`
lists everything from the outermost context to the cause. -/

namespace DataAccess

/-- Why a run stops. -/
inductive CompileError where
  | io (path reason : String)
  | parse (path reason : String)
  | unsupportedDialect (name : String)
  | unknownAttribute (id : String)
  | attributeNotInModel (column : String)
  | duplicateModel (name : String)
  | duplicateMethod (name : String)
  | invalidIdentifier (name role : String)
  | identifierCollision (name first second : String)
  | reservedColumn (column : String)
  | emptyMethodName
  | emptySet
  | emptyValues
  | conflictingCapture (assigned defined : List String)
  | conflictingCallMode (callee reason : String)
  | negationArity (children : Nat)
  /-- Something went wrong in a model. -/
  | inModel (model : String) (cause : CompileError)
  /-- Something went wrong in an access method. -/
  | inMethod (model method : String) (cause : CompileError)
  deriving DecidableEq

namespace CompileError

/-- The cause inside all contexts. -/
def root : CompileError → CompileError
  | .inModel _ cause => cause.root
  | .inMethod _ _ cause => cause.root
  | e => e

/-- The wording of an error, without what it wraps. -/
def message : CompileError → String
  | .io path reason => "Failed to access file '" ++ path ++ "': " ++ reason
  | .parse path reason => "Failed to parse '" ++ path ++ "': " ++ reason
  | .unsupportedDialect name => "Unsupported dialect: " ++ name
  | .unknownAttribute id => "Attribute '" ++ id ++ "' is not registered"
  | .attributeNotInModel column =>
    "Attribute '" ++ column ++ "' is selected but not declared on the model"
  | .duplicateModel name => "Duplicate model name: " ++ name
  | .duplicateMethod name => "Duplicate access method name: " ++ name
  | .invalidIdentifier name role => "'" ++ name ++ "' is not a valid Go identifier for " ++ role
  | .identifierCollision name first second =>
    "Generated Go name '" ++ name ++ "' is declared by both " ++ first ++ " and " ++ second
  | .reservedColumn column => "Attribute column '" ++ column ++ "' is reserved"
  | .emptyMethodName => "Access method has an empty name"
  | .emptySet => "Update has nothing to set"
  | .emptyValues => "Insert has no values"
  | .conflictingCapture assigned defined =>
    "Node both assigns to [" ++ String.intercalate ", " assigned ++ "] and defines [" ++
      String.intercalate ", " defined ++ "]"
  | .conflictingCallMode callee reason =>
    "Call to '" ++ callee ++ "' combines incompatible modes: " ++ reason
  | .negationArity children =>
    "NOT group must have exactly one child, found " ++ toString children
  | .inModel model _ => "In model '" ++ model ++ "'"
  | .inMethod model method _ => "In access method '" ++ model ++ "." ++ method ++ "'"

/-- The stable code of an error. -/
def code : CompileError → String
  | .io _ _ => "dalgen::io::access_failed"
  | .parse _ _ => "dalgen::config::parse_failed"
  | .unsupportedDialect _ => "dalgen::config::unsupported_dialect"
  | .unknownAttribute _ => "dalgen::config::unknown_attribute"
  | .attributeNotInModel _ => "dalgen::config::attribute_not_in_model"
  | .duplicateModel _ => "dalgen::config::duplicate_model"
  | .duplicateMethod _ => "dalgen::config::duplicate_method"
  | .invalidIdentifier _ _ => "dalgen::config::invalid_identifier"
  | .identifierCollision _ _ _ => "dalgen::config::identifier_collision"
  | .reservedColumn _ => "dalgen::config::reserved_column"
  | .emptyMethodName => "dalgen::config::empty_method_name"
  | .emptySet => "dalgen::config::empty_set"
  | .emptyValues => "dalgen::config::empty_values"
  | .conflictingCapture _ _ => "dalgen::ir::conflicting_capture"
  | .conflictingCallMode _ _ => "dalgen::ir::conflicting_call_mode"
  | .negationArity _ => "dalgen::filter::not_group_arity"
  | .inModel _ _ => "dalgen::model"
  | .inMethod _ _ _ => "dalgen::access_method"

/-- What to do about an error, where there is something to say. -/
def help? : CompileError → Option String
  | .parse _ _ =>
    some "Model files are JSON objects with `name`, `attributes` and `access` keys"
  | .unsupportedDialect _ => some "Supported dialects are `postgres` and `sqlite`"
  | .unknownAttribute _ =>
    some "Declare the attribute in attributes.json before referencing it from a model"
  | .attributeNotInModel _ => some "Add the attribute to the model's `attributes` list"
  | .duplicateMethod _ =>
    some "Access method names become Go function names and must be unique per model"
  | .invalidIdentifier _ _ =>
    some ("Names must start with a letter or underscore, contain only letters, digits and " ++
      "underscores, and not be a Go keyword")
  | .identifierCollision _ _ _ =>
    some "Every model, access method and parameter shares a Go namespace; rename one of them"
  | .reservedColumn _ =>
    some ("Every table already has `id`, `version` and `updated_at` columns; rename the " ++
      "attribute's column")
  | .emptySet => some "Provide at least one `set`, `increment` or `timestamp` attribute"
  | .conflictingCapture _ _ =>
    some ("A node captures its result either into existing variables or into new bindings, " ++
      "not both")
  | .negationArity _ =>
    some "Wrap multiple conditions in an AND or OR group inside the NOT"
  | _ => none

/-- Everything from the outermost context to the cause. -/
def chain : CompileError → List CompileError
  | .inModel model cause => .inModel model cause :: cause.chain
  | .inMethod model method cause => .inMethod model method cause :: cause.chain
  | e => [e]

end CompileError

end DataAccess
