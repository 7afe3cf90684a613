import DataAccess.Error
import DataAccess.Go.Identifier
import DataAccess.Model.Basic

set_option autoImplicit false

/-! # The structure of a model

Checks that look at one model, or only at the names of all models, and need no registry. The first
violation in document order is the answer. -/

namespace DataAccess.Validation

open Go (exported isIdentifier)

/-- Checks that no two models have the same name; `seen` holds the names so far. -/
def checkModelNames (seen : List String) : List Model → Except CompileError Unit
  | [] => .ok ()
  | m :: ms =>
    if seen.contains m.name then .error (.duplicateModel m.name)
    else checkModelNames (m.name :: seen) ms

/-- Checks that every parameter can be a field of one struct: its exported name is an identifier,
and no other parameter has the same. `fields` holds the fields so far with their parameters. -/
def checkParameters (fields : List (String × String)) : List String → Except CompileError Unit
  | [] => .ok ()
  | p :: ps =>
    let field := exported p
    if !isIdentifier field then .error (.invalidIdentifier p "a parameter")
    else match fields.lookup field with
      | some first =>
        if first = p then checkParameters fields ps
        else .error (.identifierCollision field ("parameter '" ++ first ++ "'")
          ("parameter '" ++ p ++ "'"))
      | none => checkParameters ((field, p) :: fields) ps

mutual

/-- Checks that every negation in a filter has exactly one part. -/
def checkFilter : Filter → Except CompileError Unit
  | .compare _ => .ok ()
  | .group op fs =>
    if op = .not ∧ fs.length ≠ 1 then .error (.negationArity fs.length)
    else checkFilters fs

/-- Checks several filters. -/
def checkFilters : List Filter → Except CompileError Unit
  | [] => .ok ()
  | f :: fs => do
    checkFilter f
    checkFilters fs

end

/-- Checks that a method that writes has something to write. -/
def checkContent : Method → Except CompileError Unit
  | .update m =>
    if m.set.isEmpty && m.increment.isEmpty && m.timestamp.isEmpty then .error .emptySet
    else .ok ()
  | .add m => if m.values.isEmpty then .error .emptyValues else .ok ()
  | .addOrReplace m => if m.values.isEmpty then .error .emptyValues else .ok ()
  | .find _ => .ok ()
  | .delete _ => .ok ()

/-- Checks the name of a method. -/
def checkMethodName (name : String) : Except CompileError Unit :=
  if (Text.trim name).isEmpty then .error .emptyMethodName
  else if !isIdentifier name then .error (.invalidIdentifier name "an access method")
  else .ok ()

/-- Checks one method. -/
def checkMethod (m : Method) : Except CompileError Unit := do
  checkMethodName m.name
  checkParameters [] m.parameters
  checkFilters m.filters
  checkContent m

/-- Checks methods and that no two of them have the same name; `seen` holds the names so far. -/
def checkMethods (model : String) (seen : List String) : List Method → Except CompileError Unit
  | [] => .ok ()
  | m :: ms => do
    (checkMethod m).mapError (.inMethod model m.name)
    if seen.contains m.name then .error (.inModel model (.duplicateMethod m.name))
    else checkMethods model (m.name :: seen) ms

/-- Checks one model. -/
def checkStructure (m : Model) : Except CompileError Unit :=
  if !isIdentifier (exported m.name) then
    .error (.inModel m.name (.invalidIdentifier m.name "a model"))
  else checkMethods m.name [] m.access.methods

end DataAccess.Validation
