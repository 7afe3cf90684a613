import DataAccess.Generation.Names
import DataAccess.Validation.Resolution
import DataAccess.Validation.Structure

set_option autoImplicit false

/-! # Validation of a run

All models of a run become one Go package: their methods need different names, and so does
everything else that is declared for them. `validate` makes all checks and resolves the models. -/

namespace DataAccess.Validation

open Generation (Declared declaredNames reservedNames)

/-- Checks that no method has the name of a method of another model, and adds the methods to the
owners so far. -/
def checkOwners (model : String) (owners : List (String × String)) :
    List Method → Except CompileError (List (String × String))
  | [] => .ok owners
  | m :: ms => match owners.lookup m.name with
    | some owner =>
      if owner = model then checkOwners model owners ms
      else .error (.inModel model (.duplicateMethod m.name))
    | none => checkOwners model ((m.name, model) :: owners) ms

/-- Checks that no name is declared already, and adds the names to those declared so far. -/
def checkDeclared (model : String) (declared : List (String × String)) :
    List Declared → Except CompileError (List (String × String))
  | [] => .ok declared
  | d :: ds => match declared.lookup d.name with
    | some first => .error (.inModel model (.identifierCollision d.name first d.role))
    | none => checkDeclared model ((d.name, d.role) :: declared) ds

/-- Checks the names of the models one after the other. -/
def checkPackage (owners declared : List (String × String)) :
    List Model → Except CompileError Unit
  | [] => .ok ()
  | m :: ms => do
    let owners ← checkOwners m.name owners m.access.methods
    let declared ← checkDeclared m.name declared (declaredNames m)
    checkPackage owners declared ms

/-- The names that are taken from the start. -/
def reservedDeclarations : List (String × String) :=
  reservedNames.map fun name => (name, "the generated package")

/-- Checks every model. -/
def checkStructures : List Model → Except CompileError Unit
  | [] => .ok ()
  | m :: ms => do
    checkStructure m
    checkStructures ms

/-- Checks the models of a run and resolves them. -/
def validate (models : List Model) (r : Registry) : Except CompileError (List Resolved) := do
  checkModelNames [] models
  checkStructures models
  checkPackage [] reservedDeclarations models
  models.mapM (resolveModel r)

end DataAccess.Validation
