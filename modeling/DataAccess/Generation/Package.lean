import DataAccess.Generation.GoMod
import DataAccess.Generation.ModelUnit
import DataAccess.Generation.Schema
import DataAccess.Generation.SupportFile

set_option autoImplicit false

/-! # The generated package

All files of a run: one for every model, the support file, the schema and the module file. -/

namespace DataAccess.Generation

open Go (ImportSet)
open Sql (Dialect)

/-- A file with its content. -/
structure TextFile where
  name : String
  text : String
  deriving DecidableEq

/-- The files of a run and the warnings of all its statements. -/
structure GeneratedPackage where
  files : List TextFile
  warnings : List Warning

/-- The content of the first file with a name. -/
def GeneratedPackage.file? (p : GeneratedPackage) (name : String) : Option String :=
  (p.files.find? (·.name == name)).map TextFile.text

/-- The name of the support file. -/
def supportFileName : String := "dalgen.go"

/-- The name of the schema. -/
def schemaFileName : String := "schema.sql"

/-- The name of the module file. -/
def goModFileName : String := "go.mod"

/-- The file of a unit. -/
def unitFile (package : String) (u : ModelUnit) : TextFile :=
  ⟨u.fileName, (u.sourceFile package).render⟩

/-- The imports of all units. -/
def packageImports (package : String) (units : List ModelUnit) : ImportSet :=
  units.foldl (fun s u => s.extend (u.sourceFile package).importSet) {}

/-- Generates the package of several models. -/
def generate (package modulePath : String) (d : Dialect) (models : List Resolved) :
    Except CompileError GeneratedPackage := do
  let units ← models.mapM (modelUnit d)
  let support ← supportFile package
  return {
    files := units.map (unitFile package) ++
      [⟨supportFileName, support.render⟩, ⟨schemaFileName, schemaText d models⟩,
       ⟨goModFileName, goMod modulePath (packageImports package units).dependencies⟩]
    warnings := units.flatMap ModelUnit.warnings }

end DataAccess.Generation
