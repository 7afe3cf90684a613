import DataAccess.Disk.Change
import DataAccess.Generation.Package
import DataAccess.ModelSet
import DataAccess.Validation.Package

set_option autoImplicit false

/-! # The compiler

What a run does with a model directory: list its statements (`statements`), check it (`check`), or
write the generated package (`compile`). Nothing is written before everything is generated. -/

namespace DataAccess

open Generation (GeneratedPackage TextFile)
open Sql (Dialect Statement)

/-- What a run is asked for. -/
structure Config where
  /-- The directory with the models and the registry. -/
  modelDir : String := "models"
  /-- The directory for the generated files. -/
  outDir : String := "dal"
  /-- The name of the Go package. -/
  package : String := "dal"
  /-- The path of the Go module. -/
  modulePath : String := "example.com/dal"
  /-- The name of the SQL dialect. -/
  dialect : String := "postgres"
  deriving DecidableEq, Inhabited

/-- What a run reports. -/
structure Report where
  models : Nat
  methods : Nat
  /-- The number of methods of each model. -/
  modelMethods : List (String × Nat)
  files : Nat
  warnings : List Warning
  deriving DecidableEq

namespace Compiler

/-- The number of methods of a model. -/
def methodCount (r : Resolved) : Nat := r.model.access.methods.length

/-- The number of methods of each model. -/
def methodCounts (models : List Resolved) : List (String × Nat) :=
  models.map fun r => (r.name, methodCount r)

/-- The statements of each model. -/
def compileModels (d : Dialect) (models : List Resolved) : List (String × List Statement) :=
  models.map fun r => (r.name, Sql.compileModel d r.model)

/-- The models of a directory, checked and resolved. -/
def resolve (c : Config) (disk : Disk) : Except CompileError (List Resolved) := do
  let set ← ModelSet.load disk c.modelDir
  Validation.validate set.models set.registry

/-- The statements of every model. -/
def statements (c : Config) (disk : Disk) : Except CompileError (List (String × List Statement)) := do
  let d ← Dialect.parse c.dialect
  let models ← resolve c disk
  return compileModels d models

/-- Checks the models without generating anything. -/
def check (c : Config) (disk : Disk) : Except CompileError Report := do
  let d ← Dialect.parse c.dialect
  let models ← resolve c disk
  let compiled := compileModels d models
  return {
    models := models.length
    methods := (compiled.map fun m => m.2.length).foldl (· + ·) 0
    modelMethods := methodCounts models
    files := 0
    warnings := compiled.flatMap fun m => m.2.flatMap Statement.warnings }

/-- Generates the package without writing it. -/
def generate (c : Config) (disk : Disk) : Except CompileError (GeneratedPackage × Report) := do
  let d ← Dialect.parse c.dialect
  let models ← resolve c disk
  let package ← Generation.generate c.package c.modulePath d models
  return (package, {
    models := models.length
    methods := (models.map methodCount).foldl (· + ·) 0
    modelMethods := methodCounts models
    files := package.files.length
    warnings := package.warnings })

/-- Writes files into a directory until one cannot be written. -/
def writeFiles (dir : String) (disk : Disk) : List TextFile → Except CompileError Unit × Disk
  | [] => (.ok (), disk)
  | f :: fs =>
    let path := Path.join dir f.name
    match disk.write path (some f.text) with
    | .error e => (.error (.io path e.message), disk)
    | .ok disk => writeFiles dir disk fs

/-- Makes the directory and writes files into it. -/
def writePackage (dir : String) (disk : Disk) (files : List TextFile) :
    Except CompileError Unit × Disk :=
  match disk.makeDirectories dir with
  | (.error e, disk) => (.error (.io dir e.message), disk)
  | (.ok (), disk) => writeFiles dir disk files

/-- Generates the package and writes it. The disk comes back as the run leaves it. -/
def compile (c : Config) (disk : Disk) : Except CompileError Report × Disk :=
  match generate c disk with
  | .error e => (.error e, disk)
  | .ok (package, report) =>
    let (written, disk) := writePackage c.outDir disk package.files
    (written.map fun _ => report, disk)

end Compiler

end DataAccess
