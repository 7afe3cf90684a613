import DataAccess.Go.Declaration

set_option autoImplicit false

/-! # Source files

A `SourceFile` is a package clause and declarations. Its sections come in a fixed order with an
empty line between them: header, package clause, imports, variables, constants, structs, functions,
initialisation. -/

namespace DataAccess.Go

/-- The line that tells tools not to edit a file. -/
def generatedMarker : String := "Code generated by dalgen. DO NOT EDIT."

/-- A Go file. -/
structure SourceFile where
  package : String
  /-- Lines of the comment at the top. -/
  header : List String := [generatedMarker]
  /-- Imports beyond those of the declarations. -/
  extra : List Import := []
  vars : List Value := []
  consts : List Value := []
  structs : List Struct := []
  funcs : List Func := []
  /-- Statements that run when the program starts. -/
  init : List Node := []

namespace SourceFile

def imports (f : SourceFile) : List Import :=
  f.extra ++ f.vars.flatMap Value.imports ++ f.consts.flatMap Value.imports ++
    f.structs.flatMap Struct.imports ++ f.funcs.flatMap Func.imports ++ Node.allImports f.init

def importSet (f : SourceFile) : ImportSet := ImportSet.ofList f.imports

/-- The comment at the top. -/
def headerText (f : SourceFile) : String :=
  String.intercalate "\n" (f.header.map ("// " ++ ·))

/-- The sections that a file has only if they are not empty. -/
def optionalSections (f : SourceFile) : List String :=
  [f.importSet.block, Value.group "var" f.vars, Value.group "const" f.consts].filter
    fun s => !s.isEmpty

/-- The function that runs when the program starts. -/
def initSection (f : SourceFile) : List String :=
  if f.init.isEmpty then [] else [Func.render { name := "init", body := f.init }]

def sections (f : SourceFile) : List String :=
  (if f.header.isEmpty then [] else [f.headerText]) ++ ["package " ++ f.package] ++
    f.optionalSections ++ f.structs.map Struct.render ++ f.funcs.map Func.render ++ f.initSection

def render (f : SourceFile) : String := String.intercalate "\n\n" f.sections ++ "\n"

end SourceFile

end DataAccess.Go
