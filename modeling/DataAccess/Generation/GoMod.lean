import DataAccess.Go.Import

set_option autoImplicit false

/-! # The module file

The text of `go.mod`: the path of the generated module, the language version and the modules it
depends on. -/

namespace DataAccess.Generation

open Go (Dependency)

/-- The version of the Go language. -/
def goVersion : String := "1.22"

/-- A dependency as the module file requires it. -/
def requirement (d : Dependency) : String := d.name ++ " " ++ d.version

/-- The requirements of a module; one alone stands without parentheses. -/
def requirements : List Dependency → String
  | [] => ""
  | [d] => "\nrequire " ++ requirement d ++ "\n"
  | ds => "\nrequire (\n" ++ String.join (ds.map fun d => "\t" ++ requirement d ++ "\n") ++ ")\n"

/-- The module file. -/
def goMod (modulePath : String) (dependencies : List Dependency) : String :=
  "module " ++ modulePath ++ "\n\ngo " ++ goVersion ++ "\n" ++ requirements dependencies

end DataAccess.Generation
