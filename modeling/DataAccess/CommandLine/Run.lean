import DataAccess.CommandLine.Arguments
import DataAccess.CommandLine.Display

set_option autoImplicit false

/-! # Running a command line

`Invocation.perform` carries an invocation out on a disk. Its `Result` knows the exit code and what
is printed. `run` does all of this for a command line. -/

namespace DataAccess.CommandLine

/-- What comes of an invocation. -/
inductive Result where
  | compiled (outDir : String) (report : Except CompileError Report)
  | checked (report : Except CompileError Report)
  | listed (model : Option String)
      (statements : Except CompileError (List (String × List Sql.Statement)))

/-- Carries an invocation out; the disk comes back as it is left. -/
def Invocation.perform (disk : Disk) : Invocation → Result × Disk
  | .compile c =>
    let (report, after) := Compiler.compile c disk
    (.compiled c.outDir report, after)
  | .check c => (.checked (Compiler.check c disk), disk)
  | .sql c model => (.listed model (Compiler.statements c disk), disk)

namespace Result

/-- The failure of a run. -/
def error? : Result → Option CompileError
  | .compiled _ (.error e) => some e
  | .checked (.error e) => some e
  | .listed _ (.error e) => some e
  | _ => none

/-- The exit code of a run. -/
def exitCode (r : Result) : Nat := if r.error?.isSome then 1 else 0

/-- The lines that a run prints. `elapsed` is the time it took, in milliseconds. -/
def lines (elapsed : String) : Result → List String
  | .compiled outDir (.ok report) => compileLines outDir elapsed report
  | .compiled _ (.error _) => failureLines
  | .checked (.ok report) => checkLines report
  | .checked (.error _) => failureLines
  | .listed model (.ok statements) => sqlLines model statements
  | .listed _ (.error _) => []

end Result

/-- What comes of a command line. -/
structure Outcome where
  exitCode : Nat
  stdout : String
  disk : Disk

/-- The exit code for a command line that is not carried out. -/
def Refusal.exitCode : Refusal → Nat
  | .help => 0
  | .usage => 2

/-- Carries a command line out. -/
def run (elapsed : String) (args : List String) (disk : Disk) : Outcome :=
  match Invocation.parse args with
  | .error r => ⟨r.exitCode, "", disk⟩
  | .ok i =>
    let (result, after) := i.perform disk
    ⟨result.exitCode, unlines (result.lines elapsed), after⟩

end DataAccess.CommandLine
