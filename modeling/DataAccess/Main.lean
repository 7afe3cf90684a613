import DataAccess.CommandLine.Run

set_option autoImplicit false

/-! # The program

Reads what a command line needs from the disk, carries it out, writes what has changed, and
prints. -/

namespace DataAccess.Main

open CommandLine (Invocation)

/-- How the program is called. -/
def usage : String :=
  "usage: dalgen [-v] compile [-d DIR] [--dialect NAME] [-o DIR] [-p NAME] [-m PATH]\n" ++
  "       dalgen [-v] check [-d DIR] [--dialect NAME]\n" ++
  "       dalgen [-v] sql [-d DIR] [--dialect NAME] [--model NAME]"

/-- How much of a directory is read. -/
inductive Depth where
  | entries
  | everything

/-- The rooted path of a place. -/
def pathOf (place : Place) : String := Path.joinAll "/" place

/-- What stands at a place. -/
partial def readTree (depth : Depth) (place : Place) : IO Tree := do
  let target := (← IO.currentDir) / pathOf place
  if ← target.isDir then
    let entries ← target.readDir
    let trees ← entries.toList.mapM fun e => do
      let inner := place ++ [e.fileName]
      match depth with
      | .everything => return (e.fileName, ← readTree depth inner)
      | .entries =>
        if ← ((← IO.currentDir) / pathOf inner).isDir then return (e.fileName, .dir [])
        else return (e.fileName, ← readTree depth inner)
    return .dir trees
  else return .file (String.fromUTF8? (← IO.FS.readBinFile target))

/-- Adds what stands at a place to a picture of the disk, unless the picture shows it. -/
def discover (disk : Disk) (place : Place) : IO Disk := do
  let target := (← IO.currentDir) / pathOf place
  if (disk.root.get? place).isSome || !(← target.pathExists) then return disk
  else return disk.graft (if ← target.isDir then .dir [] else .file none) place

/-- Adds what is met on the way along some names, and what stands at their end. -/
def observe (depth : Depth) (disk : Disk) (place : Place) : List String → IO Disk
  | [] => return disk.graft (← readTree depth place) place
  | name :: names => do
    let disk ← if name = Path.here || name = Path.above then pure disk
      else discover disk (place ++ [name])
    match disk.step place name with
    | .ok place => observe depth disk place names
    | .error _ => return disk

/-- A picture of the disk that shows the working directory and what an invocation looks at. -/
def look (i : Invocation) : IO Disk := do
  let home := Path.steps (← IO.currentDir).toString
  let disk : Disk := { root := Tree.graft (.dir []) home (.dir []), home }
  let add (depth : Depth) (path : String) (disk : Disk) : IO Disk :=
    observe depth disk (disk.start path) (Path.steps path)
  match i with
  | .compile c => add .everything c.modelDir (← add .entries c.outDir disk)
  | .check c => add .everything c.modelDir disk
  | .sql c _ => add .everything c.modelDir disk

/-- Makes the directories and writes the files that are new or have changed. -/
def writeChanges (before after : Disk) : IO Unit := do
  for e in after.root.listing do
    let target := (← IO.currentDir) / pathOf e.path
    match e with
    | .directory path => if (before.root.get? path).isNone then IO.FS.createDir target
    | .file f =>
      if before.root.text? f.path != some f.text then IO.FS.writeFile target (f.text.getD "")

/-- Carries an invocation out. -/
def execute (i : Invocation) : IO UInt32 := do
  let start ← IO.monoMsNow
  let disk ← look i
  let (result, after) := i.perform disk
  writeChanges disk after
  let elapsed := (← IO.monoMsNow) - start
  IO.print (CommandLine.unlines (result.lines (toString elapsed)))
  if let some e := result.error? then
    for cause in e.chain do
      IO.eprintln (cause.code ++ ": " ++ cause.message)
    if let some help := e.root.help? then
      IO.eprintln ("help: " ++ help)
  return result.exitCode.toUInt32

end DataAccess.Main

/-- Runs the program. -/
def main (args : List String) : IO UInt32 := do
  match DataAccess.CommandLine.Invocation.parse args with
  | .ok i => DataAccess.Main.execute i
  | .error .help =>
    IO.println DataAccess.Main.usage
    return 0
  | .error .usage =>
    IO.eprintln DataAccess.Main.usage
    return 2
