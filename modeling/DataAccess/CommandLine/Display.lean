import DataAccess.Compiler
import DataAccess.Text.Layout

set_option autoImplicit false

/-! # What the command line prints

The lines that the three commands print to standard output. -/

namespace DataAccess.CommandLine

/-- Lines as a text. -/
def unlines (lines : List String) : String := String.join (lines.map (· ++ "\n"))

/-! ## The box with the models -/

/-- The width of the box inside its frame. -/
def boxWidth : Nat := 53

/-- Several dashes of the frame. -/
def dashes (count : Nat) : String := String.ofList (List.replicate count '─')

/-- The upper edge of the box with its title. -/
def boxHeader (title : String) : String :=
  let label := " " ++ title ++ " "
  "  ╭─" ++ label ++ dashes (boxWidth + 2 - (label.length + 4)) ++ "╮"

/-- A line in the box. -/
def boxLine (content : String) : String := "  │ " ++ Text.padRight boxWidth content ++ "│"

/-- The lower edge of the box. -/
def boxFooter : String := "  ╰" ++ dashes boxWidth ++ "╯"

/-- The line of a model with its number of methods. -/
def modelLine (name : String) (methods : Nat) : String :=
  "◆ " ++ Text.padRight 30 name ++ " · " ++ toString methods ++
    if methods = 1 then " method" else " methods"

/-! ## Reports -/

/-- The lines about dropped filters. -/
def warningLines (warnings : List Warning) : List String :=
  if warnings.isEmpty then []
  else warnings.map (fun w => "  ▸ " ++ w.message) ++
    ["", "  ◇ Dropped filters no longer narrow their query. Check the operator names.", ""]

/-- The lines when nothing came of a run. -/
def failureLines : List String := ["", "  ◆ Generation aborted. No files were written.", ""]

/-- The lines after a package was written. -/
def compileLines (outDir elapsed : String) (r : Report) : List String :=
  [boxHeader "MODELS", boxLine ""] ++ r.modelMethods.map (fun m => boxLine (modelLine m.1 m.2)) ++
    [boxLine "", boxFooter, ""] ++ warningLines r.warnings ++
    ["  ◉ Wrote " ++ toString r.files ++ " files to " ++ outDir,
     "  ◇ Done in " ++ elapsed ++ "ms"]

/-- The lines after models were checked. -/
def checkLines (r : Report) : List String :=
  ["  ◉ Models are valid.", "",
   "    " ++ toString r.models ++ " models · " ++ toString r.methods ++ " methods · " ++
     toString r.warnings.length ++ " warnings", ""] ++
    warningLines r.warnings

/-! ## Statements -/

/-- The line with the bind values of a statement. -/
def parameterLines (params : List Sql.Parameter) : List String :=
  if params.isEmpty then []
  else ["-- params: " ++ String.intercalate ", " (params.map Sql.Parameter.text)]

/-- The lines of a statement. -/
def statementLines (model : String) (s : Sql.Statement) : List String :=
  ["-- " ++ model ++ "." ++ s.name ++ " (" ++ s.kind.text ++ ")", s.sql] ++
    parameterLines s.params ++ s.warnings.map (fun w => "-- warning: " ++ w.message) ++ [""]

/-- The lines of all statements, or of those of one model. -/
def sqlLines (only : Option String) (models : List (String × List Sql.Statement)) : List String :=
  let chosen := models.filter fun m => only.all (· == m.1)
  match chosen.flatMap fun m => m.2.flatMap (statementLines m.1), only with
  | [], some name => ["  No access methods found for model '" ++ name ++ "'."]
  | [], none => ["  No access methods found."]
  | lines, _ => lines

end DataAccess.CommandLine
