import DataAccess.Naming
import DataAccess.Unicode.Alphabetic
import DataAccess.Unicode.Numeric

set_option autoImplicit false

/-! # Go identifiers

Which texts may name a Go declaration (`isIdentifier`), how a name is spelled when it is exported
from its package (`exported`), and the customary receiver variable of a type (`receiverName`). -/

namespace DataAccess.Go

open DataAccess.Naming DataAccess.Text DataAccess.Unicode

/-- The reserved words of Go; none may name a declaration. -/
def keywords : List String :=
  ["break", "case", "chan", "const", "continue", "default", "defer", "else", "fallthrough", "for",
   "func", "go", "goto", "if", "import", "interface", "map", "package", "range", "return",
   "select", "struct", "switch", "type", "var"]

/-- The characters an identifier may start with. -/
def isIdentifierStart (c : Char) : Bool := isAlphabetic c || c == '_'

/-- The characters an identifier may go on with. -/
def isIdentifierPart (c : Char) : Bool := isAlphabetic c || isNumeric c || c == '_'

/-- Whether the characters have the shape of an identifier, reserved words and the blank identifier
included. -/
def identifierShape : List Char → Bool
  | [] => false
  | c :: cs => isIdentifierStart c && cs.all isIdentifierPart

/-- Whether a text can name a Go declaration: it has the shape of an identifier and is neither the
blank identifier nor a reserved word. -/
def isIdentifier (s : String) : Bool :=
  identifierShape s.toList && s != "_" && !keywords.contains s

/-- The words Go style keeps in capitals. -/
def initialisms : List String := ["id", "sql", "url", "uuid", "api", "http", "json", "ip"]

/-- One word of an exported name. -/
def exportedWord (word : String) : String :=
  if initialisms.contains word then upperText word else pascal word

/-- The words of a name: the non-empty pieces between the underscores of its `snake_case` form. -/
def exportedWords (s : String) : List String :=
  ((splitBy (· == '_') (snake s).toList).filter fun w => !w.isEmpty).map String.ofList

/-- The exported spelling of a name: `user_id` becomes `UserID`. -/
def exported (s : String) : String := String.join ((exportedWords s).map exportedWord)

/-- The customary receiver variable of a type: its first letter, in lower case if it is ASCII. -/
def receiverName (typeName : String) : String :=
  match typeName.toList with
  | [] => "r"
  | c :: _ => String.singleton c.toLower

end DataAccess.Go
