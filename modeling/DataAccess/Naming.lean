import DataAccess.Text.Split
import DataAccess.Unicode.CaseMap
import DataAccess.Unicode.LetterCase

set_option autoImplicit false

/-! # Naming styles

Names of models, attributes and parameters move between three styles: `PascalCase` (`pascal`),
`camelCase` (`camel`) and `snake_case` (`snake`). Letters change case by the full mappings, so a
character may become several. -/

namespace DataAccess.Naming

open DataAccess.Text DataAccess.Unicode

/-- The characters that separate the words of a name. -/
def isSeparator (c : Char) : Bool := c == '_' || c == '-' || c == '.' || c == ' '

/-- A word with its first character in upper case. -/
def capitalize : List Char → List Char
  | [] => []
  | c :: cs => upper c ++ cs

/-- The words of a name, capitalised and joined. -/
def pascalChars (cs : List Char) : List Char :=
  ((splitBy isSeparator cs).map capitalize).flatten

/-- A name in `PascalCase`. -/
def pascal (s : String) : String := String.ofList (pascalChars s.toList)

/-- A word with its first character in lower case. -/
def uncapitalize : List Char → List Char
  | [] => []
  | c :: cs => lower c ++ cs

/-- A name in `camelCase`. -/
def camel (s : String) : String := String.ofList (uncapitalize (pascalChars s.toList))

/-- The characters of a name in `snake_case`. An upper-case character opens a new word when the
character before it, told by `afterLower`, is lower case or a digit. -/
def snakeChars (afterLower : Bool) : List Char → List Char
  | [] => []
  | c :: cs =>
    if c == '-' || c == ' ' || c == '.' then '_' :: snakeChars false cs
    else if isUpper c then
      (if afterLower then ['_'] else []) ++ lower c ++ snakeChars false cs
    else c :: snakeChars (isLower c || c.isDigit) cs

/-- A name in `snake_case`. -/
def snake (s : String) : String := String.ofList (snakeChars false s.toList)

end DataAccess.Naming
