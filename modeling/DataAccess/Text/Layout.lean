import DataAccess.Text.Split

set_option autoImplicit false

/-! # Laying out texts

Indentation by tabs (`indent`) and padding to a column (`padRight`). -/

namespace DataAccess.Text

/-- A line moved right by `depth` tabs; an empty line stays empty. -/
def indentLine (depth : Nat) (line : String) : String :=
  if line.isEmpty then line else String.ofList (List.replicate depth '\t') ++ line

/-- Every line of a text moved right by `depth` tabs. -/
def indent (depth : Nat) (text : String) : String :=
  String.intercalate "\n" ((lines text).map (indentLine depth))

/-- A text followed by as many blanks as bring it to `width` characters. -/
def padRight (width : Nat) (s : String) : String :=
  s ++ String.ofList (List.replicate (width - s.length) ' ')

end DataAccess.Text
