import DataAccess.Unicode.CodeSet

set_option autoImplicit false

/-! # White space

The property `White_Space` of the Unicode standard. -/

namespace DataAccess.Unicode

/-- The white-space code points, ascending. -/
def blank : CodeSet :=
  [(0x9, 0xD), (0x20, 0x20), (0x85, 0x85), (0xA0, 0xA0), (0x1680, 0x1680), (0x2000, 0x200A),
   (0x2028, 0x2029), (0x202F, 0x202F), (0x205F, 0x205F), (0x3000, 0x3000)]

/-- Whether a character is white space. -/
def isBlank (c : Char) : Bool := blank.contains c

end DataAccess.Unicode
