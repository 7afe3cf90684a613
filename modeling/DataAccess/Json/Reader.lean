import DataAccess.Json.Number

set_option autoImplicit false

/-! # Reading JSON

`read?` accepts exactly the documents of the JSON grammar: no comments, no trailing commas, no
leading zeros, no byte order mark, and nothing but white space after the value. It sets no limit
to the nesting; whether a document can be looked at is asked afterwards, by `Json.fits`.

A string is read in two steps: its characters and escapes (`Piece`), and then the text they spell,
where two escapes may form one character. -/

namespace DataAccess.Json

/-! ## White space, words and numbers -/

/-- The white space of JSON. -/
def isSpace (c : Char) : Bool := c == ' ' || c == '\t' || c == '\n' || c == '\r'

/-- What follows the white space. -/
def skipSpace (cs : List Char) : List Char := cs.dropWhile isSpace

/-- What follows the given characters. -/
def expect : List Char → List Char → Option (List Char)
  | [], cs => some cs
  | _ :: _, [] => none
  | p :: ps, c :: cs => if p = c then expect ps cs else none

/-- The leading decimal digits and what follows them. -/
def digits (cs : List Char) : List Nat × List Char :=
  ((cs.takeWhile Char.isDigit).map fun c => c.toNat - '0'.toNat, cs.dropWhile Char.isDigit)

/-- The digits before the point: a single zero, or no leading zero. -/
def wholePart (cs : List Char) : Option (List Nat × List Char) :=
  match digits cs with
  | ([], _) => none
  | (0 :: _ :: _, _) => none
  | r => some r

/-- The point and the digits after it, if there is a point. -/
def fractionPart : List Char → Option (Option (List Nat) × List Char)
  | '.' :: cs => match digits cs with
    | ([], _) => none
    | (ds, rest) => some (some ds, rest)
  | cs => some (none, cs)

/-- The sign of an exponent and what follows it. -/
def exponentSign : List Char → Bool × List Char
  | '-' :: cs => (true, cs)
  | '+' :: cs => (false, cs)
  | cs => (false, cs)

/-- The exponent, if there is one. -/
def exponentPart : List Char → Option (Option (Bool × List Nat) × List Char)
  | [] => some (none, [])
  | c :: cs =>
    if c = 'e' || c = 'E' then
      match digits (exponentSign cs).2 with
      | ([], _) => none
      | (ds, rest) => some (some ((exponentSign cs).1, ds), rest)
    else some (none, c :: cs)

/-- A number token without its sign. -/
def unsigned (negative : Bool) (cs : List Char) : Option (Json × List Char) := do
  let (whole, cs) ← wholePart cs
  let (fraction, cs) ← fractionPart cs
  let (exponent, cs) ← exponentPart cs
  return (Numeral.value { negative, whole, fraction, exponent }, cs)

/-- A number token. -/
def number : List Char → Option (Json × List Char)
  | '-' :: cs => unsigned true cs
  | cs => unsigned false cs

/-! ## Strings -/

/-- A character of a string token, or a code unit written as an escape. -/
inductive Piece where
  | char (c : Char)
  | unit (n : Nat)

/-- The value of a hexadecimal digit. -/
def hexDigit? (c : Char) : Option Nat :=
  if '0' ≤ c && c ≤ '9' then some (c.toNat - '0'.toNat)
  else if 'a' ≤ c && c ≤ 'f' then some (c.toNat - 'a'.toNat + 10)
  else if 'A' ≤ c && c ≤ 'F' then some (c.toNat - 'A'.toNat + 10)
  else none

/-- The value of four hexadecimal digits. -/
def hexUnit? (a b c d : Char) : Option Nat := do
  return ((← hexDigit? a) * 4096 + (← hexDigit? b) * 256 + (← hexDigit? c) * 16 + (← hexDigit? d))

/-- The character a short escape stands for. -/
def shortEscape? : Char → Option Char
  | '\"' => some '\"'
  | '\\' => some '\\'
  | '/' => some '/'
  | 'b' => some '\x08'
  | 'f' => some '\x0c'
  | 'n' => some '\n'
  | 'r' => some '\r'
  | 't' => some '\t'
  | _ => none

/-- The pieces up to the closing quote, and what follows it. -/
def stringPieces : List Char → Option (List Piece × List Char)
  | [] => none
  | '\"' :: cs => some ([], cs)
  | '\\' :: 'u' :: a :: b :: c :: d :: cs => do
    let n ← hexUnit? a b c d
    let (pieces, rest) ← stringPieces cs
    return (.unit n :: pieces, rest)
  | '\\' :: e :: cs => do
    let c ← shortEscape? e
    let (pieces, rest) ← stringPieces cs
    return (.char c :: pieces, rest)
  | c :: cs =>
    if c.toNat < 0x20 || c = '\\' then none
    else do
      let (pieces, rest) ← stringPieces cs
      return (.char c :: pieces, rest)

/-- Whether a code unit is the first half of a pair. -/
def isHighSurrogate (n : Nat) : Bool := 0xD800 ≤ n && n < 0xDC00

/-- Whether a code unit is the second half of a pair. -/
def isLowSurrogate (n : Nat) : Bool := 0xDC00 ≤ n && n < 0xE000

/-- The text that pieces spell, unless a surrogate stands alone. -/
def spell : List Piece → Option (List Char)
  | [] => some []
  | .char c :: ps => (spell ps).map (c :: ·)
  | .unit hi :: .unit lo :: ps =>
    if isHighSurrogate hi then
      if isLowSurrogate lo then
        (spell ps).map (Char.ofNat (0x10000 + (hi - 0xD800) * 0x400 + (lo - 0xDC00)) :: ·)
      else none
    else if isLowSurrogate hi then none
    else (spell (.unit lo :: ps)).map (Char.ofNat hi :: ·)
  | .unit n :: ps =>
    if isHighSurrogate n || isLowSurrogate n then none
    else (spell ps).map (Char.ofNat n :: ·)

/-- The text after an opening quote, if it spells one, and what follows the closing quote. -/
def quotedText (cs : List Char) : Option (Option String × List Char) := do
  let (pieces, rest) ← stringPieces cs
  return ((spell pieces).map String.ofList, rest)

/-! ## Values -/

mutual

/-- A value and what follows it. The fuel bounds the number of values, items and members. -/
def value : Nat → List Char → Option (Json × List Char)
  | 0, _ => none
  | fuel + 1, cs =>
    match skipSpace cs with
    | [] => none
    | '[' :: cs => match skipSpace cs with
      | ']' :: rest => some (.arr [], rest)
      | cs => do
        let (vs, rest) ← items fuel cs
        return (.arr vs, rest)
    | '\x7b' :: cs => match skipSpace cs with
      | '\x7d' :: rest => some (.obj [], rest)
      | cs => do
        let (ms, rest) ← members fuel cs
        return ((ms.map Json.obj).getD .void, rest)
    | '\"' :: cs => do
      let (text, rest) ← quotedText cs
      return ((text.map Json.str).getD .void, rest)
    | 'n' :: cs => (expect ['u', 'l', 'l'] cs).map fun rest => (.null, rest)
    | 't' :: cs => (expect ['r', 'u', 'e'] cs).map fun rest => (.bool true, rest)
    | 'f' :: cs => (expect ['a', 'l', 's', 'e'] cs).map fun rest => (.bool false, rest)
    | cs => number cs

/-- The items of an array up to its closing bracket. -/
def items : Nat → List Char → Option (List Json × List Char)
  | 0, _ => none
  | fuel + 1, cs => do
    let (v, cs) ← value fuel cs
    match skipSpace cs with
    | ',' :: cs => do
      let (vs, rest) ← items fuel cs
      return (v :: vs, rest)
    | ']' :: rest => return ([v], rest)
    | _ => none

/-- The members of an object up to its closing brace; they are lost if a name spells no text. -/
def members : Nat → List Char → Option (Option (List (String × Json)) × List Char)
  | 0, _ => none
  | fuel + 1, cs =>
    match skipSpace cs with
    | '\"' :: cs => do
      let (name, cs) ← quotedText cs
      match skipSpace cs with
      | ':' :: cs => do
        let (v, cs) ← value fuel cs
        match skipSpace cs with
        | ',' :: cs => do
          let (ms, rest) ← members fuel cs
          return (name.bind fun n => ms.map ((n, v) :: ·), rest)
        | '\x7d' :: rest => return (name.map fun n => [(n, v)], rest)
        | _ => none
      | _ => none
    | _ => none

end

/-- The value of a document. -/
def read? (text : String) : Option Json :=
  match value (text.length + 1) text.toList with
  | some (v, rest) => if (skipSpace rest).isEmpty then some v else none
  | none => none

end DataAccess.Json
