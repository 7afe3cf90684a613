set_option autoImplicit false

/-! # The shortest decimal of a double

A finite double is `m · 2 ^ q`. Every real number between the midpoints to its two neighbours
reads back as that double, the midpoints themselves exactly when `m` is even. `shortest` looks at
decimals with one digit, two digits and so on: on the grid of decimals with that many digits it
tests the two neighbours of the double, and the first grid with a decimal that reads back wins.
All arithmetic is on natural numbers. -/

namespace DataAccess.Decimal

/-- A positive number `digits · 10 ^ exponent`. -/
structure Scientific where
  digits : Nat
  exponent : Int

/-- The numbers that read back as a double, in fractions of one denominator: the double itself,
the midpoints below and above it, and whether the midpoints belong. -/
structure Interval where
  value : Nat
  low : Nat
  high : Nat
  denominator : Nat
  closed : Bool

/-- The interval of the double `mantissa · 2 ^ exponent`. The gap below the first mantissa of a
binade is half as wide, unless the binade is the lowest. -/
def Interval.ofBinary (mantissa : Nat) (exponent : Int) : Interval :=
  let quarter := if exponent < 2 then 1 else Nat.pow 2 (exponent.natAbs - 2)
  let denominator := if exponent < 2 then Nat.pow 2 (2 - exponent).natAbs else 1
  let below := if mantissa = Nat.pow 2 52 ∧ -1074 < exponent then 1 else 2
  { value := 4 * mantissa * quarter
    low := (4 * mantissa - below) * quarter
    high := (4 * mantissa + 2) * quarter
    denominator
    closed := mantissa % 2 = 0 }

/-- Whether the fraction `num / den` reads back. -/
def Interval.contains (i : Interval) (num den : Nat) : Bool :=
  let x := num * i.denominator
  if i.closed then i.low * den ≤ x && x ≤ i.high * den
  else i.low * den < x && x < i.high * den

/-- The number of decimal digits. -/
def width (n : Nat) : Nat := (Nat.toDigits 10 n).length

/-- How many powers of ten a fraction below one needs to reach one. -/
def deficit (num den : Nat) : Nat → Nat
  | 0 => 0
  | fuel + 1 => if den ≤ num then 0 else deficit (num * 10) den fuel + 1

/-- The exponent of the leading digit of a positive fraction. -/
def leading (num den : Nat) : Int :=
  if den ≤ num then ((width (num / den) : Nat) : Int) - 1 else -((deficit num den 400 : Nat) : Int)

/-- The best decimal of an interval on the grid `10 ^ exponent`, if one reads back: the nearer of the
two neighbours, the even one on a tie. -/
def Interval.onGrid (i : Interval) (exponent : Int) : Option Scientific :=
  let power := Nat.pow 10 exponent.natAbs
  let num := if exponent < 0 then i.value * power else i.value
  let den := if exponent < 0 then i.denominator else i.denominator * power
  let down := num / den
  let up := down + 1
  let reads (d : Nat) : Bool :=
    if exponent < 0 then i.contains d power else i.contains (d * power) 1
  let nearUp := den < 2 * (num % den) || (den = 2 * (num % den) && down % 2 = 1)
  if reads down && !(reads up && nearUp) then some ⟨down, exponent⟩
  else if reads up then some ⟨up, exponent⟩
  else none

/-- The first grid, from coarse to fine, on which a decimal reads back. -/
def Interval.search (i : Interval) (exponent : Int) : Nat → Scientific
  | 0 => ⟨i.value / i.denominator, 0⟩
  | fuel + 1 => match i.onGrid exponent with
    | some d => d
    | none => i.search (exponent - 1) fuel

/-- The decimal with the fewest digits that reads back as the positive double
`mantissa · 2 ^ exponent`. -/
def shortest (mantissa : Nat) (exponent : Int) : Scientific :=
  let i := Interval.ofBinary mantissa exponent
  i.search (leading i.value i.denominator) 18

/-- Sign, mantissa and exponent of a finite double. -/
def binaryParts (x : Float) : Bool × Nat × Int :=
  let bits := x.toBits.toNat
  let hidden := Nat.pow 2 52
  let e : Nat := bits / hidden % Nat.pow 2 11
  let f : Nat := bits % hidden
  let negative := Nat.pow 2 63 ≤ bits
  if e = 0 then (negative, f, -1074) else (negative, f + hidden, (e : Int) - 1075)

/-- Digits and exponent without trailing zeros. -/
def Scientific.trimmed (d : Scientific) : List Char × Int :=
  let ds := (Nat.toDigits 10 d.digits).reverse
  let zeros := (ds.takeWhile (· == '0')).length
  ((ds.drop zeros).reverse, d.exponent + zeros)

/-- How decimals are written. Those whose point would stand after at most `before` digits, or before
the first digit with fewer than `after` zeros between, have no exponent. -/
structure Style where
  before : Int
  after : Int
  /-- Whether an exponent above zero carries a plus sign. -/
  plus : Bool

/-- The text of an exponent. -/
def Style.exponent (style : Style) (e : Int) : String :=
  if style.plus && 0 < e then "e+" ++ toString e else "e" ++ toString e

/-- The text of a positive decimal: always with a point when there is no exponent, and one digit
before the point when there is one. -/
def Scientific.text (style : Style) (d : Scientific) : String :=
  let (ds, e) := d.trimmed
  let point : Int := ds.length + e
  if 0 ≤ e && point ≤ style.before then
    String.ofList (ds ++ List.replicate e.natAbs '0') ++ ".0"
  else if 0 < point && point ≤ style.before then
    String.ofList (ds.take point.natAbs) ++ "." ++ String.ofList (ds.drop point.natAbs)
  else if -style.after < point && point ≤ 0 then
    "0." ++ String.ofList (List.replicate point.natAbs '0' ++ ds)
  else
    let mantissa := match ds with
      | [] => []
      | [c] => [c]
      | c :: cs => c :: '.' :: cs
    String.ofList mantissa ++ style.exponent (point - 1)

/-- A finite double, with the fewest digits that read back. -/
def ofFloat (style : Style) (x : Float) : String :=
  let (negative, mantissa, exponent) := binaryParts x
  let magnitude := if mantissa = 0 then "0.0" else (shortest mantissa exponent).text style
  if negative then "-" ++ magnitude else magnitude

end DataAccess.Decimal
