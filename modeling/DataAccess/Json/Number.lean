import DataAccess.Json.Basic

set_option autoImplicit false

/-! # Numbers of JSON

A number token is split into sign, digits and exponent (`Numeral`); `Numeral.value` says what it
denotes. A whole number that fits into 64 bits, signed or not, is an integer. Every other number
is a double: the leading digits that fit into 64 bits are rounded to a double, which is then
multiplied or divided by a rounded power of ten. -/

namespace DataAccess.Json

/-- The parts of a number token. -/
structure Numeral where
  negative : Bool
  /-- The digits before the point. -/
  whole : List Nat
  /-- The digits after the point. -/
  fraction : Option (List Nat)
  /-- Whether the exponent is negative, and its digits. -/
  exponent : Option (Bool × List Nat)

namespace Numeral

/-- The largest significand. -/
def maxSignificand : Nat := Nat.pow 2 64 - 1

/-- The largest exponent that is computed with. -/
def maxExponent : Nat := Nat.pow 2 31 - 1

/-- Appends digits to a number as long as it stays within `limit`; also yields how many digits
were left over. -/
def appendDigits (limit : Nat) (n : Nat) : List Nat → Nat × Nat
  | [] => (n, 0)
  | d :: ds => if n * 10 + d ≤ limit then appendDigits limit (n * 10 + d) ds else (n, ds.length + 1)

/-- The largest power of ten that is a double. -/
def maxPower : Nat := 308

/-- A power of ten as a double. -/
def powerOfTen (n : Nat) : Float := Float.ofScientific 1 false n

/-- A double divided by `10 ^ n`, in steps where the power itself is no double. -/
def scaleDown (x : Float) (n : Nat) : Float :=
  if n ≤ maxPower then x / powerOfTen n
  else if x == 0.0 then x
  else scaleDown (x / powerOfTen maxPower) (n - maxPower)
  termination_by n
  decreasing_by simp only [maxPower] at *; omega

/-- `significand · 10 ^ exponent` as a double, if it is in range. -/
def scale (significand : Nat) (exponent : Int) : Option Float :=
  let x := significand.toUInt64.toFloat
  if exponent < 0 then some (scaleDown x exponent.natAbs)
  else if exponent.natAbs ≤ maxPower then
    let y := x * powerOfTen exponent.natAbs
    if y.isInf then none else some y
  else if x == 0.0 then some x
  else none

/-- The double a numeral denotes, if it is in range. -/
def toFloat? (n : Numeral) : Option Float :=
  let (head, skipped) := appendDigits maxSignificand 0 n.whole
  let digits := n.fraction.getD []
  let (significand, rest) := appendDigits maxSignificand head digits
  let place : Int := (skipped : Int) - ((digits.length - rest : Nat) : Int)
  let magnitude :=
    match n.exponent with
    | none => scale significand place
    | some (negative, ds) =>
      let (e, excess) := appendDigits maxExponent 0 ds
      if excess = 0 then scale significand (if negative then place - e else place + e)
      else if significand = 0 || negative then some 0.0
      else none
  magnitude.map fun x => if n.negative then -x else x

/-- Whether a numeral denotes an integer: it has neither fraction nor exponent, fits into 64 bits,
signed or not, and is not minus zero. -/
def toInt? (n : Numeral) : Option Int :=
  let (magnitude, skipped) := appendDigits maxSignificand 0 n.whole
  if n.fraction.isSome || n.exponent.isSome || skipped ≠ 0 then none
  else if !n.negative then some magnitude
  else if 0 < magnitude && magnitude ≤ Nat.pow 2 63 then some (-(magnitude : Int))
  else none

/-- What a numeral denotes. -/
def value (n : Numeral) : Json :=
  match n.toInt? with
  | some i => .int i
  | none => match n.toFloat? with
    | some x => .float x
    | none => .void

end Numeral

end DataAccess.Json
