set_option autoImplicit false

/-! # Sets of code points

A property of characters is written down as an ascending list of closed ranges (`CodeSet`), or,
where every second code point has it, of runs with a step (`SteppedSet`). A `ShiftTable` sends the
code points of a run to the ones a fixed distance away. -/

namespace DataAccess.Unicode

/-- Closed ranges of code points: first and last. -/
abbrev CodeSet := List (Nat × Nat)

/-- Runs of code points: first, last and step. -/
abbrev SteppedSet := List (Nat × Nat × Nat)

/-- Runs of code points with the distance to their images: first, last, step and distance. -/
abbrev ShiftTable := List (Nat × Nat × Nat × Int)

/-- Whether one of the ranges holds the character. -/
def CodeSet.contains (s : CodeSet) (c : Char) : Bool :=
  s.any fun r => r.1 ≤ c.toNat && c.toNat ≤ r.2

/-- Whether `n` is on the run from `first` to `last`. -/
def onRun (first last step n : Nat) : Bool :=
  first ≤ n && n ≤ last && (n - first) % step == 0

/-- Whether one of the runs holds the character. -/
def SteppedSet.contains (s : SteppedSet) (c : Char) : Bool :=
  s.any fun r => onRun r.1 r.2.1 r.2.2 c.toNat

/-- The image of a character; a character on no run is its own image. -/
def ShiftTable.apply (t : ShiftTable) (c : Char) : Char :=
  match t.find? fun r => onRun r.1 r.2.1 r.2.2.1 c.toNat with
  | some r => Char.ofNat (c.toNat + r.2.2.2).toNat
  | none => c

end DataAccess.Unicode
