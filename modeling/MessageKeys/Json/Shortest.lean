/-!
# Json.Shortest — the fewest digits of a binary fraction

A finite number in the binary format with 53 digits stands for `mantissa * 2 ^ exponent`. Between it
and its neighbours lie the bounds of what is read back as it; they belong to it if the mantissa is
even. `Shortest.digits` searches the coarsest decimal grid with a point between the bounds, and takes
the point nearest to the number.
-/
namespace MessageKeys.Json

/-- A finite number: a sign and `mantissa * 2 ^ exponent`. -/
structure Binary where
  negative : Bool
  mantissa : Nat
  exponent : Int
deriving DecidableEq, Repr

/-- The number that 64 bits stand for, unless it is infinite or none at all. -/
def Binary.ofBits (bits : UInt64) : Binary :=
  let word := bits.toNat
  let fraction := word % Nat.pow 2 52
  let scale := word / Nat.pow 2 52 % Nat.pow 2 11
  ⟨word / Nat.pow 2 63 == 1, if scale == 0 then fraction else fraction + Nat.pow 2 52,
    (max scale 1 : Nat) - 1075⟩

namespace Shortest

/-- A positive fraction. -/
structure Ratio where
  numerator : Nat
  denominator : Nat
deriving DecidableEq, Repr

/-- `count * 2 ^ exponent`. -/
def binary (count : Nat) (exponent : Int) : Ratio :=
  if 0 ≤ exponent then ⟨count * Nat.pow 2 exponent.toNat, 1⟩
  else ⟨count, Nat.pow 2 (-exponent).toNat⟩

/-- `count * 10 ^ exponent`. -/
def decimal (count : Nat) (exponent : Int) : Ratio :=
  if 0 ≤ exponent then ⟨count * Nat.pow 10 exponent.toNat, 1⟩
  else ⟨count, Nat.pow 10 (-exponent).toNat⟩

namespace Ratio

def le (a b : Ratio) : Bool := a.numerator * b.denominator ≤ b.numerator * a.denominator

def lt (a b : Ratio) : Bool := a.numerator * b.denominator < b.numerator * a.denominator

/-- How far two fractions are apart. -/
def distance (a b : Ratio) : Ratio :=
  let left := a.numerator * b.denominator
  let right := b.numerator * a.denominator
  ⟨max left right - min left right, a.denominator * b.denominator⟩

/-- How often the second fraction goes into the first one. -/
def quotient (a b : Ratio) : Nat := a.numerator * b.denominator / (a.denominator * b.numerator)

end Ratio

/-- The bounds of what is read back as `mantissa * 2 ^ exponent`, in quarters of its last digit. Below
a power of two the neighbours are half as far apart. -/
def bounds (mantissa : Nat) (exponent : Int) : Ratio × Ratio :=
  let below := if mantissa == Nat.pow 2 52 && exponent > -1074 then 1 else 2
  (binary (4 * mantissa - below) (exponent - 2), binary (4 * mantissa + 2) (exponent - 2))

/-- A point is read back as the number. -/
def isInside (mantissa : Nat) (exponent : Int) (point : Ratio) : Bool :=
  let (low, high) := bounds mantissa exponent
  if mantissa % 2 == 0 then low.le point && point.le high else low.lt point && point.lt high

/-- The nearer of the two points of the grid `10 ^ place` beside the number that are read back as it;
of two equally near ones the even one. -/
def onGrid? (mantissa : Nat) (exponent place : Int) : Option Nat :=
  let value := binary mantissa exponent
  let low := value.quotient (decimal 1 place)
  let inside := fun count => isInside mantissa exponent (decimal count place)
  let toLow := value.distance (decimal low place)
  let toHigh := value.distance (decimal (low + 1) place)
  let lowFirst := toLow.lt toHigh || (toLow.le toHigh && low % 2 == 0)
  match inside low && low != 0, inside (low + 1) with
  | true, true => some (if lowFirst then low else low + 1)
  | true, false => some low
  | false, true => some (low + 1)
  | false, false => none

/-- The place of the first decimal digit: the greatest `place` with `10 ^ place` at most the number,
looked for from `place` down. -/
def leadingPlace (value : Ratio) (place : Int) : Nat → Int
  | 0 => place
  | steps + 1 =>
    if (decimal 1 place).le value then place else leadingPlace value (place - 1) steps

/-- The first grid, from `place` on, with a point for the number: the point and the place. -/
def firstGrid (mantissa : Nat) (exponent place : Int) : Nat → Nat × Int
  | 0 => (0, 0)
  | steps + 1 =>
    match onGrid? mantissa exponent place with
    | some count => (count, place)
    | none => firstGrid mantissa exponent (place - 1) steps

end Shortest

/-- The decimal with the fewest digits that is read back as `mantissa * 2 ^ exponent`, nearest to it:
`(count, place)` for `count * 10 ^ place`. The number is not zero. -/
def Shortest.digits (mantissa : Nat) (exponent : Int) : Nat × Int :=
  let leading := leadingPlace (binary mantissa exponent) 309 640
  firstGrid mantissa exponent leading 20

end MessageKeys.Json
