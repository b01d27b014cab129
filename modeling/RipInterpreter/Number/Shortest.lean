import RipInterpreter.Number.Binary

/-!
The fewest decimal digits that read back as a given double-precision number.

A positive number stands for the interval of reals that round to it. For one, two, … digits the two
neighbours of the number on that decimal grid are tried; the first grid with a neighbour inside the
interval gives the digits, and of two such neighbours the nearer one, the upper one on a tie.
-/

namespace RipInterpreter.Number

/-- A positive number `value` and the ends of the interval that rounds to it, all three over the
one denominator `scale`. -/
structure RoundingInterval where
  low : Nat
  value : Nat
  high : Nat
  scale : Nat
  closed : Bool

/-- The interval around `mantissa * 2 ^ exponent`. Below a power of two the neighbours lie closer;
the ends round to the number exactly if its mantissa is even. -/
def RoundingInterval.around (mantissa : Nat) (exponent : Int) : RoundingInterval :=
  let gap := if mantissa = Nat.pow 2 52 && exponent != -1074 then 1 else 2
  let up := Nat.pow 2 (exponent - 2).toNat
  { low := (4 * mantissa - gap) * up
    value := 4 * mantissa * up
    high := (4 * mantissa + 2) * up
    scale := Nat.pow 2 (2 - exponent).toNat
    closed := mantissa % 2 = 0 }

/-- Whether `numerator / denominator` lies inside the interval. -/
def RoundingInterval.holds (interval : RoundingInterval) (numerator denominator : Nat) : Bool :=
  let low := interval.low * denominator
  let high := interval.high * denominator
  let point := numerator * interval.scale
  if interval.closed then low ≤ point && point ≤ high else low < point && point < high

/-- The least `places` from `found` on, tried at most `steps` times, with
`scale ≤ value * 10 ^ places`. -/
def leadingPlaces (value scale : Nat) : (steps found : Nat) → Nat
  | 0, found => found
  | steps + 1, found =>
    if scale ≤ value * Nat.pow 10 found then found else leadingPlaces value scale steps (found + 1)

/-- The exponent of the leading decimal digit of `value / scale`. -/
def leadingExponent (value scale : Nat) : Int :=
  if scale ≤ value then (Nat.toDigits 10 (value / scale)).length - 1
  else -(leadingPlaces value scale 400 1 : Nat)

/-- The neighbour of the number on the grid of multiples of `10 ^ place` that reads back, if one
does. -/
def RoundingInterval.onGrid (interval : RoundingInterval) (place : Int) : Option Nat :=
  let up := Nat.pow 10 place.toNat
  let down := Nat.pow 10 (-place).toNat
  let below := interval.value * down / (interval.scale * up)
  let inside (digits : Nat) : Bool := interval.holds (digits * up) down
  match inside below, inside (below + 1) with
  | false, false => none
  | true, false => some below
  | false, true => some (below + 1)
  | true, true =>
    let point := 2 * interval.value * down
    let middle := (2 * below + 1) * interval.scale * up
    some (if point < middle then below else below + 1)

/-- The first grid that reads back, among `grids` of them with ever finer places from `place`
down. -/
def RoundingInterval.firstGrid (interval : RoundingInterval) : (grids : Nat) → (place : Int) → Nat × Int
  | 0, place => (interval.value, place)
  | grids + 1, place =>
    match interval.onGrid place with
    | some digits => (digits, place)
    | none => interval.firstGrid grids (place - 1)

/-- Moves trailing zeros of the digits into the place; `steps` bounds their number. -/
def dropZeros : (steps : Nat) → (digits : Nat) → (place : Int) → Nat × Int
  | 0, digits, place => (digits, place)
  | steps + 1, digits, place =>
    if digits % 10 = 0 && digits != 0 then dropZeros steps (digits / 10) (place + 1)
    else (digits, place)

/-- The shortest digits of `mantissa * 2 ^ exponent`, a positive number, and the place of the last
one: the number is written `digits * 10 ^ place`. -/
def shortest (mantissa : Nat) (exponent : Int) : Nat × Int :=
  let interval := RoundingInterval.around mantissa exponent
  let (digits, place) := interval.firstGrid 18 (leadingExponent interval.value interval.scale)
  dropZeros 20 digits place

end RipInterpreter.Number
