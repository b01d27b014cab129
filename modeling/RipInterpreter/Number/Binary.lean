/-!
Double-precision numbers taken apart: a finite one is `mantissa * 2 ^ exponent` up to its sign.
`Parts.ofFloat` and `Parts.toFloat` convert; the mantissa of a finite number is below `2 ^ 53` and
its exponent at least `-1074`.
-/

namespace RipInterpreter.Number

/-- What the bits of a double-precision number say. -/
inductive Parts where
  | finite (negative : Bool) (mantissa : Nat) (exponent : Int)
  | infinite (negative : Bool)
  | notANumber
deriving DecidableEq

/-- Splits a number into sign, mantissa and exponent. -/
def Parts.ofFloat (x : Float) : Parts :=
  let bits := x.toBits.toNat
  let negative := bits / Nat.pow 2 63 = 1
  let exponent : Nat := bits / Nat.pow 2 52 % Nat.pow 2 11
  let fraction : Nat := bits % Nat.pow 2 52
  if exponent = 2047 then
    if fraction = 0 then .infinite negative else .notANumber
  else if exponent = 0 then .finite negative fraction (-1074)
  else .finite negative (fraction + Nat.pow 2 52) ((exponent : Int) - 1075)

/-- Shifts a mantissa to the left until it has 53 bits or the exponent reaches `-1074`. -/
def normalize (mantissa : Nat) (exponent : Int) : Nat × Int :=
  let missing := 52 - mantissa.log2
  let shift := min missing (exponent + 1074).toNat
  (mantissa * Nat.pow 2 shift, exponent - shift)

/-- The number with the given parts, for a mantissa below `2 ^ 53` and an exponent from `-1074`
to `971`. -/
def Parts.toFloat : Parts → Float
  | .finite negative mantissa exponent =>
    let (mantissa, exponent) := normalize mantissa exponent
    let magnitude :=
      if mantissa < Nat.pow 2 52 then mantissa
      else mantissa - Nat.pow 2 52 + (exponent + 1075).toNat * Nat.pow 2 52
    Float.ofBits (UInt64.ofNat (magnitude + if negative then Nat.pow 2 63 else 0))
  | .infinite negative => Float.ofBits (if negative then 0xFFF0000000000000 else 0x7FF0000000000000)
  | .notANumber => Float.ofBits 0x7FF8000000000000

end RipInterpreter.Number
