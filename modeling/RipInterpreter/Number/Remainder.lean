import RipInterpreter.Number.Binary

namespace RipInterpreter.Number

/-- The remainder of the magnitudes `m * 2 ^ e` and `n * 2 ^ f`, as a mantissa over the smaller of
the two exponents. -/
def remainderOfMagnitudes (m : Nat) (e : Int) (n : Nat) (f : Int) : Nat × Int :=
  let least := min e f
  ((m * Nat.pow 2 (e - least).toNat) % (n * Nat.pow 2 (f - least).toNat), least)

/-- `x - y * trunc (x / y)` without rounding. Dividing by zero or dividing an infinity gives no
number; dividing by an infinity gives the dividend. -/
def remainder (x y : Float) : Float :=
  match Parts.ofFloat x, Parts.ofFloat y with
  | .notANumber, _ | _, .notANumber | .infinite _, _ => Parts.notANumber.toFloat
  | .finite .., .infinite _ => x
  | .finite negative m e, .finite _ n f =>
    if n = 0 then Parts.notANumber.toFloat
    else
      let (mantissa, exponent) := remainderOfMagnitudes m e n f
      (Parts.finite negative mantissa exponent).toFloat

end RipInterpreter.Number
