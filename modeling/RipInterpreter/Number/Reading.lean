import RipInterpreter.Number.Binary

namespace RipInterpreter.Number

/-- The value of a run of ASCII digits in base ten. -/
def digitsValue (digits : List Char) : Nat :=
  digits.foldl (fun value c => 10 * value + (c.toNat - '0'.toNat)) 0

/-- Whether an integer fits into 64 bits with a sign. -/
def fitsInteger (n : Int) : Bool := -(Nat.pow 2 63 : Nat) ≤ n && n < (Nat.pow 2 63 : Nat)

/-- Splits an optional sign off; the flag says whether it is a minus. -/
def splitSign : List Char → Bool × List Char
  | '-' :: rest => (true, rest)
  | '+' :: rest => (false, rest)
  | text => (false, text)

/-- The integer a text denotes: an optional sign and one or more digits, within range. -/
def readInteger (text : String) : Option Int :=
  let (negative, digits) := splitSign text.toList
  if digits.isEmpty || !digits.all Char.isDigit then none
  else
    let value : Int := if negative then -(digitsValue digits : Int) else digitsValue digits
    if fitsInteger value then some value else none

/-- The nearest double-precision number to `digits * 10 ^ place`. -/
def nearestDecimal (digits : Nat) (place : Int) : Float :=
  if digits = 0 || place < -(400 + (Nat.toDigits 10 digits).length : Int) then 0.0
  else if 400 < place then Parts.toFloat (.infinite false)
  else Float.ofScientific digits (place < 0) place.natAbs

/-- The exponent that ends a decimal: nothing, or a mark, an optional sign and digits. -/
def readExponent : List Char → Option Int
  | [] => some 0
  | mark :: rest =>
    let (negative, digits) := splitSign rest
    if (mark != 'e' && mark != 'E') || digits.isEmpty || !digits.all Char.isDigit then none
    else some (if negative then -(digitsValue digits : Int) else digitsValue digits)

/-- The magnitude a text denotes: digits with an optional point and an optional exponent, at least
one digit in all, or the name of an infinity or of no number in any case. -/
def readMagnitude (text : List Char) : Option Float :=
  let name := String.ofList (text.map Char.toLower)
  if name = "inf" || name = "infinity" then some (Parts.toFloat (.infinite false))
  else if name = "nan" then some Parts.notANumber.toFloat
  else
    let whole := text.takeWhile Char.isDigit
    let rest := text.dropWhile Char.isDigit
    let (fraction, rest) :=
      match rest with
      | '.' :: more => (more.takeWhile Char.isDigit, more.dropWhile Char.isDigit)
      | _ => ([], rest)
    if whole.isEmpty && fraction.isEmpty then none
    else (readExponent rest).map fun exponent =>
      nearestDecimal (digitsValue (whole ++ fraction)) (exponent - fraction.length)

/-- The decimal a text denotes: an optional sign and a magnitude. -/
def readDecimal (text : String) : Option Float :=
  let (negative, magnitude) := splitSign text.toList
  (readMagnitude magnitude).map fun x => if negative then -x else x

end RipInterpreter.Number
