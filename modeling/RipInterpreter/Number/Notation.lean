import RipInterpreter.Number.Shortest

namespace RipInterpreter.Number

/-- The decisions about the written form of a decimal. -/
structure DecimalFormat where
  /-- The least exponent of the leading digit that is written positionally. -/
  leastPositional : Int
  /-- The greatest exponent of the leading digit that is written positionally. -/
  greatestPositional : Int
  exponentMark : String
  notANumber : String
  infinity : String

/-- Magnitudes from `10 ^ -4` up to `10 ^ 16` are written positionally. -/
def plainFormat : DecimalFormat where
  leastPositional := -4
  greatestPositional := 15
  exponentMark := "e"
  notANumber := "NaN"
  infinity := "inf"

/-- Digits with a point; at least one digit stands on either side of it. -/
def positional (digits : String) (place : Int) : String :=
  if 0 ≤ place then digits ++ String.ofList (List.replicate place.toNat '0') ++ ".0"
  else
    let fraction := (-place).toNat
    let padded := List.replicate (fraction + 1 - digits.length) '0' ++ digits.toList
    let whole := padded.length - fraction
    String.ofList (padded.take whole) ++ "." ++ String.ofList (padded.drop whole)

/-- Digits with a point after the first one, if there are more, and the exponent of the first. -/
def scientific (mark digits : String) (leading : Int) : String :=
  let rest := digits.toList.drop 1
  let fraction := if rest.isEmpty then "" else "." ++ String.ofList rest
  String.ofList (digits.toList.take 1) ++ fraction ++ mark ++ toString leading

def DecimalFormat.write (format : DecimalFormat) (x : Float) : String :=
  match Parts.ofFloat x with
  | .notANumber => format.notANumber
  | .infinite negative => (if negative then "-" else "") ++ format.infinity
  | .finite negative mantissa exponent =>
    let sign := if negative then "-" else ""
    if mantissa = 0 then sign ++ "0.0"
    else
      let (number, place) := shortest mantissa exponent
      let digits := toString number
      let leading := place + digits.length - 1
      if format.leastPositional ≤ leading && leading ≤ format.greatestPositional then
        sign ++ positional digits place
      else sign ++ scientific format.exponentMark digits leading

end RipInterpreter.Number
