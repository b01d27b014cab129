import RipInterpreter.Text.Ranges
import RipInterpreter.Text.InvisibleTable

namespace RipInterpreter.Text

/-- Whether a character extends the one before it or has no shape, so that it is only readable as
its code point. -/
def isInvisible (c : Char) : Bool :=
  !(' ' ≤ c && c < '\x7f') && (inRanges extendingRanges c.toNat || inRanges shapelessRanges c.toNat)

/-- The code point of a character in lower-case hexadecimal, without padding. -/
def hexadecimal (c : Char) : String :=
  String.ofList (Nat.toDigits 16 c.toNat)

/-- The written form of one character between two `mark`s. -/
def escapeChar (mark c : Char) : String :=
  if c = '\x00' then "\\0"
  else if c = '\t' then "\\t"
  else if c = '\r' then "\\r"
  else if c = '\n' then "\\n"
  else if c = '\\' || c = mark then String.ofList ['\\', c]
  else if isInvisible c then "\\u\x7b" ++ hexadecimal c ++ "\x7d"
  else String.singleton c

/-- A text between double quote marks; a single quote mark inside needs no escape. -/
def quoteText (text : String) : String :=
  "\x22" ++ text.foldl (fun written c => written ++ escapeChar '\x22' c) "" ++ "\x22"

/-- A character between single quote marks; a double quote mark inside needs no escape. -/
def quoteChar (c : Char) : String :=
  "'" ++ escapeChar '\x27' c ++ "'"

end RipInterpreter.Text
