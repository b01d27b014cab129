import RipInterpreter.Text.Ranges
import RipInterpreter.Text.LetterCaseTable

namespace RipInterpreter.Text

/-- The image of `code` under the runs of `table` between the positions `low` and `high`. -/
def searchRuns (table : Array CaseRun) (code : Nat) : (steps low high : Nat) → Option Nat
  | 0, _, _ => none
  | steps + 1, low, high =>
    if low < high then
      let middle := (low + high) / 2
      match table[middle]? with
      | none => none
      | some run =>
        if code < run.first then searchRuns table code steps low middle
        else if run.last < code then searchRuns table code steps (middle + 1) high
        else if (code - run.first) % run.stride = 0 then some (run.target + (code - run.first))
        else none
    else none

/-- The characters that `c` maps to: its expansion if it has one, its image under the runs, or
itself. -/
def mapCase (runs : Array CaseRun) (expansions : List (Nat × List Nat)) (c : Char) : List Char :=
  match searchRuns runs c.toNat runs.size 0 runs.size with
  | some image => [Char.ofNat image]
  | none =>
    if c.toNat < 128 then [c]
    else match expansions.lookup c.toNat with
      | some images => images.map Char.ofNat
      | none => [c]

def upperChar (c : Char) : List Char := mapCase upperRuns upperExpansions c

/-- The lower case of one character on its own. -/
def lowerChar (c : Char) : List Char := mapCase lowerRuns lowerExpansions c

/-- Whether the first character that is not skipped has case. -/
def meetsCased (neighbours : List Char) : Bool :=
  match neighbours.dropWhile (fun c => inRanges caseIgnorableRanges c.toNat) with
  | [] => false
  | c :: _ => inRanges casedRanges c.toNat

/-- Lowers the characters in order. A capital sigma that follows a cased letter and precedes none
takes its final form; `before` holds the characters already passed, nearest first. -/
def lowerChars (before : List Char) : List Char → List Char
  | [] => []
  | c :: rest =>
    let lowered :=
      if c = '\u03a3' then
        [if meetsCased before && !meetsCased rest then '\u03c2' else '\u03c3']
      else lowerChar c
    lowered ++ lowerChars (c :: before) rest

def uppercase (text : String) : String := String.ofList (text.toList.flatMap upperChar)

def lowercase (text : String) : String := String.ofList (lowerChars [] text.toList)

end RipInterpreter.Text
