namespace RipInterpreter.Text

/-- Whether an entry of `table` between the positions `low` and `high` holds `code`; halves the
distance of the two positions at most `steps` times. -/
def searchRanges (table : Array (Nat × Nat)) (code : Nat) : (steps low high : Nat) → Bool
  | 0, _, _ => false
  | steps + 1, low, high =>
    if low < high then
      let middle := (low + high) / 2
      match table[middle]? with
      | none => false
      | some (first, last) =>
        if code < first then searchRanges table code steps low middle
        else if last < code then searchRanges table code steps (middle + 1) high
        else true
    else false

/-- Whether one of the ranges holds `code`. Each step drops an entry, so as many steps as there
are entries suffice. -/
def inRanges (table : Array (Nat × Nat)) (code : Nat) : Bool :=
  searchRanges table code table.size 0 table.size

end RipInterpreter.Text
