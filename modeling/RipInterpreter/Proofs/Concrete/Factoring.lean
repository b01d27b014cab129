import RipInterpreter.Proofs.Concrete.Literals
import RipInterpreter.Proofs.Concrete.Words

/-!
The rules that read a leading value once and go on from it agree with the choices that try each form
from the start. A range behind a decimal is where the two differ in what they look at: its integer
would end in front of the point, and no range goes on there.
-/

namespace RipInterpreter.Parsing.Parser

variable {α : Type} {source : Source} {position finish levels least : Nat} {parser : Parser α}
  {value : α}

/-- The two parsers both fail at the position, or both match there with the same value and end. -/
def AlikeAt (source : Source) (position : Nat) (first second : Parser α) : Prop :=
  first.FailsAt source position ∧ second.FailsAt source position ∨
    ∃ value finish, first.MatchesAt source position value finish ∧
      second.MatchesAt source position value finish

theorem MatchesAt.inside (matching : parser.MatchesAt source position value finish)
    (regular : parser.Regular levels least) (inside : position ≤ source.size)
    (deep : source.size < levels + position) : finish ≤ source.size := by
  obtain ⟨after, matched, rfl⟩ := matching ⟨position, none⟩ rfl
  exact (regular.bounds inside deep matched).2

theorem MatchesAt.yields {expected : α → Prop}
    (matching : parser.MatchesAt source position value finish) (yields : parser.Yields expected) :
    expected value := by
  obtain ⟨after, matched, -⟩ := matching ⟨position, none⟩ rfl
  exact yields _ _ _ _ matched

theorem MatchesAt.not_fails (matching : parser.MatchesAt source position value finish) :
    ¬ parser.FailsAt source position := by
  intro fails
  obtain ⟨after, matched, -⟩ := matching ⟨position, none⟩ rfl
  obtain ⟨failure, last, failed⟩ := fails ⟨position, none⟩ rfl
  rw [matched] at failed
  cases failed

theorem FailsAt.failFurthest {message : String} :
    (failFurthest message : Parser α).FailsAt source position :=
  fun _ _ => ⟨_, _, rfl⟩

end RipInterpreter.Parsing.Parser

namespace RipInterpreter.Concrete

open Parsing Parser

/-- A range that starts with what the parser reads. -/
def rangeFrom (start : Parser Tree) : Parser Tree := do
  let first ← start
  match ← rangeRest first with
  | some range => return range
  | none => failFurthest "expected range"

theorem range_eq_rangeFrom : range = rangeFrom rangeable := rfl

/-- The simple values that a range may start with. -/
def simpleStart : Parser Tree := integer.orElse character

variable {source : Source} {position middle finish levels least : Nat} {nested : Nested}
  {first node key pair : Tree} {start : Parser Tree}

/-- The parser goes on from the position with a value, or stays there without one. -/
def ContinuesAt (source : Source) (position : Nat) (rest : Parser (Option Tree)) : Prop :=
  rest.MatchesAt source position none position ∨
    ∃ value finish, rest.MatchesAt source position (some value) finish

theorem continues_optional {α : Type} {parser : Parser α} (regular : parser.Regular levels least)
    (inside : position ≤ source.size) (deep : source.size < levels + position) (change : α → Tree) :
    ContinuesAt source position (optional parser >>= fun found => pure (found.map change)) := by
  rcases regular.fails_or_matches inside deep with fails | ⟨value, finish, matching, -⟩
  · exact .inl (fails.optional.bind (.pure none))
  · exact .inr ⟨change value, finish, matching.optional.bind (.pure _)⟩

theorem continues_rangeRest (inside : position ≤ source.size) (first : Tree) :
    ContinuesAt source position (rangeRest first) := by
  have regular : Regular (source.size + 1) 1 (do
      let _ ← literal ".."
      let exclusive ← optional (literal ".")
      let last ← rangeable
      return (exclusive.isSome, last)) :=
    (regular_literal (by decide)).followed fun _ => (regular_literal (by decide)).optional.andThen
      fun _ => regular_rangeable.zero.andThen fun _ => .pure _
  exact continues_optional regular inside (by omega) _

theorem continues_pairRest (regular : nested.Regular levels) (inside : position ≤ source.size)
    (deep : source.size < levels + position) (key : Tree) :
    ContinuesAt source position (pairRest nested key) := by
  have colon : (literal ":").Regular levels 1 := regular_literal (by decide)
  have value := regular_spaces.optional.andThen fun _ => colon.zero.andThen fun _ =>
    regular_spaces.optional.andThen fun _ => regular.operand
  exact continues_optional value inside deep _

theorem rangeFrom_fails (leading : start.MatchesAt source position first middle)
    (ended : (rangeRest first).MatchesAt source middle none middle) :
    (rangeFrom start).FailsAt source position :=
  leading.bind_fails (ended.bind_fails .failFurthest)

theorem rangeFrom_matches (leading : start.MatchesAt source position first middle)
    (goes : (rangeRest first).MatchesAt source middle (some node) finish) :
    (rangeFrom start).MatchesAt source position node finish :=
  leading.bind (goes.bind (.pure node))

theorem keyValue_fails (leading : (simpleValue nested).MatchesAt source position key middle)
    (ended : (pairRest nested key).MatchesAt source middle none middle) :
    (keyValue nested).FailsAt source position :=
  leading.bind_fails (ended.bind_fails .failFurthest)

theorem keyValue_matches (leading : (simpleValue nested).MatchesAt source position key middle)
    (goes : (pairRest nested key).MatchesAt source middle (some pair) finish) :
    (keyValue nested).MatchesAt source position pair finish :=
  leading.bind (goes.bind (.pure pair))

theorem character_fails (other : source.chars[position]? ≠ some '\x60') :
    character.FailsAt source position :=
  FailsAt.map (FailsAt.bind (.literal other rfl)) _

theorem decimal_fails {found : Option Span}
    (signed : sign.MatchesAt source position found middle)
    (fails : (optional digits >>= fun _ => literal "." >>= fun _ => digits).FailsAt source middle) :
    decimal.FailsAt source position :=
  FailsAt.map (FailsAt.capture (signed.bind_fails fails)) _

theorem decimal_fails_at_backquote (stands : source.chars[position]? = some '\x60') :
    decimal.FailsAt source position := by
  obtain ⟨rest, spelled⟩ := (source.remains_drop position).uncons stands
  have remains : source.Remains position ('\x60' :: rest) := spelled
  have numberless : digits.FailsAt source position :=
    digits_fail remains (by rintro _ ⟨⟩; decide)
  exact decimal_fails (sign_absent remains (by rintro _ ⟨⟩; decide)) <|
    numberless.optional.bind_fails
      (FailsAt.bind (.literal_of_head remains rfl (by rintro _ ⟨⟩; decide)))

theorem matches_sign (position : Nat) (source : Source) (inside : position ≤ source.size) :
    ∃ found middle, sign.MatchesAt source position found middle ∧ middle ≤ source.size := by
  have regular : sign.Regular (source.size + 1) 0 := regular_sign
  have marks : (Parser.orElse (literal "+") (literal "-")).Regular (source.size + 1) 1 :=
    (regular_literal (by decide)).orElse (regular_literal (by decide))
  rcases marks.fails_or_matches inside (by omega) with fails | ⟨mark, middle, matching, -⟩
  · exact ⟨none, position, fails.optional, inside⟩
  · exact ⟨some mark, middle, matching.optional,
      matching.optional.inside regular inside (by omega)⟩

/-- Two points do not stand where a point and digits do. -/
theorem rangeRest_ends (first : Tree)
    (point : ¬ (literal "." >>= fun _ => digits).FailsAt source position) :
    (rangeRest first).MatchesAt source position none position := by
  suffices dotless : (literal "..").FailsAt source position from
    MatchesAt.bind dotless.bind.optional (.pure none)
  apply FailsAt.literal_of_remains (source.remains_drop position)
  rintro ⟨rest, dots⟩
  have remains : source.Remains position ('.' :: '.' :: rest) := dots.symm
  apply point
  exact (MatchesAt.mark rfl remains).bind_fails (digits_fail remains.tail (by rintro _ ⟨⟩; decide))

theorem decimal_or_range_fails (inside : position ≤ source.size) :
    decimal.FailsAt source position ∨ (rangeFrom simpleStart).FailsAt source position := by
  by_cases back : source.chars[position]? = some '\x60'
  · exact .inl (decimal_fails_at_backquote back)
  obtain ⟨found, start, signed, within⟩ := matches_sign position source inside
  have regular : digits.Regular (source.size + 1) 1 := regular_digits
  rcases regular.fails_or_matches within (by omega) with numberless | ⟨⟨⟩, middle, number, -⟩
  · have integerless : integer.FailsAt source position :=
      FailsAt.map (FailsAt.capture (signed.bind_fails numberless)) _
    exact .inr (integerless.orElse (character_fails back)).bind
  · by_cases point : (literal "." >>= fun _ => digits).FailsAt source middle
    · exact .inl (decimal_fails signed (number.optional.bind_fails point))
    · have whole : integer.MatchesAt source position _ middle :=
        MatchesAt.map (MatchesAt.capture (signed.bind number)) _
      exact .inr (rangeFrom_fails (whole.orElse _) (rangeRest_ends _ point))

/-- What stands at a position for a rule that starts with a simple value: none, one that a range may
start with as well, or one that keeps ranges away. -/
inductive Lead (nested : Nested) (source : Source) (position : Nat) : Prop
  | absent (fails : (simpleValue nested).FailsAt source position)
    (unranged : simpleStart.FailsAt source position)
  | shared {first : Tree} {middle : Nat}
    (simple : (simpleValue nested).MatchesAt source position first middle)
    (inside : middle ≤ source.size) (label : first.label ∈ ["integer", "character"])
    (starts : simpleStart.MatchesAt source position first middle)
  | apart {first : Tree} {middle : Nat}
    (simple : (simpleValue nested).MatchesAt source position first middle)
    (inside : middle ≤ source.size) (label : first.label ∉ ["integer", "character"])
    (unranged : (rangeFrom simpleStart).FailsAt source position)

theorem lead_behind_end (behind : source.size ≤ position) : Lead nested source position := by
  have remains : source.Remains position [] := List.drop_eq_nil_of_le behind
  have nothing (mark : Char) : source.chars[position]? ≠ some mark := by simp [remains.head?]
  have unsigned := sign_absent remains (by simp)
  have numberless : digits.FailsAt source position := digits_fail remains (by simp)
  have numeric : numeric.FailsAt source position :=
    numeric_fails_behind_sign unsigned numberless (FailsAt.bind (.literal (nothing _) rfl))
  have integer : integer.FailsAt source position :=
    FailsAt.map (FailsAt.capture (unsigned.bind_fails numberless)) _
  have character := character_fails (nothing _)
  refine .absent (numeric.orElse (character.orElse ?_)) (integer.orElse character)
  exact (string_fails fun mark _ => nothing mark).orElse (FailsAt.bind (.literal (nothing _) rfl))

theorem lead (regular : nested.Regular levels) (derived : nested.Derived)
    (deep : source.size < levels) (position : Nat) : Lead nested source position := by
  rcases Nat.le_total position source.size with inside | behind
  case inr => exact lead_behind_end behind
  have deep : source.size < levels + position := by omega
  have decimals : decimal.Regular levels 1 := regular_decimal
  have integers : integer.Regular levels 1 := regular_integer
  have characters : character.Regular levels 1 := regular_character
  have texts : ((string nested).orElse (regularExpression nested)).Regular levels 1 :=
    ((regular_string regular).orElse (regular_regularExpression regular)).shallow
  have textual : ((string nested).orElse (regularExpression nested)).Yields
      (Tree.Among textLabels) :=
    ((yields_string derived).widen (by decide)).orElse
      ((yields_regularExpression derived).widen (by decide))
  rcases decimals.fails_or_matches inside deep with undecimal | ⟨first, middle, matching, -⟩
  case inr =>
    have label : first.label = "decimal" := by simpa using (matching.yields yields_decimal).2
    have unranged := (decimal_or_range_fails inside).resolve_left matching.not_fails
    exact .apart ((matching.orElse _).orElse _) (matching.inside decimals inside deep)
      (by simp [label]) unranged
  rcases integers.fails_or_matches inside deep with uncounted | ⟨first, middle, matching, -⟩
  case inr =>
    have label : first.label = "integer" := by simpa using (matching.yields yields_integer).2
    exact .shared ((undecimal.otherwise matching).orElse _) (matching.inside integers inside deep)
      (by simp [label]) (matching.orElse _)
  have numberless : numeric.FailsAt source position := undecimal.orElse uncounted
  rcases characters.fails_or_matches inside deep with unmarked | ⟨first, middle, matching, -⟩
  case inr =>
    have label : first.label = "character" := by simpa using (matching.yields yields_character).2
    exact .shared (numberless.otherwise (matching.orElse _))
      (matching.inside characters inside deep) (by simp [label]) (uncounted.otherwise matching)
  have unstarted : simpleStart.FailsAt source position := uncounted.orElse unmarked
  rcases texts.fails_or_matches inside deep with untold | ⟨first, middle, matching, -⟩
  · exact .absent (numberless.orElse (unmarked.orElse untold)) unstarted
  · have label : first.label ∈ textLabels := (matching.yields textual).2
    have other : ∀ label ∈ textLabels, label ∉ ["integer", "character"] := by decide
    exact .apart (numberless.otherwise (unmarked.otherwise matching))
      (matching.inside texts inside deep) (other _ label) unstarted.bind

/-- A pair, or else a range that starts with an integer or a character, or else a simple value. -/
def simpleChoice (nested : Nested) : Parser Tree :=
  firstOf (keyValue nested) [rangeFrom simpleStart, simpleValue nested]

/-- A range that starts with a reference, or else a reference alone. -/
def referenceChoice : Parser Tree := (rangeFrom reference).orElse reference

theorem ledBySimple_pair (leading : (simpleValue nested).MatchesAt source position key middle)
    (goes : (pairRest nested key).MatchesAt source middle (some pair) finish) :
    (ledBySimple nested).MatchesAt source position pair finish :=
  leading.bind (goes.bind (.pure pair))

theorem ledBySimple_shared (leading : (simpleValue nested).MatchesAt source position first middle)
    (ended : (pairRest nested first).MatchesAt source middle none middle)
    (label : first.label ∈ ["integer", "character"]) {found : Option Tree}
    (rest : (rangeRest first).MatchesAt source middle found finish) :
    (ledBySimple nested).MatchesAt source position (found.getD first) finish := by
  refine leading.bind (ended.bind ?_)
  have ranged : (first.label = "integer" || first.label = "character") = true := by
    simpa using label
  simp only [ranged, if_true]
  exact rest.bind (.pure _)

theorem ledBySimple_apart (leading : (simpleValue nested).MatchesAt source position first middle)
    (ended : (pairRest nested first).MatchesAt source middle none middle)
    (label : first.label ∉ ["integer", "character"]) :
    (ledBySimple nested).MatchesAt source position first middle := by
  refine leading.bind (ended.bind ?_)
  have unranged : (first.label = "integer" || first.label = "character") = false := by
    simpa using label
  simp only [unranged]
  exact .pure first

theorem ledBySimple_alike (regular : nested.Regular levels) (derived : nested.Derived)
    (deep : source.size < levels) (position : Nat) :
    AlikeAt source position (ledBySimple nested) (simpleChoice nested) := by
  cases lead regular derived deep position with
  | absent fails unranged => exact .inl ⟨fails.bind, fails.bind.orElse (unranged.bind.orElse fails)⟩
  | @shared first middle simple inside label starts =>
      rcases continues_pairRest regular inside (by omega) first with ended | ⟨pair, finish, goes⟩
      · have unpaired := keyValue_fails simple ended
        rcases continues_rangeRest inside first with last | ⟨range, finish, goes⟩
        · have unranged := rangeFrom_fails starts last
          exact .inr ⟨first, middle, ledBySimple_shared simple ended label last,
            unpaired.otherwise (unranged.otherwise simple)⟩
        · have ranged := rangeFrom_matches starts goes
          exact .inr ⟨range, finish, ledBySimple_shared simple ended label goes,
            unpaired.otherwise (ranged.orElse _)⟩
      · exact .inr ⟨pair, finish, ledBySimple_pair simple goes,
          (keyValue_matches simple goes).orElse _⟩
  | @apart first middle simple inside label unranged =>
      rcases continues_pairRest regular inside (by omega) first with ended | ⟨pair, finish, goes⟩
      · have unpaired := keyValue_fails simple ended
        exact .inr ⟨first, middle, ledBySimple_apart simple ended label,
          unpaired.otherwise (unranged.otherwise simple)⟩
      · exact .inr ⟨pair, finish, ledBySimple_pair simple goes,
          (keyValue_matches simple goes).orElse _⟩

theorem reference_answers (source : Source) (position : Nat) :
    reference.FailsAt source position ∨ ∃ first middle,
      reference.MatchesAt source position first middle ∧ middle ≤ source.size := by
  rcases Nat.le_total position source.size with inside | behind
  · have regular : reference.Regular (source.size + 1) 1 := regular_reference
    rcases regular.fails_or_matches inside (by omega) with fails | ⟨first, middle, matching, -⟩
    · exact .inl fails
    · exact .inr ⟨first, middle, matching, matching.inside regular inside (by omega)⟩
  · have remains : source.Remains position [] := List.drop_eq_nil_of_le behind
    exact .inl (FailsAt.map (FailsAt.bind (.charWhere_of_remains remains (by simp) _)) _)

theorem ledByReference_alike (source : Source) (position : Nat) :
    AlikeAt source position ledByReference referenceChoice := by
  rcases reference_answers source position with fails | ⟨first, middle, leading, inside⟩
  · exact .inl ⟨fails.bind, fails.bind.orElse fails⟩
  · rcases continues_rangeRest inside first with ended | ⟨range, finish, goes⟩
    · exact .inr ⟨first, middle, leading.bind (ended.bind (.pure _)),
        (rangeFrom_fails leading ended).otherwise leading⟩
    · exact .inr ⟨range, finish, leading.bind (goes.bind (.pure _)),
        (rangeFrom_matches leading goes).orElse _⟩

section

variable {rule choice : Nested → Parser Tree}

theorem fails_complete (fails : (rule (.within (source.size + 1))).FailsAt source position) :
    (complete rule).FailsAt source position := fun cursor same => fails cursor same

theorem matches_complete
    (matching : (rule (.within (source.size + 1))).MatchesAt source position node finish) :
    (complete rule).MatchesAt source position node finish := fun cursor same => matching cursor same

theorem alike_complete (alike : AlikeAt source position (rule (.within (source.size + 1)))
    (choice (.within (source.size + 1)))) :
    AlikeAt source position (complete rule) (complete choice) := by
  rcases alike with ⟨fails, fails'⟩ | ⟨node, finish, matching, matching'⟩
  · exact .inl ⟨fails_complete fails, fails_complete fails'⟩
  · exact .inr ⟨node, finish, matches_complete matching, matches_complete matching'⟩

end

/-- At every position of every source the rules that read the leading value once answer as the
choices do that try each form from the start. -/
theorem factored_rules_agree (source : Source) (position : Nat) :
    AlikeAt source position (complete ledBySimple) (complete simpleChoice) ∧
      AlikeAt source position ledByReference referenceChoice := by
  have regular := regular_within (source.size + 1)
  have derived := derived_within (source.size + 1)
  exact ⟨alike_complete (ledBySimple_alike regular derived (Nat.lt_succ_self _) position),
    ledByReference_alike source position⟩

end RipInterpreter.Concrete
