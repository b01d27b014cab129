import RipInterpreter.Concrete.Grammar
import RipInterpreter.Proofs.Concrete.Literals
import RipInterpreter.Proofs.Concrete.Words
import RipInterpreter.Proofs.Parsing.Languages

namespace RipInterpreter.Concrete

open Parsing Parser
open scoped Computability

def digitRun : Language Char := oneOf Char.isDigit * (oneOf Char.isDigit)∗

/-- Runs of digits with single low lines between them. -/
def digitGroups : Language Char := digitRun * ({['_']} * digitRun)∗

def signs : Language Char := 1 + {['+']} + {['-']}

def integerTexts : Language Char := signs * digitGroups

def decimalTexts : Language Char := signs * (1 + digitGroups) * {['.']} * digitGroups

variable {source : Source} {position : Nat} {word rest text : List Char} {c : Char}

theorem mem_oneOf_kstar {accepts : Char → Bool} :
    text ∈ (oneOf accepts)∗ ↔ ∀ c ∈ text, accepts c = true := by
  rw [Language.mem_kstar]
  constructor
  · rintro ⟨texts, rfl, each⟩ c listed
    obtain ⟨single, inside, listed⟩ := List.mem_flatten.mp listed
    obtain ⟨d, accepted, rfl⟩ := each single inside
    exact List.mem_singleton.mp listed ▸ accepted
  · intro accepted
    refine ⟨text.map fun c => [c], ?_, fun single listed => ?_⟩
    · rw [← List.flatMap_def, List.flatMap_singleton']
    · obtain ⟨c, inside, rfl⟩ := List.mem_map.mp listed
      exact ⟨c, accepted c inside, rfl⟩

theorem mem_digitRun : text ∈ digitRun ↔ text ≠ [] ∧ ∀ c ∈ text, c.isDigit = true := by
  constructor
  · intro inside
    obtain ⟨_, ⟨c, isDigit, rfl⟩, others, more, rfl⟩ := Language.mem_mul.mp inside
    exact ⟨List.cons_ne_nil _ _, List.forall_mem_cons.mpr ⟨isDigit, mem_oneOf_kstar.mp more⟩⟩
  · rintro ⟨nonempty, digits⟩
    obtain ⟨c, others, rfl⟩ := List.exists_cons_of_ne_nil nonempty
    obtain ⟨isDigit, inside⟩ := List.forall_mem_cons.mp digits
    have first : [c] ∈ oneOf Char.isDigit := ⟨c, isDigit, rfl⟩
    exact Language.append_mem_mul first (mem_oneOf_kstar.mpr inside)

theorem mem_signs : text ∈ signs ↔ text = [] ∨ ∃ c ∈ ['+', '-'], text = [c] := by
  simp only [signs, Language.mem_add, Language.mem_one, List.mem_cons, List.not_mem_nil, or_false,
    exists_eq_or_imp, exists_eq_left, or_assoc]
  rfl

theorem digitRun_mul_self : digitRun * digitRun ≤ digitRun := by
  let single := oneOf Char.isDigit
  calc single * single∗ * (single * single∗) = single * (single∗ * (single * single∗)) := mul_assoc ..
    _ ≤ single * (single∗ * single∗) := by
      gcongr
      exact mul_kstar_le_kstar
    _ = single * single∗ := by rw [kstar_mul_kstar]

/-- A run that no low line separates from the one before belongs to it. -/
theorem kstar_le_of_runs {run line : Language Char} (joins : run * run ≤ run) :
    run * ((1 + line) * run)∗ ≤ run * (line * run)∗ := by
  have last : (line * run)∗ * run ≤ run + line * run * (line * run)∗ := by
    refine kstar_mul_le le_sup_left ?_
    rw [mul_add, mul_assoc line run run]
    refine add_le (le_trans ?_ le_sup_right) (le_trans ?_ le_sup_right)
    · calc line * (run * run) ≤ line * run := by gcongr
        _ ≤ line * run * (line * run)∗ := le_mul_of_one_le_right' one_le_kstar
    · gcongr
      exact mul_kstar_le_kstar
  refine mul_kstar_le (le_mul_of_one_le_right' one_le_kstar) ?_
  calc run * (line * run)∗ * ((1 + line) * run)
      = run * ((line * run)∗ * run) + run * ((line * run)∗ * (line * run)) := by
        rw [add_mul, one_mul, mul_add, mul_assoc, mul_assoc]
    _ ≤ run * (run + line * run * (line * run)∗) + run * (line * run)∗ := by
        gcongr
        exact kstar_mul_le_kstar
    _ ≤ run * (line * run)∗ := by
        rw [mul_add]
        refine add_le (add_le (joins.trans (le_mul_of_one_le_right' one_le_kstar)) ?_) le_rfl
        gcongr
        exact mul_kstar_le_kstar

theorem takes_digits : digits.Takes digitGroups := by
  have run : (manyOne digit).Takes digitRun := (Takes.charWhere _ _).manyOne
  have group : (keepRight (optional (literal "_")) (manyOne digit)).Takes
      ((1 + {['_']}) * digitRun) := (Takes.literal "_").optional.bind fun _ => run
  refine (run.bind fun _ => group.many.map fun _ => ()).mono (kstar_le_of_runs digitRun_mul_self)

theorem takes_sign : sign.Takes signs := by
  refine ((Takes.literal "+").orElse (Takes.literal "-")).optional.mono ?_
  rw [signs, add_assoc]
  rfl

/-- What a number is captured from is in the language, and it is the whole text if nothing is left. -/
theorem matched_number {body : Parser Unit} {language : Language Char} {label origin text : String}
    {node : Tree} {cursor after : Cursor} (takes : body.Takes language)
    (start : cursor.position = 0)
    (matched : (Tree.leaf label <$> capture body) (.ofText origin text) cursor = .matched node after)
    (whole : (Source.ofText origin text).size ≤ after.position) :
    text.toList ∈ language ∧ node = .leaf label ⟨text, .start origin⟩ := by
  obtain ⟨span, between, captured, ⟨⟩⟩ := matched_bind matched
  unfold capture at captured
  split at captured <;> cases captured
  rename_i value within
  obtain ⟨word, inside, rest, remains, reached⟩ := takes _ _ _ _ within
  rw [start, Nat.zero_add] at reached
  rw [start] at remains
  have spelled : text.toList = word ++ rest := remains
  have nothing : rest = [] := by
    have size := Source.size_ofText origin text
    have length := congrArg List.length spelled
    rw [String.length_toList, List.length_append] at length
    exact List.length_eq_zero_iff.mp (by omega)
  subst nothing
  have slice : (Source.ofText origin text).slice 0 word.length = text := by
    have taken := remains.slice
    rw [Nat.zero_add] at taken
    rw [taken, ← List.append_nil word, ← spelled, String.ofList_toList]
  rw [spelled, List.append_nil, start, reached, slice, placeOf_start]
  exact ⟨inside, rfl⟩

/-- Behind a run of digits there is no digit where groups follow. -/
theorem groups_head {groups : List (List Char)}
    (each : ∀ group ∈ groups, group ∈ ({['_']} : Language Char) * digitRun) (ends : EndsDigits rest) :
    ∀ c ∈ (groups.flatten ++ rest).head?, c.isDigit = false := by
  cases groups with
  | nil => exact fun c first => (ends c first).1
  | cons group groups =>
      obtain ⟨_, rfl, run, -, rfl⟩ := Language.mem_mul.mp (each group List.mem_cons_self)
      rintro _ ⟨⟩
      rfl

theorem groups_repeat {groups : List (List Char)}
    (each : ∀ group ∈ groups, group ∈ ({['_']} : Language Char) * digitRun) (ends : EndsDigits rest)
    (remains : source.Remains position (groups.flatten ++ rest)) :
    ∃ values, (keepRight (optional (literal "_")) (manyOne digit)).RepeatsAt source position values
      (position + groups.flatten.length) := by
  induction groups generalizing position with
  | nil => exact ⟨[], .nil (group_fails remains ends)⟩
  | cons group groups ih =>
      obtain ⟨first, others⟩ := List.forall_mem_cons.mp each
      obtain ⟨_, rfl, run, isRun, rfl⟩ := Language.mem_mul.mp first
      rw [List.flatten_cons, List.append_assoc, List.append_assoc] at remains
      obtain ⟨nonempty, digits⟩ := mem_digitRun.mp isRun
      have behind : source.Remains (position + 1) (run ++ (groups.flatten ++ rest)) := remains.tail
      obtain ⟨spans, matching⟩ := run_of_digits behind nonempty digits (groups_head others ends)
      obtain ⟨values, repeats⟩ := ih others behind.skip
      have line : (optional (literal "_")).MatchesAt source position _ (position + 1) :=
        (MatchesAt.mark rfl remains).optional
      refine ⟨spans :: values, .cons (line.bind matching) (by omega) remains.inside ?_⟩
      rw [List.flatten_cons, List.length_append, List.length_append, List.length_singleton,
        ← Nat.add_assoc, ← Nat.add_assoc]
      exact repeats

theorem digits_of_groups (grouped : word ∈ digitGroups) (ends : EndsDigits rest)
    (remains : source.Remains position (word ++ rest)) :
    digits.MatchesAt source position () (position + word.length) := by
  obtain ⟨run, isRun, _, later, rfl⟩ := Language.mem_mul.mp grouped
  obtain ⟨groups, rfl, each⟩ := Language.mem_kstar.mp later
  obtain ⟨nonempty, digits⟩ := mem_digitRun.mp isRun
  rw [List.append_assoc] at remains
  obtain ⟨spans, matching⟩ := run_of_digits remains nonempty digits (groups_head each ends)
  obtain ⟨values, repeats⟩ := groups_repeat each ends remains.skip
  rw [List.length_append, ← Nat.add_assoc]
  exact matching.bind (repeats.many.bind (.pure ()))

theorem digitGroups_head (grouped : word ∈ digitGroups) :
    ∃ c rest, word = c :: rest ∧ c.isDigit = true := by
  obtain ⟨run, isRun, later, -, rfl⟩ := Language.mem_mul.mp grouped
  obtain ⟨nonempty, digits⟩ := mem_digitRun.mp isRun
  obtain ⟨c, run, rfl⟩ := List.exists_cons_of_ne_nil nonempty
  exact ⟨c, _, rfl, digits c List.mem_cons_self⟩

theorem sign_of_signs (signed : word ∈ signs) (unsigned : ∀ c ∈ rest.head?, c ∉ ['+', '-'])
    (remains : source.Remains position (word ++ rest)) :
    ∃ found, sign.MatchesAt source position found (position + word.length) := by
  rcases mem_signs.mp signed with rfl | ⟨c, isSign, rfl⟩
  · exact ⟨none, sign_absent remains unsigned⟩
  · exact ⟨_, sign_taken isSign remains⟩

theorem digit_not_sign (isDigit : c.isDigit = true) : c ∉ ['+', '-'] := by
  rintro sign
  simp only [List.mem_cons, List.not_mem_nil, or_false] at sign
  rcases sign with rfl | rfl <;> cases isDigit

/-- An integer is taken to its end, and a decimal is not found there for want of a point. -/
theorem integer_of_text (isInteger : word ∈ integerTexts) (remains : source.Remains position word) :
    (keepRight sign digits).MatchesAt source position () (position + word.length) ∧
      decimal.FailsAt source position := by
  obtain ⟨sign, signed, groups, grouped, rfl⟩ := Language.mem_mul.mp isInteger
  obtain ⟨c, rest, spelled, isDigit⟩ := digitGroups_head grouped
  obtain ⟨found, signMatching⟩ := sign_of_signs signed
    (by rw [spelled]; rintro _ ⟨⟩; exact digit_not_sign isDigit) remains
  have behind := remains.skip
  rw [← List.append_nil groups] at behind
  have matching := digits_of_groups grouped (by rintro _ ⟨⟩) behind
  have unpointed : (literal ".").FailsAt source (position + sign.length + groups.length) :=
    .literal_of_remains behind.skip (by simp)
  rw [List.length_append, ← Nat.add_assoc]
  exact ⟨signMatching.bind matching, FailsAt.map (FailsAt.capture
    (signMatching.bind_fails (matching.optional.bind_fails unpointed.bind))) _⟩

theorem decimal_of_text (isDecimal : word ∈ decimalTexts) (remains : source.Remains position word) :
    decimal.MatchesAt source position
      (.leaf "decimal" ⟨source.slice position (position + word.length), source.placeOf position⟩)
      (position + word.length) := by
  obtain ⟨_, front, fraction, grouped, rfl⟩ := Language.mem_mul.mp isDecimal
  obtain ⟨_, start, _, rfl, rfl⟩ := Language.mem_mul.mp front
  obtain ⟨sign, signed, whole, optional, rfl⟩ := Language.mem_mul.mp start
  simp only [List.append_assoc] at remains
  have behind := remains.skip.skip.skip
  rw [← List.append_nil fraction] at behind
  have point : (literal ".").MatchesAt source (position + sign.length + whole.length)
      ⟨".", source.placeOf (position + sign.length + whole.length)⟩
      (position + sign.length + whole.length + 1) := .mark rfl remains.skip.skip
  have fractionMatching := digits_of_groups grouped (by rintro _ ⟨⟩) behind
  obtain ⟨found, wholeMatching, unsigned⟩ : ∃ found,
      (Parser.optional digits).MatchesAt source (position + sign.length) found
        (position + sign.length + whole.length) ∧
      ∀ c ∈ (whole ++ ('.' :: fraction)).head?, c ∉ ['+', '-'] := by
    rcases (Language.mem_add _ _ _).mp optional with rfl | grouped
    · refine ⟨none, (digits_fail remains.skip ?_).optional, ?_⟩
      · rintro _ ⟨⟩
        rfl
      · rintro _ ⟨⟩
        decide
    · obtain ⟨c, rest, spelled, isDigit⟩ := digitGroups_head grouped
      refine ⟨some (), (digits_of_groups grouped ?_ remains.skip).optional, ?_⟩
      · rintro _ ⟨⟩
        exact ⟨rfl, by decide⟩
      · rw [spelled]
        rintro _ ⟨⟩
        exact digit_not_sign isDigit
  obtain ⟨taken, signMatching⟩ := sign_of_signs signed unsigned remains
  have reached : position + (sign ++ whole ++ ['.'] ++ fraction).length =
      position + sign.length + whole.length + 1 + fraction.length := by
    simp only [List.length_append, List.length_singleton]
    omega
  rw [reached]
  exact (signMatching.bind (wholeMatching.bind (point.bind fractionMatching))).capture.map _

theorem remains_whole (origin text : String) :
    (Source.ofText origin text).Remains 0 (text.toList ++ []) := by
  rw [List.append_nil]
  exact Source.remains_ofText origin text

theorem slice_whole (origin text : String) :
    (Source.ofText origin text).slice 0 text.toList.length = text := by
  have taken := (remains_whole origin text).slice
  rwa [Nat.zero_add, String.ofList_toList] at taken

theorem remains_end (origin text : String) :
    (Source.ofText origin text).Remains text.toList.length [] := by
  have ended := (remains_whole origin text).skip
  rwa [Nat.zero_add] at ended

section

variable {origin text : String} {node : Tree}

theorem integer_matches (isInteger : text.toList ∈ integerTexts) :
    integer.MatchesAt (.ofText origin text) 0 (.leaf "integer" ⟨text, .start origin⟩)
      text.toList.length := by
  have matching := (integer_of_text isInteger (Source.remains_ofText origin text)).1
  rw [Nat.zero_add] at matching
  have node := matching.capture.map (Tree.leaf "integer")
  rwa [slice_whole, placeOf_start] at node

theorem decimal_matches (isDecimal : text.toList ∈ decimalTexts) :
    decimal.MatchesAt (.ofText origin text) 0 (.leaf "decimal" ⟨text, .start origin⟩)
      text.toList.length := by
  have matching := decimal_of_text isDecimal (Source.remains_ofText origin text)
  rwa [Nat.zero_add, slice_whole, placeOf_start] at matching

theorem matched_integer {cursor after : Cursor} (start : cursor.position = 0)
    (matched : integer (.ofText origin text) cursor = .matched node after)
    (whole : (Source.ofText origin text).size ≤ after.position) :
    text.toList ∈ integerTexts ∧ node = .leaf "integer" ⟨text, .start origin⟩ :=
  matched_number (takes_sign.bind fun _ => takes_digits) start matched whole

theorem matched_decimal {cursor after : Cursor} (start : cursor.position = 0)
    (matched : decimal (.ofText origin text) cursor = .matched node after)
    (whole : (Source.ofText origin text).size ≤ after.position) :
    text.toList ∈ decimalTexts ∧ node = .leaf "decimal" ⟨text, .start origin⟩ := by
  have body := takes_sign.bind fun _ => takes_digits.optional.bind fun _ =>
    (Takes.literal ".").bind fun _ => takes_digits
  rw [← mul_assoc, ← mul_assoc] at body
  exact matched_number body start matched whole

theorem readWhole_integer_iff : readWhole Rule.integer.parser origin text = .ok node ↔
    text.toList ∈ integerTexts ∧ node = .leaf "integer" ⟨text, .start origin⟩ := by
  constructor
  · intro accepted
    obtain ⟨after, matched, whole⟩ := matched_of_accepted accepted
    exact matched_integer rfl matched whole
  · rintro ⟨isInteger, rfl⟩
    exact readWhole_of_matchesAt (integer_matches isInteger) (remains_end origin text)

theorem readWhole_decimal_iff : readWhole Rule.decimal.parser origin text = .ok node ↔
    text.toList ∈ decimalTexts ∧ node = .leaf "decimal" ⟨text, .start origin⟩ := by
  constructor
  · intro accepted
    obtain ⟨after, matched, whole⟩ := matched_of_accepted accepted
    exact matched_decimal rfl matched whole
  · rintro ⟨isDecimal, rfl⟩
    exact readWhole_of_matchesAt (decimal_matches isDecimal) (remains_end origin text)

theorem readWhole_numeric_iff : readWhole Rule.numeric.parser origin text = .ok node ↔
    (text.toList ∈ integerTexts ∧ node = .leaf "integer" ⟨text, .start origin⟩) ∨
      (text.toList ∈ decimalTexts ∧ node = .leaf "decimal" ⟨text, .start origin⟩) := by
  constructor
  · intro accepted
    obtain ⟨after, matched, whole⟩ := matched_of_accepted accepted
    change decimal.orElse integer _ _ = _ at matched
    unfold orElse at matched
    split at matched
    · exact .inl (matched_integer rfl matched whole)
    · exact .inr (matched_decimal rfl matched whole)
  · rintro (⟨isInteger, rfl⟩ | ⟨isDecimal, rfl⟩)
    · have undecimal := (integer_of_text isInteger (Source.remains_ofText origin text)).2
      exact readWhole_of_matchesAt (undecimal.otherwise (integer_matches isInteger))
        (remains_end origin text)
    · exact readWhole_of_matchesAt ((decimal_matches isDecimal).orElse integer)
        (remains_end origin text)

end

end RipInterpreter.Concrete
