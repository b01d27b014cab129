import RipInterpreter.Proofs.Parsing.Regular

/-!
What a parser answers at a position of a text, whatever was recorded before: the calculus of
ordered choice. A regular parser either fails at a position or matches there in one way.
-/

namespace RipInterpreter.Parsing.Parser

variable {α β : Type} {levels least : Nat} {source : Source} {position middle finish : Nat}
  {cursor after : Cursor} {parser first second : Parser α} {next : α → Parser β} {value : α}
  {result : β} {c : Char}

/-- The parser fails at the position. -/
def FailsAt (source : Source) (position : Nat) (parser : Parser α) : Prop :=
  ∀ cursor : Cursor, cursor.position = position →
    ∃ failure after, parser source cursor = .failed failure after

/-- The parser matches the text from one position to another. -/
def MatchesAt (source : Source) (position : Nat) (parser : Parser α) (value : α) (finish : Nat) :
    Prop :=
  ∀ cursor : Cursor, cursor.position = position →
    ∃ after, parser source cursor = .matched value after ∧ after.position = finish

namespace Regular

/-- One match tells what the parser makes of the text with other failures recorded. -/
theorem matchesAt (regular : parser.Regular levels least) (inside : cursor.position ≤ source.size)
    (deep : source.size < levels + cursor.position)
    (matched : parser source cursor = .matched value after) :
    parser.MatchesAt source cursor.position value after.position := by
  intro other same
  have agree := regular source cursor other same inside deep
  rw [matched] at agree
  generalize parser source other = reply at agree ⊢
  cases agree with
  | matched same taken inside => exact ⟨_, rfl, same⟩

theorem bounds (regular : parser.Regular levels least) (inside : cursor.position ≤ source.size)
    (deep : source.size < levels + cursor.position)
    (matched : parser source cursor = .matched value after) :
    cursor.position + least ≤ after.position ∧ after.position ≤ source.size := by
  have agree := regular source cursor cursor rfl inside deep
  rw [matched] at agree
  cases agree with
  | matched same taken within => exact ⟨taken, within⟩

theorem fails_or_matches (regular : parser.Regular levels least) (inside : position ≤ source.size)
    (deep : source.size < levels + position) :
    parser.FailsAt source position ∨
      ∃ value finish, parser.MatchesAt source position value finish ∧ position + least ≤ finish := by
  have agree := regular source ⟨position, none⟩ ⟨position, none⟩ rfl inside deep
  generalize replied : parser source ⟨position, none⟩ = reply at agree
  cases agree with
  | @matched value after _ same taken within =>
      exact .inr ⟨value, after.position, regular.matchesAt inside deep replied, taken⟩
  | @failed failure _ after =>
      refine .inl fun other same => ?_
      have agree := regular source ⟨position, none⟩ other same inside deep
      rw [replied] at agree
      generalize parser source other = reply at agree ⊢
      cases agree with
      | failed => exact ⟨_, _, rfl⟩

/-- A parser that has to take a character fails at the end of the text. -/
theorem failsAt_end (regular : parser.Regular (levels + 1) (least + 1)) :
    parser.FailsAt source source.size := by
  intro cursor ended
  have agree := regular source cursor cursor rfl (by omega) (by omega)
  generalize parser source cursor = reply at agree ⊢
  cases agree with
  | matched same taken inside => omega
  | failed => exact ⟨_, _, rfl⟩

end Regular

namespace FailsAt

theorem not_matched (fails : parser.FailsAt source cursor.position)
    (matched : parser source cursor = .matched value after) : False := by
  obtain ⟨failure, later, failed⟩ := fails cursor rfl
  rw [matched] at failed
  cases failed

theorem bind (fails : first.FailsAt source position) : (first >>= next).FailsAt source position := by
  intro cursor same
  obtain ⟨failure, after, failed⟩ := fails cursor same
  exact ⟨failure, after, by rw [bind_apply, failed]⟩

theorem map (fails : first.FailsAt source position) (change : α → β) :
    (change <$> first).FailsAt source position := fails.bind

theorem capture (fails : parser.FailsAt source position) :
    (capture parser).FailsAt source position := by
  intro cursor same
  obtain ⟨failure, after, failed⟩ := fails cursor same
  exact ⟨failure, after, by rw [Parser.capture, failed]⟩

theorem orElse (fails : first.FailsAt source position) (otherwise : second.FailsAt source position) :
    (first.orElse second).FailsAt source position := by
  intro cursor same
  obtain ⟨failure, after, failed⟩ := fails cursor same
  unfold Parser.orElse
  rw [failed]
  exact otherwise _ same

/-- A failure leaves the choice to the second parser. -/
theorem otherwise (fails : first.FailsAt source position)
    (matching : second.MatchesAt source position value finish) :
    (first.orElse second).MatchesAt source position value finish := by
  intro cursor same
  obtain ⟨failure, after, failed⟩ := fails cursor same
  unfold Parser.orElse
  rw [failed]
  exact matching _ same

theorem optional (fails : parser.FailsAt source position) :
    (optional parser).MatchesAt source position none position := by
  intro cursor same
  obtain ⟨failure, after, failed⟩ := fails cursor same
  exact ⟨after.moveTo cursor.position, by rw [Parser.optional, failed], same⟩

theorem manyUpTo (fails : parser.FailsAt source position) (rounds : Nat) :
    (manyUpTo parser rounds).MatchesAt source position [] position := by
  intro cursor same
  obtain ⟨failure, after, failed⟩ := fails cursor same
  cases rounds with
  | zero => exact ⟨cursor, rfl, same⟩
  | succ rounds => exact ⟨after.moveTo cursor.position, by rw [Parser.manyUpTo, failed], same⟩

theorem many (fails : parser.FailsAt source position) :
    (many parser).MatchesAt source position [] position :=
  fun cursor same => fails.manyUpTo _ cursor same

/-- A text needs its first character. -/
theorem literal {expected : String} {head : Char} {rest : List Char}
    (absent : source.chars[position]? ≠ some head) (spelled : expected.toList = head :: rest) :
    (literal expected).FailsAt source position := by
  rintro cursor rfl
  have different : source.continuesWith cursor.position expected.toList = false := by
    rw [spelled]
    unfold Source.continuesWith
    rw [beq_eq_false_iff_ne.mpr absent, Bool.false_and]
  unfold Parser.literal
  rw [different]
  exact ⟨_, _, rfl⟩

theorem charWhere {accepts : Char → Bool} (stands : source.chars[position]? = some c)
    (refused : accepts c = false) (expected : String) :
    (charWhere accepts expected).FailsAt source position := by
  rintro cursor rfl
  unfold Parser.charWhere Cursor.peek
  rw [stands]
  simp only [refused]
  exact ⟨_, _, rfl⟩

end FailsAt

namespace MatchesAt

theorem pure (value : α) : (pure value : Parser α).MatchesAt source position value position :=
  fun cursor same => ⟨cursor, rfl, same⟩

theorem bind (matching : first.MatchesAt source position value middle)
    (later : (next value).MatchesAt source middle result finish) :
    (first >>= next).MatchesAt source position result finish := by
  intro cursor same
  obtain ⟨between, matched, reached⟩ := matching cursor same
  rw [bind_apply, matched]
  exact later between reached

theorem bind_fails (matching : first.MatchesAt source position value middle)
    (fails : (next value).FailsAt source middle) : (first >>= next).FailsAt source position := by
  intro cursor same
  obtain ⟨between, matched, reached⟩ := matching cursor same
  rw [bind_apply, matched]
  exact fails between reached

theorem orElse (matching : first.MatchesAt source position value finish) (second : Parser α) :
    (first.orElse second).MatchesAt source position value finish := by
  intro cursor same
  obtain ⟨after, matched, reached⟩ := matching cursor same
  exact ⟨after, by rw [Parser.orElse, matched], reached⟩

/-- A repetition that ends after its first round. -/
theorem many_once (matching : parser.MatchesAt source position value finish)
    (moves : position < finish) (fails : parser.FailsAt source finish) :
    (many parser).MatchesAt source position [value] finish := by
  rintro cursor rfl
  obtain ⟨between, matched, rfl⟩ := matching cursor rfl
  obtain ⟨after, ended, reached⟩ := fails.manyUpTo (source.size - cursor.position) between rfl
  refine ⟨after, ?_, reached⟩
  simp only [many, manyUpTo, matched, if_pos moves, ended]

theorem endOfInput : endOfInput.MatchesAt source source.size () source.size := by
  intro cursor ended
  refine ⟨cursor, ?_, ended⟩
  unfold Parser.endOfInput
  rw [if_neg (by omega)]

end MatchesAt

/-- A sequence matches where its parts match one after the other. -/
theorem matched_bind (matched : (first >>= next) source cursor = .matched result after) :
    ∃ value between, first source cursor = .matched value between ∧
      next value source between = .matched result after := by
  rw [bind_apply] at matched
  split at matched
  · exact ⟨_, _, ‹_›, matched⟩
  · cases matched
  · cases matched

/-- The rounds of a repetition, each of which starts where the one before has ended. The last one is
dropped if it does not move on. -/
inductive Rounds (parser : Parser α) (source : Source) : Cursor → List α → Cursor → Prop
  | done {cursor after : Cursor} (same : after.position = cursor.position) :
    Rounds parser source cursor [] after
  | stay {cursor after : Cursor} {value : α} (matched : parser source cursor = .matched value after)
    (unmoved : after.position ≤ cursor.position) : Rounds parser source cursor [] after
  | next {cursor between after : Cursor} {value : α} {values : List α}
    (matched : parser source cursor = .matched value between)
    (rest : Rounds parser source between values after) :
    Rounds parser source cursor (value :: values) after

theorem rounds_of_many {values : List α}
    (matched : many parser source cursor = .matched values after) :
    Rounds parser source cursor values after := by
  unfold many at matched
  generalize source.size - cursor.position + 1 = rounds at matched
  induction rounds generalizing cursor values with
  | zero =>
      cases matched
      exact .done rfl
  | succ rounds ih =>
      unfold manyUpTo at matched
      split at matched
      · split at matched
        · split at matched
          · cases matched
            exact .next ‹_› (ih ‹_›)
          · rename_i unmatched
            exact absurd matched (unmatched _ after)
        · rename_i read unmoved
          cases matched
          exact .stay read (Nat.le_of_not_lt unmoved)
      · cases matched
        exact .done rfl
      · cases matched

theorem rounds_of_manyUntil {stops : Source → Nat → Bool} {values : List α}
    (matched : manyUntil stops parser source cursor = .matched values after) :
    Rounds parser source cursor values after := by
  unfold manyUntil at matched
  generalize source.size - cursor.position + 1 = rounds at matched
  induction rounds generalizing cursor values with
  | zero => cases matched
  | succ rounds ih =>
      unfold repeatUntil at matched
      split at matched
      · cases matched
        exact .done rfl
      · split at matched
        · split at matched
          · cases matched
            exact .next ‹_› (ih ‹_›)
          · rename_i unmatched
            exact absurd matched (unmatched _ after)
        · cases matched
        · cases matched

/-- The first value of a repetition is what the parser makes of the text there. -/
theorem matched_many {values : List α}
    (matched : many parser source cursor = .matched (value :: values) after) :
    ∃ between, parser source cursor = .matched value between := by
  cases rounds_of_many matched with
  | next first rest => exact ⟨_, first⟩

theorem matched_literal {expected : String} {span : Span} {head : Char} {rest : List Char}
    (matched : literal expected source cursor = .matched span after)
    (spelled : expected.toList = head :: rest) :
    source.chars[cursor.position]? = some head ∧
      after.position = cursor.position + expected.length := by
  unfold literal at matched
  split at matched
  · rename_i continues
    cases matched
    rw [spelled] at continues
    exact ⟨eq_of_beq (Bool.and_eq_true_iff.mp continues).1, rfl⟩
  · cases matched

theorem matched_charWhere {accepts : Char → Bool} {expected : String} {span : Span}
    (matched : charWhere accepts expected source cursor = .matched span after) :
    after.position = cursor.position + 1 ∧
      ∃ c, source.chars[cursor.position]? = some c ∧ accepts c = true := by
  unfold charWhere Cursor.peek at matched
  split at matched
  · split at matched
    · cases matched
      exact ⟨rfl, _, ‹_›, ‹_›⟩
    · cases matched
  · cases matched

/-- A repetition over characters of a class has one of them right behind it, unless it is empty. -/
theorem matched_many_charWhere {accepts : Char → Bool} {expected : String} {spans : List Span}
    (matched : many (charWhere accepts expected) source cursor = .matched spans after) :
    after.position = cursor.position ∨ cursor.position < after.position ∧
      ∃ c, source.chars[after.position - 1]? = some c ∧ accepts c = true := by
  have rounds := rounds_of_many matched
  clear matched
  induction rounds with
  | done same => exact .inl same
  | stay matched unmoved =>
      obtain ⟨one, -⟩ := matched_charWhere matched
      omega
  | @next cursor between after _ _ matched rest ih =>
      obtain ⟨one, c, stands, accepted⟩ := matched_charWhere matched
      rcases ih with same | ⟨further, last⟩
      · rw [same, one, Nat.add_sub_cancel]
        exact .inr ⟨Nat.lt_succ_self _, c, stands, accepted⟩
      · exact .inr ⟨by omega, last⟩

end RipInterpreter.Parsing.Parser
