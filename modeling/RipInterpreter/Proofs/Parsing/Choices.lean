import RipInterpreter.Proofs.Parsing.Yields

namespace RipInterpreter.Parsing.Parser

variable {α β : Type} {source : Source} {position middle finish : Nat}
  {parser first second : Parser α} {next : α → Parser β} {value : α} {cursor after : Cursor}
  {expected : α → Prop}

/-- The parser does not fail at the position. -/
def PassesAt (source : Source) (position : Nat) (parser : Parser α) : Prop :=
  ∀ cursor : Cursor, cursor.position = position →
    ∀ failure after, parser source cursor ≠ .failed failure after

theorem MatchesAt.passes (matching : parser.MatchesAt source position value finish) :
    parser.PassesAt source position := by
  intro cursor same failure after failed
  obtain ⟨last, matched, -⟩ := matching cursor same
  rw [matched] at failed
  cases failed

/-- What follows a match does not fail. -/
theorem MatchesAt.bind_passes (matching : first.MatchesAt source position value middle)
    (later : (next value).PassesAt source middle) : (first >>= next).PassesAt source position := by
  intro cursor same failure after failed
  obtain ⟨between, matched, reached⟩ := matching cursor same
  rw [bind_apply, matched] at failed
  exact later between reached failure after failed

namespace PassesAt

theorem pure (value : α) : (pure value : Parser α).PassesAt source position :=
  (MatchesAt.pure value).passes

/-- Neither part of a sequence fails. -/
theorem bind (passes : first.PassesAt source position)
    (later : ∀ value middle, (next value).PassesAt source middle) :
    (first >>= next).PassesAt source position := by
  intro cursor same failure after failed
  rw [bind_apply] at failed
  split at failed
  · exact later _ _ _ rfl failure after failed
  · exact passes cursor same _ _ ‹_›
  · cases failed

theorem map (passes : first.PassesAt source position) (change : α → β) :
    (change <$> first).PassesAt source position := passes.bind fun _ _ => .pure _

theorem capture (passes : parser.PassesAt source position) :
    (capture parser).PassesAt source position := by
  intro cursor same failure after failed
  unfold Parser.capture at failed
  split at failed
  · cases failed
  · exact passes cursor same _ _ ‹_›
  · cases failed

theorem optional (parser : Parser α) : (optional parser).PassesAt source position := by
  intro cursor same failure after failed
  unfold Parser.optional at failed
  split at failed <;> cases failed

theorem manyUpTo (parser : Parser α) (rounds : Nat) :
    (manyUpTo parser rounds).PassesAt source position := by
  induction rounds generalizing position with
  | zero => exact PassesAt.pure ([] : List α)
  | succ rounds ih =>
      intro cursor same failure after failed
      unfold Parser.manyUpTo at failed
      split at failed
      · split at failed
        · split at failed
          · cases failed
          · exact ih _ rfl failure after failed
        · cases failed
      · cases failed
      · cases failed

theorem many (parser : Parser α) : (many parser).PassesAt source position :=
  fun cursor same => manyUpTo parser _ cursor same

theorem orElse (passes : first.PassesAt source position) (second : Parser α) :
    (first.orElse second).PassesAt source position := by
  intro cursor same failure after failed
  unfold Parser.orElse at failed
  split at failed
  · exact passes cursor same _ _ ‹_›
  · exact passes cursor same _ _ failed

theorem otherwise (first : Parser α) (passes : second.PassesAt source position) :
    (first.orElse second).PassesAt source position := by
  intro cursor same failure after failed
  unfold Parser.orElse at failed
  split at failed
  · rename_i reason last refused
    exact passes (last.moveTo cursor.position) same _ _ failed
  · rename_i unfailed
    exact unfailed _ _ failed

end PassesAt

/-- The values that the parser reads at one position are as expected. -/
def YieldsAt (source : Source) (position : Nat) (expected : α → Prop) (parser : Parser α) : Prop :=
  ∀ cursor value after, cursor.position = position →
    parser source cursor = .matched value after → expected value

theorem Yields.at (yields : parser.Yields expected) (source : Source) (position : Nat) :
    parser.YieldsAt source position expected :=
  fun cursor value after _ matched => yields source cursor value after matched

theorem Yields.of_positions
    (yields : ∀ source position, parser.YieldsAt source position expected) :
    parser.Yields expected :=
  fun source cursor value after matched => yields source _ cursor value after rfl matched

/-- The second parser may rely on the failure of the first. -/
theorem YieldsAt.orElse (yields : first.YieldsAt source position expected)
    (otherwise : ¬ first.PassesAt source position → second.YieldsAt source position expected) :
    (first.orElse second).YieldsAt source position expected := by
  intro cursor value after same matched
  unfold Parser.orElse at matched
  split at matched
  · rename_i failure last failed
    have fails : ¬ first.PassesAt source position := fun passes => passes cursor same _ _ failed
    exact otherwise fails (last.moveTo cursor.position) value after same matched
  · exact yields cursor value after same matched

/-- One of the two parsers has matched. -/
theorem matched_orElse (matched : (first.orElse second) source cursor = .matched value after) :
    first source cursor = .matched value after ∨
      ∃ start : Cursor, start.position = cursor.position ∧
        second source start = .matched value after := by
  unfold orElse at matched
  split at matched
  · rename_i failure last failed
    exact .inr ⟨last.moveTo cursor.position, rfl, matched⟩
  · exact .inl matched

end RipInterpreter.Parsing.Parser
