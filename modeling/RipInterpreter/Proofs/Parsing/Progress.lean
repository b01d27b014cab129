import RipInterpreter.Proofs.Parsing.Answers

namespace RipInterpreter.Parsing.Parser

variable {α : Type} {levels rounds : Nat} {source : Source} {cursor after : Cursor}
  {parser : Parser α} {values : List α}

/-- Repeats a parser until it fails, whether it moves on or not; exhausted if it has not failed
after so many rounds. -/
def repeatToFailure (parser : Parser α) : (rounds : Nat) → Parser (List α)
  | 0, _, _ => .exhausted
  | rounds + 1, source, cursor =>
    match parser source cursor with
    | .matched value after =>
      match repeatToFailure parser rounds source after with
      | .matched values last => .matched (value :: values) last
      | reply => reply
    | .failed _ after => .matched [] (after.moveTo cursor.position)
    | .exhausted => .exhausted

/-- A repetition never fails: the failure of its parser ends it. -/
theorem many_ne_failed (failure : Failure) : many parser source cursor ≠ .failed failure after := by
  have repeated (rounds : Nat) (cursor : Cursor) :
      manyUpTo parser rounds source cursor ≠ .failed failure after := by
    intro failed
    induction rounds generalizing cursor with
    | zero => cases failed
    | succ rounds ih =>
        unfold manyUpTo at failed
        generalize parser source cursor = reply at failed
        cases reply with
        | failed | exhausted => cases failed
        | matched value middle =>
            dsimp only at failed
            split at failed
            · split at failed
              · cases failed
              · exact ih middle failed
            · cases failed
  exact repeated _ cursor

namespace Regular

/-- By induction on the rounds, of which there are more than characters left. -/
theorem manyUpTo_eq (regular : parser.Regular levels 1) (inside : cursor.position ≤ source.size)
    (deep : source.size < levels + cursor.position)
    (enough : source.size < rounds + cursor.position) :
    manyUpTo parser rounds source cursor = repeatToFailure parser rounds source cursor := by
  induction rounds generalizing cursor with
  | zero => omega
  | succ rounds ih =>
      unfold manyUpTo repeatToFailure
      generalize replied : parser source cursor = reply
      cases reply with
      | failed failure after => rfl
      | exhausted => rfl
      | matched value after =>
          obtain ⟨taken, within⟩ := regular.bounds inside deep replied
          have moved : cursor.position < after.position := taken
          have rest : manyUpTo parser rounds source after =
              repeatToFailure parser rounds source after := ih within (by omega) (by omega)
          simp only
          rw [rest]
          exact if_pos moved

/-- The guard of a repetition never stops it: it goes on until its parser fails. -/
theorem many_eq (regular : parser.Regular levels 1) (inside : cursor.position ≤ source.size)
    (deep : source.size < levels + cursor.position) :
    Parser.many parser source cursor =
      repeatToFailure parser (source.size - cursor.position + 1) source cursor :=
  regular.manyUpTo_eq inside deep (by omega)

/-- A repetition takes a character for each value. -/
theorem length_many (regular : parser.Regular levels 1) (inside : cursor.position ≤ source.size)
    (deep : source.size < levels + cursor.position)
    (matched : Parser.many parser source cursor = .matched values after) :
    cursor.position + values.length ≤ after.position := by
  have rounds := rounds_of_many matched
  clear matched
  induction rounds with
  | done same => exact Nat.le_of_eq same.symm
  | stay matched =>
      obtain ⟨taken, -⟩ := regular.bounds inside deep matched
      exact Nat.le_of_succ_le taken
  | next matched rest ih =>
      obtain ⟨taken, within⟩ := regular.bounds inside deep matched
      have counted := ih within (by omega)
      rw [List.length_cons]
      omega

end Regular

end RipInterpreter.Parsing.Parser
