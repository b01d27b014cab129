import RipInterpreter.Parsing.Parser

/-!
Regular parsers. What such a parser makes of a text is decided by the position it starts at: the
failures recorded before do not matter. It stays inside the text, takes at least some number of
characters, and is never exhausted where it has more levels than there are characters left.
-/

namespace RipInterpreter.Parsing

variable {α β : Type}

/-- Two answers are the same but for recorded failures, and lead to a position in the range. -/
inductive Reply.Agree (low high : Nat) : Reply α → Reply α → Prop
  | matched {value : α} {after after₁ : Cursor} (same : after₁.position = after.position)
    (least : low ≤ after.position) (inside : after.position ≤ high) :
    Agree low high (.matched value after) (.matched value after₁)
  | failed {failure failure₁ : Failure} {after after₁ : Cursor} :
    Agree low high (.failed failure after) (.failed failure₁ after₁)

namespace Parser

variable {levels fewer least : Nat} {parser first second : Parser α} {next : α → Parser β}

/-- With so many levels the parser takes at least so many characters, and only the position it starts
at decides what it makes of them. -/
def Regular (levels least : Nat) (parser : Parser α) : Prop :=
  ∀ source cursor cursor₁, cursor₁.position = cursor.position → cursor.position ≤ source.size →
    source.size < levels + cursor.position →
    Reply.Agree (cursor.position + least) source.size (parser source cursor) (parser source cursor₁)

theorem bind_apply (first : Parser α) (next : α → Parser β) (source : Source) (cursor : Cursor) :
    (first >>= next) source cursor =
      match first source cursor with
      | .matched value after => next value source after
      | .failed failure after => .failed failure after
      | .exhausted => .exhausted := rfl

namespace Regular

/-- Fewer levels, and less to be taken. -/
theorem mono {less : Nat} (regular : parser.Regular levels least) (shallower : fewer ≤ levels)
    (smaller : less ≤ least) : parser.Regular fewer less := by
  intro source cursor cursor₁ same inside deep
  have agree := regular source cursor cursor₁ same inside (by omega)
  generalize parser source cursor = reply, parser source cursor₁ = reply₁ at agree ⊢
  cases agree with
  | matched same least inside => exact .matched same (by omega) inside
  | failed => exact .failed

theorem zero (regular : parser.Regular levels least) : parser.Regular levels 0 :=
  regular.mono (Nat.le_refl levels) (Nat.zero_le least)

theorem shallow (regular : parser.Regular (levels + 1) least) : parser.Regular levels least :=
  regular.mono (Nat.le_succ levels) (Nat.le_refl least)

/-- Where no level is left there is nothing to show. -/
theorem exhausted : parser.Regular 0 least := by
  intro source cursor cursor₁ _ inside deep
  omega

theorem pure (value : α) : (pure value : Parser α).Regular levels 0 :=
  fun _ _ _ same inside _ => .matched same (by omega) inside

/-- The second parser needs as many levels fewer as the first one takes characters. -/
theorem bind {rest : Nat} (before : first.Regular levels least)
    (after : ∀ value, (next value).Regular fewer rest) (enough : levels ≤ fewer + least) :
    (first >>= next).Regular levels (least + rest) := by
  intro source cursor cursor₁ same inside deep
  have agree := before source cursor cursor₁ same inside deep
  rw [bind_apply, bind_apply]
  generalize first source cursor = reply, first source cursor₁ = reply₁ at agree ⊢
  cases agree with
  | failed => exact .failed
  | @matched value middle middle₁ same taken inside =>
      have later := after value source middle middle₁ same inside (by omega)
      simp only
      generalize next value source middle = reply, next value source middle₁ = reply₁ at later ⊢
      cases later with
      | failed => exact .failed
      | matched same more inside => exact .matched same (by omega) inside

/-- The second parser takes the characters. -/
theorem andThen (before : first.Regular levels 0)
    (after : ∀ value, (next value).Regular levels least) :
    (first >>= next).Regular levels least :=
  (before.bind after (Nat.le_refl levels)).mono (Nat.le_refl levels) (by omega)

/-- The first parser takes the characters. -/
theorem followed (before : first.Regular levels least)
    (after : ∀ value, (next value).Regular levels 0) : (first >>= next).Regular levels least :=
  before.bind after (Nat.le_add_right levels least)

/-- The character that the first parser takes pays for one level. -/
theorem enter (before : first.Regular (levels + 1) 1)
    (after : ∀ value, (next value).Regular levels 0) :
    (first >>= next).Regular (levels + 1) 1 :=
  before.bind after (Nat.le_refl _)

theorem map (regular : parser.Regular levels least) (change : α → β) :
    (change <$> parser).Regular levels least :=
  regular.followed fun value => pure (change value)

theorem orElse (regular : first.Regular levels least) (otherwise : second.Regular levels least) :
    (first.orElse second).Regular levels least := by
  intro source cursor cursor₁ same inside deep
  have agree := regular source cursor cursor₁ same inside deep
  unfold Parser.orElse
  generalize first source cursor = reply, first source cursor₁ = reply₁ at agree ⊢
  cases agree with
  | matched same taken inside => exact .matched same taken inside
  | @failed _ _ after after₁ =>
      exact otherwise source (after.moveTo cursor.position) (after₁.moveTo cursor₁.position) same
        inside deep

theorem label (regular : parser.Regular levels least) (name : String) :
    (label name parser).Regular levels least := by
  intro source cursor cursor₁ same inside deep
  have agree := regular source cursor cursor₁ same inside deep
  unfold Parser.label
  generalize parser source cursor = reply, parser source cursor₁ = reply₁ at agree ⊢
  cases agree with
  | matched same taken inside => exact .matched same taken inside
  | failed => exact .failed

theorem optional (regular : parser.Regular levels least) :
    (optional parser).Regular levels 0 := by
  intro source cursor cursor₁ same inside deep
  have agree := regular source cursor cursor₁ same inside deep
  unfold Parser.optional
  generalize parser source cursor = reply, parser source cursor₁ = reply₁ at agree ⊢
  cases agree with
  | matched same taken inside => exact .matched same (by omega) inside
  | failed => exact .matched same (Nat.le_refl _) inside

theorem notFollowedBy (regular : parser.Regular levels least) (expected : String) :
    (notFollowedBy parser expected).Regular levels 0 := by
  intro source cursor cursor₁ same inside deep
  have agree := regular source cursor cursor₁ same inside deep
  unfold Parser.notFollowedBy
  generalize parser source cursor = reply, parser source cursor₁ = reply₁ at agree ⊢
  cases agree with
  | matched same taken inside => exact .failed
  | failed => exact .matched same (Nat.le_refl _) inside

theorem capture (regular : parser.Regular levels least) :
    (capture parser).Regular levels least := by
  intro source cursor cursor₁ same inside deep
  have agree := regular source cursor cursor₁ same inside deep
  unfold Parser.capture
  rw [same]
  generalize parser source cursor = reply, parser source cursor₁ = reply₁ at agree ⊢
  cases agree with
  | matched equal taken inside =>
      simp only [equal]
      exact .matched equal taken inside
  | failed => exact .failed

theorem many (regular : parser.Regular levels least) : (many parser).Regular levels 0 := by
  have repeated (rounds : Nat) : (manyUpTo parser rounds).Regular levels 0 := by
    induction rounds with
    | zero => exact fun _ _ _ same inside _ => .matched same (by omega) inside
    | succ rounds ih =>
        intro source cursor cursor₁ same inside deep
        have agree := regular source cursor cursor₁ same inside deep
        unfold manyUpTo
        rw [same]
        generalize parser source cursor = reply, parser source cursor₁ = reply₁ at agree ⊢
        cases agree with
        | failed => exact .matched rfl (Nat.le_refl _) inside
        | @matched value middle middle₁ equal taken within =>
            simp only [equal]
            split
            · have later := ih source middle middle₁ equal within (by omega)
              generalize manyUpTo parser rounds source middle = reply,
                manyUpTo parser rounds source middle₁ = reply₁ at later ⊢
              cases later with
              | matched equal more within => exact .matched equal (by omega) within
              | failed => exact .failed
            · exact .matched equal (by omega) within
  intro source cursor cursor₁ same inside deep
  unfold Parser.many
  rw [same]
  exact repeated _ source cursor cursor₁ same inside deep

theorem manyOne (regular : parser.Regular levels least) : (manyOne parser).Regular levels least :=
  regular.followed fun _ => regular.many.andThen fun _ => pure _

theorem keepLeft {other : Parser β} (regular : parser.Regular levels least)
    (after : other.Regular levels 0) : (keepLeft parser other).Regular levels least :=
  regular.followed fun _ => after.andThen fun _ => pure _

theorem keepRight {other : Parser β} (before : parser.Regular levels 0)
    (regular : other.Regular levels least) : (keepRight parser other).Regular levels least :=
  before.andThen fun _ => regular

theorem separated {separator : Parser β} (regular : parser.Regular levels least)
    (between : separator.Regular levels 0) : (separated parser separator).Regular levels 0 := by
  refine regular.optional.andThen fun found => ?_
  cases found with
  | none => exact pure []
  | some first => exact (keepRight between regular).many.andThen fun _ => pure _

end Regular

theorem continuesWith_bound {source : Source} {index : Nat} {expected : List Char}
    (held : source.continuesWith index expected = true) (inside : index ≤ source.size) :
    index + expected.length ≤ source.size := by
  induction expected generalizing index with
  | nil => exact inside
  | cons c rest ih =>
      obtain ⟨here, later⟩ := Bool.and_eq_true_iff.mp held
      have present : index < source.size := by
        have found : source.chars[index]? = some c := eq_of_beq here
        exact (Array.getElem?_eq_some_iff.mp found).1
      have bound := ih later present
      simp only [List.length_cons]
      omega

theorem regular_literal {expected : String} (nonempty : 1 ≤ expected.length) :
    (literal expected).Regular levels 1 := by
  intro source cursor cursor₁ same inside deep
  unfold literal
  rw [same]
  split
  · rename_i held
    have bound := continuesWith_bound held inside
    rw [String.length_toList] at bound
    exact .matched rfl (by simp only [Cursor.moveTo]; omega) bound
  · exact .failed

theorem regular_charWhere (accepts : Char → Bool) (expected : String) :
    (charWhere accepts expected).Regular levels 1 := by
  intro source cursor cursor₁ same inside deep
  unfold charWhere Cursor.peek
  rw [same]
  split
  · rename_i c found
    have present : cursor.position < source.size := (Array.getElem?_eq_some_iff.mp found).1
    split
    · exact .matched rfl (Nat.le_refl _) present
    · exact .failed
  · exact .failed

theorem regular_anyChar : anyChar.Regular levels 1 := regular_charWhere _ _

theorem regular_endOfInput : endOfInput.Regular levels 0 := by
  intro source cursor cursor₁ same inside deep
  unfold endOfInput
  rw [same]
  split
  · exact .failed
  · exact .matched same (Nat.le_refl _) inside

theorem regular_here : here.Regular levels 0 := by
  intro source cursor cursor₁ same inside deep
  unfold here
  rw [same]
  exact .matched same (Nat.le_refl _) inside

theorem regular_failureHere (message : String) : (failureHere message).Regular levels 0 := by
  intro source cursor cursor₁ same inside deep
  unfold failureHere Cursor.failureHere Cursor.peek
  rw [same]
  exact .matched same (Nat.le_refl _) inside

theorem regular_refuse (failure : Failure) : (refuse failure : Parser α).Regular levels least :=
  fun _ _ _ _ _ _ => .failed

theorem regular_failFurthest (message : String) :
    (failFurthest message : Parser α).Regular levels least := fun _ _ _ _ _ _ => .failed

/-- There are enough rounds for a parser that takes a character each time. -/
theorem Regular.manyUntil (regular : parser.Regular levels 1) (stops : Source → Nat → Bool) :
    (manyUntil stops parser).Regular levels 0 := by
  have repeated (rounds : Nat) (source : Source) (cursor cursor₁ : Cursor)
      (same : cursor₁.position = cursor.position) (inside : cursor.position ≤ source.size)
      (deep : source.size < levels + cursor.position)
      (enough : source.size < rounds + cursor.position) :
      Reply.Agree (cursor.position + 0) source.size (repeatUntil stops parser rounds source cursor)
        (repeatUntil stops parser rounds source cursor₁) := by
    induction rounds generalizing cursor cursor₁ with
    | zero => omega
    | succ rounds ih =>
        have agree := regular source cursor cursor₁ same inside deep
        unfold repeatUntil
        rw [same]
        split
        · exact .matched same (Nat.le_refl _) inside
        · generalize parser source cursor = reply, parser source cursor₁ = reply₁ at agree ⊢
          cases agree with
          | failed => exact .failed
          | @matched value middle middle₁ equal taken within =>
              have later := ih middle middle₁ equal within (by omega) (by omega)
              simp only
              generalize repeatUntil stops parser rounds source middle = reply,
                repeatUntil stops parser rounds source middle₁ = reply₁ at later ⊢
              cases later with
              | matched equal more within => exact .matched equal (by omega) within
              | failed => exact .failed
  intro source cursor cursor₁ same inside deep
  unfold Parser.manyUntil
  rw [same]
  exact repeated _ source cursor cursor₁ same inside deep (by omega)

theorem stops_repeatUntil {stops : Source → Nat → Bool} {rounds : Nat} {source : Source}
    {cursor after : Cursor} {values : List α}
    (matched : repeatUntil stops parser rounds source cursor = .matched values after) :
    stops source after.position = true := by
  induction rounds generalizing cursor values with
  | zero => cases matched
  | succ rounds ih =>
      unfold repeatUntil at matched
      split at matched
      · cases matched
        assumption
      · split at matched
        · split at matched
          · cases matched
            exact ih ‹_›
          · rename_i unmatched
            exact absurd matched (unmatched values after)
        · cases matched
        · cases matched

/-- What follows a repetition may rely on the condition that has ended it. -/
theorem Regular.bindStopped {stops : Source → Nat → Bool} {next : List α → Parser β}
    (regular : (Parser.manyUntil stops parser).Regular levels 0)
    (after : ∀ values source cursor cursor₁, cursor₁.position = cursor.position →
      cursor.position ≤ source.size → stops source cursor.position = true →
      Reply.Agree cursor.position source.size (next values source cursor)
        (next values source cursor₁)) :
    (Parser.manyUntil stops parser >>= next).Regular levels 0 := by
  intro source cursor cursor₁ same inside deep
  have agree := regular source cursor cursor₁ same inside deep
  have stopped (values : List α) (middle : Cursor)
      (matched : Parser.manyUntil stops parser source cursor = .matched values middle) :
      stops source middle.position = true := stops_repeatUntil matched
  rw [bind_apply, bind_apply]
  generalize Parser.manyUntil stops parser source cursor = reply,
    Parser.manyUntil stops parser source cursor₁ = reply₁ at agree stopped ⊢
  cases agree with
  | failed => exact .failed
  | @matched values middle middle₁ equal taken within =>
      have later := after values source middle middle₁ equal within (stopped values middle rfl)
      simp only
      generalize next values source middle = reply, next values source middle₁ = reply₁ at later ⊢
      cases later with
      | failed => exact .failed
      | matched equal more within => exact .matched equal (by omega) within

end Parser

end RipInterpreter.Parsing
