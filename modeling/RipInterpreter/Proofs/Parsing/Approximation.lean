import RipInterpreter.Parsing.Parser

namespace RipInterpreter.Parsing

variable {α β : Type}

/-- The second answer is the first one, unless that is missing, and lies behind the start. -/
inductive Reply.Follows (start : Nat) : Reply α → Reply α → Prop
  | exhausted {reply : Reply α} : Follows start .exhausted reply
  | matched {value : α} {after : Cursor} (behind : start ≤ after.position) :
    Follows start (.matched value after) (.matched value after)
  | failed {failure : Failure} {after : Cursor} (behind : start ≤ after.position) :
    Follows start (.failed failure after) (.failed failure after)

namespace Reply.Follows

variable {start sooner : Nat} {reply reply₁ : Reply α}

theorem earlier (follows : Follows start reply reply₁) (before : sooner ≤ start) :
    Follows sooner reply reply₁ := by
  cases follows with
  | exhausted => exact .exhausted
  | matched behind => exact .matched (Nat.le_trans before behind)
  | failed behind => exact .failed (Nat.le_trans before behind)

theorem eq (follows : Follows start reply reply₁) (answered : reply ≠ .exhausted) :
    reply = reply₁ := by
  cases follows with
  | exhausted => exact absurd rfl answered
  | matched => rfl
  | failed => rfl

end Reply.Follows

namespace Parser

variable {source : Source} {parser parser₁ first first₁ second second₁ : Parser α}
  {next next₁ : α → Parser β}

def Approximates (source : Source) (parser parser₁ : Parser α) : Prop :=
  ∀ cursor : Cursor, Reply.Follows cursor.position (parser source cursor) (parser₁ source cursor)

namespace Approximates

theorem exhausted : Approximates source (fun _ _ => .exhausted) parser := fun _ => .exhausted

theorem pure (value : α) : Approximates source (pure value) (pure value) :=
  fun cursor => .matched (Nat.le_refl cursor.position)

theorem bind (before : first.Approximates source first₁)
    (after : ∀ value, (next value).Approximates source (next₁ value)) :
    (first >>= next).Approximates source (first₁ >>= next₁) := by
  intro cursor
  have follows := before cursor
  change Reply.Follows _ (Parser.bind first next source cursor)
    (Parser.bind first₁ next₁ source cursor)
  unfold Parser.bind
  generalize first source cursor = reply, first₁ source cursor = reply₁ at follows ⊢
  cases follows with
  | exhausted => exact .exhausted
  | @matched value middle behind => exact (after value middle).earlier behind
  | failed behind => exact .failed behind

theorem map (approximates : parser.Approximates source parser₁) (change : α → β) :
    (change <$> parser).Approximates source (change <$> parser₁) :=
  approximates.bind fun value => pure (change value)

theorem keepLeft {other other₁ : Parser β} (approximates : parser.Approximates source parser₁)
    (after : other.Approximates source other₁) :
    (keepLeft parser other).Approximates source (keepLeft parser₁ other₁) :=
  approximates.bind fun _ => after.bind fun _ => pure _

theorem keepRight {other other₁ : Parser β} (approximates : parser.Approximates source parser₁)
    (after : other.Approximates source other₁) :
    (keepRight parser other).Approximates source (keepRight parser₁ other₁) :=
  approximates.bind fun _ => after

theorem orElse (approximates : first.Approximates source first₁)
    (otherwise : second.Approximates source second₁) :
    (first.orElse second).Approximates source (first₁.orElse second₁) := by
  intro cursor
  have follows := approximates cursor
  unfold Parser.orElse
  generalize first source cursor = reply, first₁ source cursor = reply₁ at follows ⊢
  cases follows with
  | exhausted => exact .exhausted
  | matched behind => exact .matched behind
  | @failed _ after behind => exact otherwise (after.moveTo cursor.position)

theorem label (approximates : parser.Approximates source parser₁) (name : String) :
    (label name parser).Approximates source (label name parser₁) := by
  intro cursor
  have follows := approximates cursor
  unfold Parser.label
  generalize parser source cursor = reply, parser₁ source cursor = reply₁ at follows ⊢
  cases follows with
  | exhausted => exact .exhausted
  | matched behind => exact .matched behind
  | failed behind => exact .failed behind

theorem optional (approximates : parser.Approximates source parser₁) :
    (optional parser).Approximates source (optional parser₁) := by
  intro cursor
  have follows := approximates cursor
  unfold Parser.optional
  generalize parser source cursor = reply, parser₁ source cursor = reply₁ at follows ⊢
  cases follows with
  | exhausted => exact .exhausted
  | matched behind => exact .matched behind
  | failed => exact .matched (Nat.le_refl _)

theorem notFollowedBy (approximates : parser.Approximates source parser₁) (expected : String) :
    (notFollowedBy parser expected).Approximates source (notFollowedBy parser₁ expected) := by
  intro cursor
  have follows := approximates cursor
  unfold Parser.notFollowedBy
  generalize parser source cursor = reply, parser₁ source cursor = reply₁ at follows ⊢
  cases follows with
  | exhausted => exact .exhausted
  | matched => exact .failed (Nat.le_refl _)
  | failed => exact .matched (Nat.le_refl _)

theorem capture (approximates : parser.Approximates source parser₁) :
    (capture parser).Approximates source (capture parser₁) := by
  intro cursor
  have follows := approximates cursor
  unfold Parser.capture
  generalize parser source cursor = reply, parser₁ source cursor = reply₁ at follows ⊢
  cases follows with
  | exhausted => exact .exhausted
  | matched behind => exact .matched behind
  | failed behind => exact .failed behind

/-- By induction on the rounds, which are the same for both parsers. -/
theorem many (approximates : parser.Approximates source parser₁) :
    (many parser).Approximates source (many parser₁) := by
  have repeated (rounds : Nat) :
      (manyUpTo parser rounds).Approximates source (manyUpTo parser₁ rounds) := by
    induction rounds with
    | zero => exact fun cursor => .matched (Nat.le_refl cursor.position)
    | succ rounds ih =>
        intro cursor
        have follows := approximates cursor
        unfold manyUpTo
        generalize parser source cursor = reply, parser₁ source cursor = reply₁ at follows ⊢
        cases follows with
        | exhausted => exact .exhausted
        | failed => exact .matched (Nat.le_refl _)
        | @matched value middle behind =>
            simp only
            split
            · have later := ih middle
              generalize manyUpTo parser rounds source middle = reply,
                manyUpTo parser₁ rounds source middle = reply₁ at later ⊢
              cases later with
              | exhausted => exact .exhausted
              | matched further => exact .matched (Nat.le_trans behind further)
              | failed further => exact .failed (Nat.le_trans behind further)
            · exact .matched behind
  exact fun cursor => repeated _ cursor

theorem manyOne (approximates : parser.Approximates source parser₁) :
    (manyOne parser).Approximates source (manyOne parser₁) :=
  approximates.bind fun _ => approximates.many.bind fun _ => pure _

theorem separated {separator separator₁ : Parser β}
    (approximates : parser.Approximates source parser₁)
    (between : separator.Approximates source separator₁) :
    (separated parser separator).Approximates source (separated parser₁ separator₁) := by
  refine approximates.optional.bind fun found => ?_
  cases found with
  | none => exact pure []
  | some first => exact (between.keepRight approximates).many.bind fun _ => pure _

theorem manyUntil (approximates : parser.Approximates source parser₁)
    (stops : Source → Nat → Bool) :
    (manyUntil stops parser).Approximates source (manyUntil stops parser₁) := by
  have repeated (rounds : Nat) :
      (repeatUntil stops parser rounds).Approximates source (repeatUntil stops parser₁ rounds) := by
    induction rounds with
    | zero => exact exhausted
    | succ rounds ih =>
        intro cursor
        have follows := approximates cursor
        unfold repeatUntil
        split
        · exact .matched (Nat.le_refl _)
        · generalize parser source cursor = reply, parser₁ source cursor = reply₁ at follows ⊢
          cases follows with
          | exhausted => exact .exhausted
          | failed behind => exact .failed behind
          | @matched value middle behind =>
              have later := ih middle
              simp only
              generalize repeatUntil stops parser rounds source middle = reply,
                repeatUntil stops parser₁ rounds source middle = reply₁ at later ⊢
              cases later with
              | exhausted => exact .exhausted
              | matched further => exact .matched (Nat.le_trans behind further)
              | failed further => exact .failed (Nat.le_trans behind further)
  exact fun cursor => repeated _ cursor

end Approximates

theorem approximates_literal (expected : String) :
    (literal expected).Approximates source (literal expected) := by
  intro cursor
  unfold literal
  split
  · exact .matched (Nat.le_add_right _ _)
  · exact .failed (Nat.le_refl _)

theorem approximates_charWhere (accepts : Char → Bool) (expected : String) :
    (charWhere accepts expected).Approximates source (charWhere accepts expected) := by
  intro cursor
  unfold charWhere
  split
  · split
    · exact .matched (Nat.le_succ _)
    · exact .failed (Nat.le_refl _)
  · exact .failed (Nat.le_refl _)

theorem approximates_endOfInput : endOfInput.Approximates source endOfInput := by
  intro cursor
  unfold endOfInput
  split
  · exact .failed (Nat.le_refl _)
  · exact .matched (Nat.le_refl _)

theorem approximates_here : here.Approximates source here :=
  fun cursor => .matched (Nat.le_refl cursor.position)

theorem approximates_failureHere (message : String) :
    (failureHere message).Approximates source (failureHere message) :=
  fun cursor => .matched (Nat.le_refl cursor.position)

theorem approximates_refuse (failure : Failure) :
    (refuse failure : Parser α).Approximates source (refuse failure) :=
  fun cursor => .failed (Nat.le_refl cursor.position)

theorem approximates_failFurthest (message : String) :
    (failFurthest message : Parser α).Approximates source (failFurthest message) :=
  fun cursor => .failed (Nat.le_refl cursor.position)

/-- The parser at the positions of a kind; elsewhere it is exhausted. -/
def onlyWhere (allowed : Source → Nat → Bool) (parser : Parser α) : Parser α :=
  fun source cursor =>
    if allowed source cursor.position then parser source cursor else .exhausted

/-- A parser at fewer positions approximates the same one at more of them. -/
theorem Approximates.onlyWhere {allowed allowed₁ : Source → Nat → Bool}
    (approximates : parser.Approximates source parser₁)
    (included : ∀ position, allowed source position = true → allowed₁ source position = true) :
    (onlyWhere allowed parser).Approximates source (onlyWhere allowed₁ parser₁) := by
  intro cursor
  unfold Parser.onlyWhere
  split
  · rename_i held
    rw [if_pos (included _ held)]
    exact approximates cursor
  · exact .exhausted

theorem Approximates.onlyWhere_left {allowed : Source → Nat → Bool}
    (approximates : parser.Approximates source parser₁) :
    (Parser.onlyWhere allowed parser).Approximates source parser₁ := by
  intro cursor
  unfold Parser.onlyWhere
  split
  · exact approximates cursor
  · exact .exhausted

end Parser

end RipInterpreter.Parsing
