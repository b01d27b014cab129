import RipInterpreter.Proofs.Parsing.Places
import RipInterpreter.Proofs.Parsing.Records

namespace RipInterpreter.Parsing

/-- What stands at an index of a source, for a reader. -/
def Source.standing (source : Source) (index : Nat) : String :=
  match source.chars[index]? with
  | some c => Text.quoteChar c
  | none => "end of input"

/-- The failure has a place in the source and names alternatives, in increasing order. -/
structure Failure.Placed (source : Source) (failure : Failure) : Prop where
  place : ∃ index ≤ source.size, failure.location = some (source.placeOf index) ∧
    failure.position = index
  alternatives : failure.expected ≠ []
  increasing : failure.expected.Pairwise (· < ·)

/-- The failure tells what stands at its place. -/
structure Failure.Tells (source : Source) (failure : Failure) : Prop extends
    failure.Placed source where
  found : failure.found = some (source.standing failure.position)

/-- Every failure is placed, and one that does not tell comes behind one that does and lies at least
as far. -/
def Told (source : Source) (log : List Failure) : Prop :=
  ∀ before failure rest, log = before ++ failure :: rest → failure.Placed source ∧
    (failure.Tells source ∨
      ∃ earlier ∈ before, earlier.Tells source ∧ failure.position ≤ earlier.position)

/-- Some failure tells, at a cursor or behind it. -/
def Marked (source : Source) (cursor : Cursor) (log : List Failure) : Prop :=
  ∃ failure ∈ log, failure.Tells source ∧ min cursor.position source.size ≤ failure.position

namespace Told

variable {source : Source} {log more : List Failure} {failure : Failure}

theorem nil (source : Source) : Told source [] := by
  intro before failure rest split
  cases before <;> cases split

theorem append (told : Told source log) (further : Told source more) :
    Told source (log ++ more) := by
  intro before failure rest split
  rcases List.append_eq_append_iff.mp split with ⟨between, same, later⟩ | ⟨between, same, later⟩
  · obtain ⟨placed, tells⟩ := further between failure rest later
    refine ⟨placed, tells.imp_right ?_⟩
    rintro ⟨earlier, listed, known⟩
    exact ⟨earlier, same ▸ List.mem_append_right _ listed, known⟩
  · cases between with
    | nil =>
        obtain ⟨placed, tells⟩ := further [] failure rest later.symm
        refine ⟨placed, tells.imp_right ?_⟩
        rintro ⟨earlier, listed, _⟩
        cases listed
    | cons head tail =>
        cases later
        exact told before failure tail same

/-- One more failure, which tells itself or comes behind one that does. -/
theorem concat (told : Told source log) (placed : failure.Placed source)
    (tells : failure.Tells source ∨
      ∃ earlier ∈ log, earlier.Tells source ∧ failure.position ≤ earlier.position) :
    Told source (log ++ [failure]) := by
  intro before other rest split
  rcases List.eq_nil_or_concat rest with rfl | ⟨between, last, rfl⟩
  · obtain ⟨rfl, last⟩ := List.append_inj' split rfl
    cases last
    exact ⟨placed, tells⟩
  · rw [List.concat_eq_append, ← List.cons_append, ← List.append_assoc] at split
    exact told before other between (List.append_inj' split rfl).1

theorem single (tells : failure.Tells source) : Told source [failure] :=
  (nil source).concat tells.toPlaced (.inl tells)

/-- The failure that reports on all others tells. -/
theorem report (told : Told source log) (reports : failure.Reports log) :
    failure.Tells source := by
  obtain ⟨before, earliest, rest, split, behind, place, found⟩ := reports.first
  have same : earliest.position = failure.position := Failure.position_eq place
  have all : ∀ recorded ∈ log, recorded.Placed source := fun recorded listed => by
    obtain ⟨before, rest, split⟩ := List.append_of_mem listed
    exact (told before recorded rest split).1
  obtain ⟨placed, tells⟩ := told before earliest rest split
  have tells : earliest.Tells source := by
    rcases tells with tells | ⟨earlier, listed, -, further⟩
    · exact tells
    · exact absurd (behind earlier listed) (by omega)
  refine ⟨⟨?_, ?_, reports.increasing fun recorded listed => (all recorded listed).increasing⟩, ?_⟩
  · rw [← place, ← same]
    exact placed.place
  · obtain ⟨name, known⟩ := List.exists_mem_of_ne_nil _ placed.alternatives
    have inside : name ∈ failure.expected := (reports.expected name).mpr
      ⟨earliest, split ▸ List.mem_append_right _ List.mem_cons_self, same, known⟩
    exact List.ne_nil_of_mem inside
  · rw [← found, ← same]
    exact tells.found

end Told

section

variable {origin text : String} {failure : Failure}

theorem Source.position_placeOf_min (index : Nat) :
    ((Source.ofText origin text).placeOf index).position =
      min index (Source.ofText origin text).size := by
  rcases Nat.le_total index (Source.ofText origin text).size with inside | beyond
  · rw [position_placeOf inside, Nat.min_eq_left inside]
  · rw [Nat.min_eq_right beyond, ← position_placeOf (Nat.le_refl (Source.ofText origin text).size)]
    unfold placeOf
    rw [Nat.min_eq_right beyond, Nat.min_self]

/-- A failure at a cursor lies there, or at the end of the source if the cursor is beyond. -/
theorem Failure.position_here (cursor : Cursor)
    (located : failure.location = some ((Source.ofText origin text).placeOf cursor.position)) :
    failure.position = min cursor.position (Source.ofText origin text).size := by
  unfold position
  rw [located]
  exact Source.position_placeOf_min cursor.position

theorem Failure.placed_here (cursor : Cursor)
    (located : failure.location = some ((Source.ofText origin text).placeOf cursor.position))
    (alternatives : failure.expected ≠ []) (increasing : failure.expected.Pairwise (· < ·)) :
    failure.Placed (.ofText origin text) := by
  refine ⟨⟨_, Nat.min_le_right cursor.position _, ?_, position_here cursor located⟩, alternatives,
    increasing⟩
  rw [located]
  unfold Source.placeOf
  rw [Nat.min_assoc, Nat.min_self]

theorem Failure.tells_here (cursor : Cursor)
    (located : failure.location = some ((Source.ofText origin text).placeOf cursor.position))
    (found : failure.found = some ((Source.ofText origin text).standing cursor.position))
    (alternatives : failure.expected ≠ []) (increasing : failure.expected.Pairwise (· < ·)) :
    failure.Tells (.ofText origin text) := by
  refine ⟨placed_here cursor located alternatives increasing, ?_⟩
  rw [found, position_here cursor located]
  rcases Nat.le_total cursor.position (Source.ofText origin text).size with inside | beyond
  · rw [Nat.min_eq_left inside]
  · have absent (index : Nat) (outside : (Source.ofText origin text).size ≤ index) :
        (Source.ofText origin text).standing index = "end of input" := by
      unfold Source.standing
      rw [Array.getElem?_eq_none outside]
    rw [Nat.min_eq_right beyond, absent _ beyond, absent _ (Nat.le_refl _)]

theorem Cursor.tells_expecting (origin text : String) (cursor : Cursor)
    (message alternative : String) :
    ((cursor.failureHere (.ofText origin text) message).expecting alternative).Tells
      (.ofText origin text) :=
  Failure.tells_here cursor rfl rfl (List.cons_ne_nil _ _) (List.pairwise_singleton _ _)

theorem Marked.here (cursor : Cursor) (tells : failure.Tells (.ofText origin text))
    (located : failure.location = some ((Source.ofText origin text).placeOf cursor.position)) :
    Marked (.ofText origin text) cursor [failure] :=
  ⟨failure, List.mem_singleton_self failure, tells,
    Nat.le_of_eq (Failure.position_here cursor located).symm⟩

end

section

variable {source : Source} {cursor : Cursor} {log : List Failure} (marked : Marked source cursor log)
include marked

theorem Marked.append_left (more : List Failure) : Marked source cursor (log ++ more) := by
  obtain ⟨failure, listed, known⟩ := marked
  exact ⟨failure, List.mem_append_left more listed, known⟩

theorem Marked.append_right (earlier : List Failure) : Marked source cursor (earlier ++ log) := by
  obtain ⟨failure, listed, known⟩ := marked
  exact ⟨failure, List.mem_append_right earlier listed, known⟩

end

namespace Parser

variable {α β : Type} {parser first second : Parser α} {next : α → Parser β}

/-- What the parser records is told. -/
def Diagnosed (parser : Parser α) : Prop :=
  ∀ origin text cursor, ∃ log, Records (.ofText origin text) parser cursor log ∧
    Told (.ofText origin text) log

/-- Where the parser fails some failure tells, at its start or behind. -/
def Blames (parser : Parser α) : Prop :=
  ∀ origin text cursor, ∃ log, Records (.ofText origin text) parser cursor log ∧
    Told (.ofText origin text) log ∧
    ∀ failure after, parser (.ofText origin text) cursor = .failed failure after →
      Marked (.ofText origin text) cursor log

/-- Wherever the parser runs some failure tells, at its start or behind. -/
def Marks (parser : Parser α) : Prop :=
  ∀ origin text cursor, ∃ log, Records (.ofText origin text) parser cursor log ∧
    Told (.ofText origin text) log ∧ Marked (.ofText origin text) cursor log

theorem Marks.blames (marks : parser.Marks) : parser.Blames := by
  intro origin text cursor
  obtain ⟨log, ran, told, marked⟩ := marks origin text cursor
  exact ⟨log, ran, told, fun _ _ _ => marked⟩

theorem Blames.diagnosed (blames : parser.Blames) : parser.Diagnosed := by
  intro origin text cursor
  obtain ⟨log, ran, told, -⟩ := blames origin text cursor
  exact ⟨log, ran, told⟩

namespace Diagnosed

theorem pure (value : α) : (pure value : Parser α).Diagnosed :=
  fun _ _ cursor => ⟨[], .pure value cursor, .nil _⟩

theorem exhausted : Diagnosed (fun _ _ => .exhausted : Parser α) :=
  fun _ _ cursor => ⟨[], .exhausted cursor, .nil _⟩

theorem bind (before : first.Diagnosed) (after : ∀ value, (next value).Diagnosed) :
    (first >>= next).Diagnosed := by
  intro origin text cursor
  obtain ⟨log, began, told⟩ := before origin text cursor
  cases answer : first (.ofText origin text) cursor with
  | matched value middle =>
      obtain ⟨more, went, further⟩ := after value origin text middle
      exact ⟨log ++ more, .bind began answer went, told.append further⟩
  | _ => exact ⟨log, .stop began (by rw [answer]; nofun), told⟩

theorem map (diagnosed : first.Diagnosed) (change : α → β) : (change <$> first).Diagnosed :=
  diagnosed.bind fun value => pure (change value)

theorem orElse (diagnosed : first.Diagnosed) (otherwise : second.Diagnosed) :
    (first.orElse second).Diagnosed := by
  intro origin text cursor
  obtain ⟨log, began, told⟩ := diagnosed origin text cursor
  cases answer : first (.ofText origin text) cursor with
  | failed failure middle =>
      obtain ⟨more, went, further⟩ := otherwise origin text (middle.moveTo cursor.position)
      exact ⟨log ++ more, .backtrack began answer went, told.append further⟩
  | _ => exact ⟨log, .accept began (by rw [answer]; nofun), told⟩

theorem keepLeft {other : Parser β} (diagnosed : parser.Diagnosed) (after : other.Diagnosed) :
    (keepLeft parser other).Diagnosed :=
  diagnosed.bind fun _ => after.bind fun _ => pure _

theorem keepRight {other : Parser β} (before : parser.Diagnosed) (diagnosed : other.Diagnosed) :
    (keepRight parser other).Diagnosed := before.bind fun _ => diagnosed

theorem capture (diagnosed : parser.Diagnosed) : (capture parser).Diagnosed := by
  intro origin text cursor
  obtain ⟨log, ran, told⟩ := diagnosed origin text cursor
  exact ⟨log, .capture ran, told⟩

theorem optional (diagnosed : parser.Diagnosed) : (optional parser).Diagnosed := by
  intro origin text cursor
  obtain ⟨log, ran, told⟩ := diagnosed origin text cursor
  exact ⟨log, .optional ran, told⟩

/-- A match that is not allowed records a failure that tells. -/
theorem notFollowedBy (diagnosed : parser.Diagnosed) (expected : String) :
    (notFollowedBy parser expected).Diagnosed := by
  intro origin text cursor
  obtain ⟨log, ran, told⟩ := diagnosed origin text cursor
  refine ⟨_, .notFollowedBy expected ran, told.append ?_⟩
  unfold Parser.notFollowedBy
  cases parser (.ofText origin text) cursor with
  | matched value after => exact .single (Cursor.tells_expecting _ _ _ _ _)
  | _ => exact .nil _

theorem many (diagnosed : parser.Diagnosed) : (many parser).Diagnosed := by
  have repeated (rounds : Nat) : (manyUpTo parser rounds).Diagnosed := by
    induction rounds with
    | zero => exact fun _ _ cursor => ⟨[], .noRounds parser cursor, .nil _⟩
    | succ rounds ih =>
        intro origin text cursor
        obtain ⟨log, ran, told⟩ := diagnosed origin text cursor
        cases answer : parser (.ofText origin text) cursor with
        | matched value middle =>
            by_cases further : cursor.position < middle.position
            · obtain ⟨more, went, later⟩ := ih origin text middle
              exact ⟨log ++ more, .round ran answer further went, told.append later⟩
            · refine ⟨log, .lastRound rounds ran fun value after matched => ?_, told⟩
              cases answer.symm.trans matched
              exact further
        | _ => exact ⟨log, .lastRound rounds ran (by rw [answer]; nofun), told⟩
  intro origin text cursor
  obtain ⟨log, ran, told⟩ := repeated _ origin text cursor
  exact ⟨log, .many ran, told⟩

theorem manyOne (diagnosed : parser.Diagnosed) : (manyOne parser).Diagnosed :=
  diagnosed.bind fun _ => diagnosed.many.bind fun _ => pure _

theorem separated {separator : Parser β} (diagnosed : parser.Diagnosed)
    (between : separator.Diagnosed) : (separated parser separator).Diagnosed := by
  refine diagnosed.optional.bind fun found => ?_
  cases found with
  | none => exact pure []
  | some first => exact (keepRight between diagnosed).many.bind fun _ => pure _

theorem manyUntil (diagnosed : parser.Diagnosed) (stops : Source → Nat → Bool) :
    (manyUntil stops parser).Diagnosed := by
  have repeated (rounds : Nat) : (repeatUntil stops parser rounds).Diagnosed := by
    induction rounds with
    | zero => exact fun _ _ cursor => ⟨[], .noTurns stops parser cursor, .nil _⟩
    | succ rounds ih =>
        intro origin text cursor
        cases stopped : stops (.ofText origin text) cursor.position with
        | true => exact ⟨[], .stopped parser rounds stopped, .nil _⟩
        | false =>
            obtain ⟨log, ran, told⟩ := diagnosed origin text cursor
            cases answer : parser (.ofText origin text) cursor with
            | matched value middle =>
                obtain ⟨more, went, later⟩ := ih origin text middle
                exact ⟨log ++ more, .turn stopped ran answer went, told.append later⟩
            | _ => exact ⟨log, .lastTurn rounds stopped ran (by rw [answer]; nofun), told⟩
  intro origin text cursor
  obtain ⟨log, ran, told⟩ := repeated _ origin text cursor
  exact ⟨log, .manyUntil ran, told⟩

theorem sourced {rule : Source → Parser α} (diagnosed : ∀ source, (rule source).Diagnosed) :
    Diagnosed fun source cursor => rule source source cursor := by
  intro origin text cursor
  obtain ⟨log, ran, told⟩ := diagnosed (.ofText origin text) origin text cursor
  exact ⟨log, .sourced ran, told⟩

end Diagnosed

theorem Blames.map (blames : first.Blames) (change : α → β) : (change <$> first).Blames := by
  intro origin text cursor
  obtain ⟨log, ran, told, marked⟩ := blames origin text cursor
  have mapped : (change <$> first) (.ofText origin text) cursor =
      (first >>= fun value => pure (change value)) (.ofText origin text) cursor := rfl
  cases answer : first (.ofText origin text) cursor with
  | matched value after =>
      refine ⟨log ++ [], .bind ran answer (.pure _ _), told.append (.nil _), ?_⟩
      rw [mapped, bind_apply, answer]
      nofun
  | failed failure after =>
      exact ⟨log, .stop ran (by rw [answer]; nofun), told, fun _ _ _ => marked failure after answer⟩
  | exhausted =>
      refine ⟨log, .stop ran (by rw [answer]; nofun), told, ?_⟩
      rw [mapped, bind_apply, answer]
      nofun

/-- The failure of a label does not say what stands there, but one in front of it does. -/
theorem Blames.label (blames : parser.Blames) (name : String) : (label name parser).Diagnosed := by
  intro origin text cursor
  obtain ⟨log, ran, told, marked⟩ := blames origin text cursor
  refine ⟨_, .label name ran, ?_⟩
  unfold Parser.label
  cases answer : parser (.ofText origin text) cursor with
  | failed failure after =>
      obtain ⟨earlier, listed, tells, further⟩ := marked failure after answer
      refine told.concat (Failure.placed_here cursor rfl (List.cons_ne_nil _ _)
        (List.pairwise_singleton _ _)) (.inr ⟨earlier, listed, tells, ?_⟩)
      exact Nat.le_trans (Nat.le_of_eq (Failure.position_here cursor rfl)) further
  | _ => exact told.append (.nil _)

theorem Marks.bind (marks : first.Marks) (after : ∀ value, (next value).Diagnosed) :
    (first >>= next).Marks := by
  intro origin text cursor
  obtain ⟨log, began, told, marked⟩ := marks origin text cursor
  cases answer : first (.ofText origin text) cursor with
  | matched value middle =>
      obtain ⟨more, went, further⟩ := after value origin text middle
      exact ⟨log ++ more, .bind began answer went, told.append further, marked.append_left more⟩
  | _ => exact ⟨log, .stop began (by rw [answer]; nofun), told, marked⟩

theorem Marks.orElse (marks : first.Marks) (otherwise : second.Diagnosed) :
    (first.orElse second).Marks := by
  intro origin text cursor
  obtain ⟨log, began, told, marked⟩ := marks origin text cursor
  cases answer : first (.ofText origin text) cursor with
  | failed failure middle =>
      obtain ⟨more, went, further⟩ := otherwise origin text (middle.moveTo cursor.position)
      exact ⟨log ++ more, .backtrack began answer went, told.append further, marked.append_left more⟩
  | _ => exact ⟨log, .accept began (by rw [answer]; nofun), told, marked⟩

theorem blames_literal (expected : String) : (literal expected).Blames := by
  intro origin text cursor
  refine ⟨_, .literal expected cursor, ?_⟩
  unfold literal
  split
  · exact ⟨.nil _, by nofun⟩
  · have tells := Cursor.tells_expecting origin text cursor
    exact ⟨.single (tells _ _), fun _ _ _ => .here cursor (tells _ _) rfl⟩

theorem blames_charWhere (accepts : Char → Bool) (expected : String) :
    (charWhere accepts expected).Blames := by
  intro origin text cursor
  refine ⟨_, .charWhere accepts expected cursor, ?_⟩
  have tells := Cursor.tells_expecting origin text cursor
  unfold charWhere
  split
  · split
    · exact ⟨.nil _, by nofun⟩
    · exact ⟨.single (tells _ _), fun _ _ _ => .here cursor (tells _ _) rfl⟩
  · exact ⟨.single (tells _ _), fun _ _ _ => .here cursor (tells _ _) rfl⟩

theorem diagnosed_literal (expected : String) : (literal expected).Diagnosed :=
  (blames_literal expected).diagnosed

theorem diagnosed_charWhere (accepts : Char → Bool) (expected : String) :
    (charWhere accepts expected).Diagnosed := (blames_charWhere accepts expected).diagnosed

theorem diagnosed_endOfInput : endOfInput.Diagnosed := by
  intro origin text cursor
  refine ⟨_, .endOfInput cursor, ?_⟩
  unfold endOfInput
  split
  · exact .single (Cursor.tells_expecting _ _ _ _ _)
  · exact .nil _

theorem diagnosed_here : here.Diagnosed := fun _ _ cursor => ⟨[], .here cursor, .nil _⟩

theorem diagnosed_failFurthest (message : String) : (failFurthest message : Parser α).Diagnosed :=
  fun _ _ cursor => ⟨[], .failFurthest message cursor, .nil _⟩

/-- A check that is written by hand, with two alternatives. -/
theorem diagnosed_refuse (message : String) {first second : String} (ordered : first < second) :
    (failureHere message >>= fun failure =>
      (refuse ((failure.expecting first).expecting second) : Parser α)).Diagnosed := by
  intro origin text cursor
  refine ⟨_, .bind (.failureHere message cursor) rfl (.refuse _ cursor), ?_⟩
  refine .single (Failure.tells_here cursor rfl rfl (List.cons_ne_nil _ _) ?_)
  exact List.pairwise_pair.mpr ordered

/-- Whether a character may follow or not, one failure tells what stands there. -/
theorem marks_notFollowedBy (accepts : Char → Bool) (named expected : String) :
    (notFollowedBy (charWhere accepts named) expected).Marks := by
  intro origin text cursor
  obtain ⟨log, ran, told, marked⟩ := blames_charWhere accepts named origin text cursor
  refine ⟨_, .notFollowedBy expected ran, ?_⟩
  unfold notFollowedBy
  cases answer : charWhere accepts named (.ofText origin text) cursor with
  | matched value after =>
      have tells := Cursor.tells_expecting origin text (after.moveTo cursor.position)
        "unexpected input" expected
      exact ⟨told.append (.single tells), (Marked.here cursor tells rfl).append_right log⟩
  | failed failure after =>
      exact ⟨told.append (.nil _), (marked failure after answer).append_left []⟩
  | exhausted =>
      rcases primitive_charWhere (.ofText origin text) cursor accepts named with
        ⟨value, position, matched⟩ | ⟨failure, failed⟩
      · cases matched.symm.trans answer
      · cases failed.symm.trans answer

/-- What comes behind a text tells of a place behind the start of the text, too. -/
theorem marks_literal_bind (expected : String) {next : Span → Parser β}
    (marks : ∀ span, (next span).Marks) : (literal expected >>= next).Marks := by
  intro origin text cursor
  obtain ⟨log, began, told, marked⟩ := blames_literal expected origin text cursor
  rcases primitive_literal (.ofText origin text) cursor expected with
    ⟨span, position, matched⟩ | ⟨failure, failed⟩
  · obtain ⟨more, went, further, failure, listed, tells, behind⟩ :=
      marks span origin text (cursor.moveTo position)
    have forward : cursor.position ≤ position := by
      unfold literal at matched
      split at matched
      · cases matched
        exact Nat.le_add_right _ _
      · cases matched
    refine ⟨log ++ more, .bind began matched went, told.append further, failure,
      List.mem_append_right log listed, tells, Nat.le_trans ?_ behind⟩
    simp only [Cursor.moveTo]
    omega
  · have unmatched (span : Span) (after : Cursor) :
        literal expected (.ofText origin text) cursor ≠ .matched span after := by
      intro matched
      cases failed.symm.trans matched
    exact ⟨log, .stop began unmatched, told, marked failure _ failed⟩

end Parser

end RipInterpreter.Parsing
