import RipInterpreter.Proofs.Parsing.Regular

/-!
The failures that a run of a parser records, whether it backtracks out of them or not. The cursor
keeps one failure only, but that one reports on all of them: none lies further, and the alternatives
of those at its own position are together its alternatives.
-/

namespace RipInterpreter.Parsing

/-- What is kept after one more failure. -/
def Failure.keep (kept : Option Failure) (failure : Failure) : Option Failure :=
  some (furthest kept failure)

/-- What is kept of the failures recorded up to an answer. -/
def Reply.kept? {α : Type} : Reply α → Option (Option Failure)
  | .matched _ after => some after.furthest
  | .failed _ after => some after.furthest
  | .exhausted => none

/-- The failure that an answer is, if it is one. -/
def Reply.failures {α : Type} : Reply α → List Failure
  | .failed failure _ => [failure]
  | _ => []

open Parsing.Parser in
/-- The failures that a parser records in a source from a cursor on, in order. Those that look at
characters record why they do not match; a label, a forbidden match and a refusal add one of their
own; and what was recorded before backtracking counts, too. -/
inductive Records (source : Source) : {α : Type} → Parser α → Cursor → List Failure → Prop
  | pure {α : Type} (value : α) (cursor : Cursor) : Records source (pure value) cursor []
  | here (cursor : Cursor) : Records source here cursor []
  | failureHere (message : String) (cursor : Cursor) : Records source (failureHere message) cursor []
  | failFurthest {α : Type} (message : String) (cursor : Cursor) :
    Records source (failFurthest message : Parser α) cursor []
  | exhausted {α : Type} (cursor : Cursor) :
    Records source (fun _ _ => .exhausted : Parser α) cursor []
  | skip (count : Nat) (cursor : Cursor) :
    Records source (fun _ cursor => .matched () (cursor.moveTo (cursor.position + count))) cursor []
  | refuse {α : Type} (failure : Failure) (cursor : Cursor) :
    Records source (refuse failure : Parser α) cursor [failure]
  | literal (expected : String) (cursor : Cursor) :
    Records source (literal expected) cursor (literal expected source cursor).failures
  | charWhere (accepts : Char → Bool) (expected : String) (cursor : Cursor) :
    Records source (charWhere accepts expected) cursor
      (charWhere accepts expected source cursor).failures
  | endOfInput (cursor : Cursor) :
    Records source endOfInput cursor (endOfInput source cursor).failures
  | bind {α β : Type} {first : Parser α} {next : α → Parser β} {cursor after : Cursor}
    {log more : List Failure} {value : α} (began : Records source first cursor log)
    (matched : first source cursor = .matched value after)
    (went : Records source (next value) after more) :
    Records source (first >>= next) cursor (log ++ more)
  | stop {α β : Type} {first : Parser α} {next : α → Parser β} {cursor : Cursor}
    {log : List Failure} (began : Records source first cursor log)
    (unmatched : ∀ value after, first source cursor ≠ .matched value after) :
    Records source (first >>= next) cursor log
  | backtrack {α : Type} {first second : Parser α} {cursor after : Cursor}
    {log more : List Failure} {failure : Failure} (began : Records source first cursor log)
    (failed : first source cursor = .failed failure after)
    (went : Records source second (after.moveTo cursor.position) more) :
    Records source (first.orElse second) cursor (log ++ more)
  | accept {α : Type} {first second : Parser α} {cursor : Cursor} {log : List Failure}
    (began : Records source first cursor log)
    (accepted : ∀ failure after, first source cursor ≠ .failed failure after) :
    Records source (first.orElse second) cursor log
  | label {α : Type} (name : String) {parser : Parser α} {cursor : Cursor} {log : List Failure}
    (ran : Records source parser cursor log) :
    Records source (label name parser) cursor (log ++ (label name parser source cursor).failures)
  | notFollowedBy {α : Type} {parser : Parser α} (expected : String) {cursor : Cursor}
    {log : List Failure} (ran : Records source parser cursor log) :
    Records source (notFollowedBy parser expected) cursor
      (log ++ (notFollowedBy parser expected source cursor).failures)
  | capture {α : Type} {parser : Parser α} {cursor : Cursor} {log : List Failure}
    (ran : Records source parser cursor log) : Records source (capture parser) cursor log
  | optional {α : Type} {parser : Parser α} {cursor : Cursor} {log : List Failure}
    (ran : Records source parser cursor log) : Records source (optional parser) cursor log
  | noRounds {α : Type} (parser : Parser α) (cursor : Cursor) :
    Records source (manyUpTo parser 0) cursor []
  | lastRound {α : Type} {parser : Parser α} (rounds : Nat) {cursor : Cursor} {log : List Failure}
    (ran : Records source parser cursor log)
    (ended : ∀ value after, parser source cursor = .matched value after →
      ¬ cursor.position < after.position) :
    Records source (manyUpTo parser (rounds + 1)) cursor log
  | round {α : Type} {parser : Parser α} {rounds : Nat} {cursor after : Cursor}
    {log more : List Failure} {value : α} (ran : Records source parser cursor log)
    (matched : parser source cursor = .matched value after)
    (further : cursor.position < after.position)
    (went : Records source (manyUpTo parser rounds) after more) :
    Records source (manyUpTo parser (rounds + 1)) cursor (log ++ more)
  | many {α : Type} {parser : Parser α} {cursor : Cursor} {log : List Failure}
    (ran : Records source (manyUpTo parser (source.size - cursor.position + 1)) cursor log) :
    Records source (many parser) cursor log
  | noTurns {α : Type} (stops : Source → Nat → Bool) (parser : Parser α) (cursor : Cursor) :
    Records source (repeatUntil stops parser 0) cursor []
  | stopped {α : Type} {stops : Source → Nat → Bool} (parser : Parser α) (rounds : Nat)
    {cursor : Cursor} (stopped : stops source cursor.position = true) :
    Records source (repeatUntil stops parser (rounds + 1)) cursor []
  | lastTurn {α : Type} {stops : Source → Nat → Bool} {parser : Parser α} (rounds : Nat)
    {cursor : Cursor} {log : List Failure} (goes : stops source cursor.position = false)
    (ran : Records source parser cursor log)
    (unmatched : ∀ value after, parser source cursor ≠ .matched value after) :
    Records source (repeatUntil stops parser (rounds + 1)) cursor log
  | turn {α : Type} {stops : Source → Nat → Bool} {parser : Parser α} {rounds : Nat}
    {cursor after : Cursor} {log more : List Failure} {value : α}
    (goes : stops source cursor.position = false) (ran : Records source parser cursor log)
    (matched : parser source cursor = .matched value after)
    (went : Records source (repeatUntil stops parser rounds) after more) :
    Records source (repeatUntil stops parser (rounds + 1)) cursor (log ++ more)
  | manyUntil {α : Type} {stops : Source → Nat → Bool} {parser : Parser α} {cursor : Cursor}
    {log : List Failure}
    (ran : Records source (repeatUntil stops parser (source.size - cursor.position + 1)) cursor log) :
    Records source (manyUntil stops parser) cursor log
  /-- A rule that depends on the source. -/
  | sourced {α : Type} {rule : Source → Parser α} {cursor : Cursor} {log : List Failure}
    (ran : Records source (rule source) cursor log) :
    Records source (fun source cursor => rule source source cursor) cursor log

section

variable (source : Source) (cursor : Cursor)

theorem primitive_literal (expected : String) :
    (∃ value position,
      Parser.literal expected source cursor = .matched value (cursor.moveTo position)) ∨
      ∃ failure, Parser.literal expected source cursor = .failed failure (cursor.record failure) := by
  unfold Parser.literal
  split
  · exact .inl ⟨_, _, rfl⟩
  · exact .inr ⟨_, rfl⟩

theorem primitive_charWhere (accepts : Char → Bool) (expected : String) :
    (∃ value position,
      Parser.charWhere accepts expected source cursor = .matched value (cursor.moveTo position)) ∨
      ∃ failure,
        Parser.charWhere accepts expected source cursor = .failed failure (cursor.record failure) := by
  unfold Parser.charWhere
  split
  · split
    · exact .inl ⟨_, _, rfl⟩
    · exact .inr ⟨_, rfl⟩
  · exact .inr ⟨_, rfl⟩

theorem primitive_endOfInput :
    (∃ value position, Parser.endOfInput source cursor = .matched value (cursor.moveTo position)) ∨
      ∃ failure, Parser.endOfInput source cursor = .failed failure (cursor.record failure) := by
  unfold Parser.endOfInput
  split
  · exact .inr ⟨_, rfl⟩
  · exact .inl ⟨(), cursor.position, rfl⟩

end

section

variable {α β : Type} {source : Source} {parser first second : Parser α} {next : α → Parser β}
  {stops : Source → Nat → Bool} {rounds : Nat} {cursor after : Cursor} {log : List Failure}
  {value : α} {failure : Failure} {kept : Option Failure}

theorem kept?_bind (matched : first source cursor = .matched value after) :
    ((first >>= next) source cursor).kept? = (next value source after).kept? := by
  rw [Parser.bind_apply, matched]

theorem kept?_bind_stop (unmatched : ∀ value after, first source cursor ≠ .matched value after) :
    ((first >>= next) source cursor).kept? = (first source cursor).kept? := by
  rw [Parser.bind_apply]
  cases answer : first source cursor with
  | matched value after => exact absurd answer (unmatched value after)
  | failed | exhausted => rfl

theorem kept?_orElse (failed : first source cursor = .failed failure after) :
    (first.orElse second source cursor).kept? =
      (second source (after.moveTo cursor.position)).kept? := by
  unfold Parser.orElse
  rw [failed]

theorem kept?_orElse_accept
    (accepted : ∀ failure after, first source cursor ≠ .failed failure after) :
    (first.orElse second source cursor).kept? = (first source cursor).kept? := by
  unfold Parser.orElse
  cases answer : first source cursor with
  | failed failure after => exact absurd answer (accepted failure after)
  | matched | exhausted => rfl

/-- A label adds its failure to what its parser has recorded. -/
theorem kept?_label (name : String) :
    (Parser.label name parser source cursor).kept? = (parser source cursor).kept?.map fun kept =>
      (Parser.label name parser source cursor).failures.foldl Failure.keep kept := by
  unfold Parser.label
  cases parser source cursor <;> rfl

theorem kept?_notFollowedBy (expected : String) :
    (Parser.notFollowedBy parser expected source cursor).kept? =
      (parser source cursor).kept?.map fun kept =>
        (Parser.notFollowedBy parser expected source cursor).failures.foldl Failure.keep kept := by
  unfold Parser.notFollowedBy
  cases parser source cursor <;> rfl

theorem kept?_capture :
    (Parser.capture parser source cursor).kept? = (parser source cursor).kept? := by
  unfold Parser.capture
  cases parser source cursor <;> rfl

theorem kept?_optional :
    (Parser.optional parser source cursor).kept? = (parser source cursor).kept? := by
  unfold Parser.optional
  cases parser source cursor <;> rfl

theorem kept?_lastRound (ended : ∀ value after, parser source cursor = .matched value after →
      ¬ cursor.position < after.position) :
    (Parser.manyUpTo parser (rounds + 1) source cursor).kept? = (parser source cursor).kept? := by
  unfold Parser.manyUpTo
  cases answer : parser source cursor with
  | failed | exhausted => rfl
  | matched value after =>
      dsimp only
      rw [if_neg (ended value after answer)]
      rfl

theorem kept?_round (matched : parser source cursor = .matched value after)
    (further : cursor.position < after.position) :
    (Parser.manyUpTo parser (rounds + 1) source cursor).kept? =
      (Parser.manyUpTo parser rounds source after).kept? := by
  rw [Parser.manyUpTo, matched]
  dsimp only
  rw [if_pos further]
  cases Parser.manyUpTo parser rounds source after <;> rfl

theorem kept?_lastTurn (goes : stops source cursor.position = false)
    (unmatched : ∀ value after, parser source cursor ≠ .matched value after) :
    (Parser.repeatUntil stops parser (rounds + 1) source cursor).kept? =
      (parser source cursor).kept? := by
  rw [Parser.repeatUntil, if_neg (Bool.eq_false_iff.mp goes)]
  cases answer : parser source cursor with
  | matched value after => exact absurd answer (unmatched value after)
  | failed | exhausted => rfl

theorem kept?_turn (goes : stops source cursor.position = false)
    (matched : parser source cursor = .matched value after) :
    (Parser.repeatUntil stops parser (rounds + 1) source cursor).kept? =
      (Parser.repeatUntil stops parser rounds source after).kept? := by
  rw [Parser.repeatUntil, if_neg (Bool.eq_false_iff.mp goes), matched]
  dsimp only
  cases Parser.repeatUntil stops parser rounds source after <;> rfl

/-- A parser that looks at characters matches or records the failure that it answers with. -/
theorem kept_of_primitive
    (primitive : (∃ value position, parser source cursor = .matched value (cursor.moveTo position)) ∨
      ∃ failure, parser source cursor = .failed failure (cursor.record failure))
    (left : (parser source cursor).kept? = some kept) :
    kept = (parser source cursor).failures.foldl Failure.keep cursor.furthest := by
  rcases primitive with ⟨value, position, matched⟩ | ⟨failure, failed⟩
  · rw [matched] at left ⊢
    cases left
    rfl
  · rw [failed] at left ⊢
    cases left
    rfl

/-- The failure that the cursor holds is what is kept of those recorded. -/
theorem Records.kept_eq (run : Records source parser cursor log)
    (left : (parser source cursor).kept? = some kept) :
    kept = log.foldl Failure.keep cursor.furthest := by
  induction run generalizing kept with
  | pure | here | failureHere | failFurthest | skip | refuse | noRounds =>
      cases left
      rfl
  | exhausted | noTurns => cases left
  | literal expected cursor => exact kept_of_primitive (primitive_literal _ _ expected) left
  | charWhere accepts expected cursor =>
      exact kept_of_primitive (primitive_charWhere _ _ accepts expected) left
  | endOfInput cursor => exact kept_of_primitive (primitive_endOfInput _ _) left
  | bind began matched went ihFirst ihSecond =>
      rw [List.foldl_append, ← ihFirst (congrArg Reply.kept? matched)]
      exact ihSecond ((kept?_bind matched).symm.trans left)
  | stop began unmatched ih => exact ih ((kept?_bind_stop unmatched).symm.trans left)
  | backtrack began failed went ihFirst ihSecond =>
      rw [List.foldl_append, ← ihFirst (congrArg Reply.kept? failed)]
      exact ihSecond ((kept?_orElse failed).symm.trans left)
  | accept began accepted ih => exact ih ((kept?_orElse_accept accepted).symm.trans left)
  | label name ran ih =>
      rw [kept?_label] at left
      obtain ⟨before, known, rfl⟩ := Option.map_eq_some_iff.mp left
      rw [List.foldl_append, ← ih known]
  | notFollowedBy expected ran ih =>
      rw [kept?_notFollowedBy] at left
      obtain ⟨before, known, rfl⟩ := Option.map_eq_some_iff.mp left
      rw [List.foldl_append, ← ih known]
  | capture ran ih => exact ih (kept?_capture.symm.trans left)
  | optional ran ih => exact ih (kept?_optional.symm.trans left)
  | lastRound rounds ran ended ih => exact ih ((kept?_lastRound ended).symm.trans left)
  | round ran matched further went ihFirst ihSecond =>
      rw [List.foldl_append, ← ihFirst (congrArg Reply.kept? matched)]
      exact ihSecond ((kept?_round matched further).symm.trans left)
  | many ran ih => exact ih left
  | stopped parser rounds stopped =>
      rw [Parser.repeatUntil, if_pos stopped] at left
      cases left
      rfl
  | lastTurn rounds goes ran unmatched ih =>
      exact ih ((kept?_lastTurn goes unmatched).symm.trans left)
  | turn goes ran matched went ihFirst ihSecond =>
      rw [List.foldl_append, ← ihFirst (congrArg Reply.kept? matched)]
      exact ihSecond ((kept?_turn goes matched).symm.trans left)
  | manyUntil ran ih => exact ih left
  | sourced ran ih => exact ih left

end

namespace Failure

/-- One failure reports on several: it lies as far as any of them, it is the first that does, and its
alternatives are those of all that do. -/
structure Reports (log : List Failure) (failure : Failure) : Prop where
  furthest : ∀ recorded ∈ log, recorded.position ≤ failure.position
  first : ∃ before earliest rest, log = before ++ earliest :: rest ∧
    (∀ recorded ∈ before, recorded.position < failure.position) ∧
    earliest.location = failure.location ∧ earliest.found = failure.found
  expected : ∀ name, name ∈ failure.expected ↔
    ∃ recorded ∈ log, recorded.position = failure.position ∧ name ∈ recorded.expected
  increasing : (∀ recorded ∈ log, recorded.expected.Pairwise (· < ·)) →
    failure.expected.Pairwise (· < ·)

theorem position_eq {failure other : Failure} (same : failure.location = other.location) :
    failure.position = other.position := by
  unfold position
  rw [same]

/-- No failure lies behind what is kept with it. -/
theorem le_furthest (kept : Option Failure) (failure : Failure) :
    failure.position ≤ (furthest kept failure).position := by
  unfold furthest
  cases kept with
  | none => exact Nat.le_refl _
  | some earlier =>
      dsimp only
      split
      · exact Nat.le_refl _
      · split
        · exact Nat.le_of_eq (Eq.symm ‹_›)
        · exact Nat.le_of_not_lt ‹_›

theorem Reports.single (failure : Failure) : Reports [failure] failure where
  furthest := List.forall_mem_singleton.mpr (Nat.le_refl _)
  first := ⟨[], failure, [], rfl, List.forall_mem_nil _, rfl, rfl⟩
  expected name := by simp
  increasing sorted := sorted failure (List.mem_singleton_self failure)

section

variable {log : List Failure} {kept failure : Failure} (reports : Reports log kept)
include reports

/-- A failure further on reports on itself alone. -/
theorem Reports.further (further : kept.position < failure.position) :
    Reports (log ++ [failure]) failure := by
  have below : ∀ recorded ∈ log, recorded.position < failure.position := fun recorded listed =>
    Nat.lt_of_le_of_lt (reports.furthest recorded listed) further
  refine ⟨?_, ⟨log, failure, [], rfl, below, rfl, rfl⟩, fun name => ?_, fun sorted => ?_⟩
  · exact List.forall_mem_append.mpr ⟨fun recorded listed => Nat.le_of_lt (below recorded listed),
      List.forall_mem_singleton.mpr (Nat.le_refl _)⟩
  · constructor
    · exact fun known => ⟨failure, by simp, rfl, known⟩
    · rintro ⟨recorded, listed, same, known⟩
      rcases List.mem_append.mp listed with listed | listed
      · exact absurd same (Nat.ne_of_lt (below recorded listed))
      · rwa [← List.mem_singleton.mp listed]
  · exact sorted failure (by simp)

/-- A failure that lies no further does not become the first one. -/
theorem Reports.first_append (failure : Failure) :
    ∃ before earliest rest, log ++ [failure] = before ++ earliest :: rest ∧
      (∀ recorded ∈ before, recorded.position < kept.position) ∧
      earliest.location = kept.location ∧ earliest.found = kept.found := by
  obtain ⟨before, earliest, rest, split, behind, place, found⟩ := reports.first
  exact ⟨before, earliest, rest ++ [failure], by rw [split, List.append_assoc]; rfl, behind, place,
    found⟩

/-- A failure at the same position adds its alternatives. -/
theorem Reports.level (level : kept.position = failure.position) : Reports (log ++ [failure])
    { kept with expected := mergeNames kept.expected failure.expected } := by
  refine ⟨?_, reports.first_append failure, fun name => ?_, fun _ => pairwise_mergeNames _ _⟩
  · exact List.forall_mem_append.mpr
      ⟨reports.furthest, List.forall_mem_singleton.mpr (Nat.le_of_eq level.symm)⟩
  · rw [mem_mergeNames, reports.expected name]
    constructor
    · rintro (⟨recorded, listed, same, known⟩ | known)
      · exact ⟨recorded, List.mem_append_left _ listed, same, known⟩
      · exact ⟨failure, by simp, level.symm, known⟩
    · rintro ⟨recorded, listed, same, known⟩
      rcases List.mem_append.mp listed with listed | listed
      · exact .inl ⟨recorded, listed, same, known⟩
      · exact .inr (List.mem_singleton.mp listed ▸ known)

/-- A failure that does not get as far adds nothing. -/
theorem Reports.behind (behind : failure.position < kept.position) :
    Reports (log ++ [failure]) kept := by
  refine ⟨?_, reports.first_append failure, fun name => ?_, fun sorted => ?_⟩
  · exact List.forall_mem_append.mpr
      ⟨reports.furthest, List.forall_mem_singleton.mpr (Nat.le_of_lt behind)⟩
  · rw [reports.expected name]
    constructor
    · rintro ⟨recorded, listed, same, known⟩
      exact ⟨recorded, List.mem_append_left _ listed, same, known⟩
    · rintro ⟨recorded, listed, same, known⟩
      rcases List.mem_append.mp listed with listed | listed
      · exact ⟨recorded, listed, same, known⟩
      · rw [List.mem_singleton.mp listed] at same
        exact absurd same (Nat.ne_of_lt behind)
  · exact reports.increasing fun recorded listed => sorted recorded (List.mem_append_left _ listed)

/-- By where the next failure lies. -/
theorem Reports.next (failure : Failure) :
    Reports (log ++ [failure]) (Failure.furthest (some kept) failure) := by
  unfold Failure.furthest
  dsimp only
  split
  · exact reports.further ‹_›
  · split
    · exact reports.level ‹_›
    · exact reports.behind (by omega)

end

theorem Reports.of_foldl {earlier log : List Failure} {kept failure : Failure}
    (reports : Reports earlier kept) (held : log.foldl keep (some kept) = some failure) :
    Reports (earlier ++ log) failure := by
  induction log generalizing earlier kept with
  | nil =>
      cases held
      rwa [List.append_nil]
  | cons next rest ih =>
      have later := ih (reports.next next) held
      rwa [List.append_assoc] at later

/-- What is kept of failures in a row reports on them. -/
theorem reports_of_foldl {log : List Failure} {failure : Failure}
    (held : log.foldl keep none = some failure) : Reports log failure := by
  cases log with
  | nil => cases held
  | cons first rest => exact (Reports.single first).of_foldl held

end Failure

end RipInterpreter.Parsing
