import Mathlib.Data.List.Forall2
import RipInterpreter.Proofs.Parsing.Answers
import RipInterpreter.Proofs.Parsing.Places

namespace RipInterpreter.Parsing

namespace Source

variable {source : Source} {position : Nat} {text rest : List Char} {c : Char}

/-- The characters that the text has from a position on. -/
def Remains (source : Source) (position : Nat) (rest : List Char) : Prop :=
  source.chars.toList.drop position = rest

theorem remains_drop (source : Source) (position : Nat) :
    source.Remains position (source.chars.toList.drop position) := rfl

theorem remains_ofText (origin text : String) : (ofText origin text).Remains 0 text.toList := rfl

namespace Remains

theorem head? (remains : source.Remains position rest) : source.chars[position]? = rest.head? := by
  rw [← Array.getElem?_toList, ← List.head?_drop]
  exact congrArg List.head? remains

theorem uncons (remains : source.Remains position rest) (stands : source.chars[position]? = some c) :
    ∃ tail, rest = c :: tail := by
  rw [remains.head?] at stands
  exact List.head?_eq_some_iff.mp stands

theorem skip (remains : source.Remains position (text ++ rest)) :
    source.Remains (position + text.length) rest := by
  unfold Remains at remains ⊢
  rw [← List.drop_drop, remains, List.drop_left]

theorem skipText {text : String} (remains : source.Remains position (text.toList ++ rest)) :
    source.Remains (position + text.length) rest :=
  String.length_toList ▸ remains.skip

theorem tail (remains : source.Remains position (c :: rest)) : source.Remains (position + 1) rest :=
  @skip source position [c] rest remains

theorem inside (remains : source.Remains position (c :: rest)) : position < source.size := by
  have stands : source.chars[position]? = some c := remains.head?
  exact (Array.getElem?_eq_some_iff.mp stands).1

theorem ended (remains : source.Remains position []) : source.size ≤ position :=
  List.drop_eq_nil_iff.mp remains

theorem continuesWith (remains : source.Remains position rest) (expected : List Char) :
    source.continuesWith position expected = true ↔ expected <+: rest := by
  induction expected generalizing position rest with
  | nil => exact iff_of_true rfl List.nil_prefix
  | cons c expected ih =>
      unfold Source.continuesWith
      rw [remains.head?]
      cases rest with
      | nil => simp
      | cons head rest =>
          rw [Bool.and_eq_true, ih remains.tail, List.cons_prefix_cons, List.head?_cons,
            beq_iff_eq, Option.some.injEq]
          exact and_congr_left' eq_comm

theorem slice (remains : source.Remains position (text ++ rest)) :
    source.slice position (position + text.length) = .ofList text := by
  have piece : source.continuesWith position text = true :=
    (remains.continuesWith text).mpr (List.prefix_append text rest)
  exact slice_of_continuesWith piece

end Remains

/-- All places of a text are in it. -/
theorem origin_placeOf (origin text : String) (index : Nat) :
    ((ofText origin text).placeOf index).origin = origin := by
  have bounded : (ofText origin text).placeOf index =
      (ofText origin text).placeOf (min index (ofText origin text).size) := by
    unfold placeOf
    rw [Nat.min_assoc, Nat.min_self]
  rw [bounded, placeOf_ofText (size_ofText origin text ▸ Nat.min_le_right _ _),
    Location.origin_past]
  rfl

end Source

namespace Parser

variable {α : Type} {source : Source} {position middle finish : Nat} {text rest : List Char}
  {c : Char} {accepts : Char → Bool} {parser : Parser α} {value : α} {values : List α}

theorem MatchesAt.literal {expected : String}
    (remains : source.Remains position (expected.toList ++ rest)) :
    (literal expected).MatchesAt source position ⟨expected, source.placeOf position⟩
      (position + expected.length) := by
  rintro cursor rfl
  have continues : source.continuesWith cursor.position expected.toList = true :=
    (remains.continuesWith _).mpr (List.prefix_append _ _)
  unfold Parser.literal
  rw [if_pos continues]
  exact ⟨_, rfl, rfl⟩

/-- A literal of one character. -/
theorem MatchesAt.mark {mark : String} (spelled : mark.toList = [c])
    (remains : source.Remains position (c :: rest)) :
    (Parser.literal mark).MatchesAt source position ⟨mark, source.placeOf position⟩
      (position + 1) := by
  have single : mark.length = 1 := by
    rw [← String.length_toList, spelled]
    rfl
  rw [← List.singleton_append, ← spelled] at remains
  exact single ▸ literal remains

theorem FailsAt.literal_of_remains {expected : String} (remains : source.Remains position rest)
    (different : ¬ expected.toList <+: rest) :
    (Parser.literal expected).FailsAt source position := by
  rintro cursor rfl
  have elsewhere : ¬ source.continuesWith cursor.position expected.toList = true :=
    fun continues => different ((remains.continuesWith _).mp continues)
  unfold Parser.literal
  rw [if_neg elsewhere]
  exact ⟨_, _, rfl⟩

/-- The literal starts with another character than the next one. -/
theorem FailsAt.literal_of_head {expected : String} {head : Char} {tail : List Char}
    (remains : source.Remains position rest) (spelled : expected.toList = head :: tail)
    (other : ∀ c ∈ rest.head?, c ≠ head) : (Parser.literal expected).FailsAt source position :=
  .literal (fun stands => other head (remains.head?.symm.trans stands) rfl) spelled

theorem MatchesAt.charWhere (remains : source.Remains position (c :: rest))
    (accepted : accepts c = true) (expected : String) :
    (charWhere accepts expected).MatchesAt source position
      ⟨.singleton c, source.placeOf position⟩ (position + 1) := by
  rintro cursor rfl
  unfold Parser.charWhere Cursor.peek
  rw [remains.head?, List.head?_cons]
  simp only [accepted, if_true]
  exact ⟨_, rfl, rfl⟩

theorem FailsAt.charWhere_of_remains (remains : source.Remains position rest)
    (refused : ∀ c ∈ rest.head?, accepts c = false) (expected : String) :
    (Parser.charWhere accepts expected).FailsAt source position := by
  cases rest with
  | cons c rest => exact .charWhere remains.head? (refused c rfl) expected
  | nil =>
      rintro cursor rfl
      unfold Parser.charWhere Cursor.peek
      rw [remains.head?]
      exact ⟨_, _, rfl⟩

theorem MatchesAt.notFollowedBy (fails : parser.FailsAt source position) (expected : String) :
    (notFollowedBy parser expected).MatchesAt source position () position := by
  intro cursor same
  obtain ⟨failure, after, failed⟩ := fails cursor same
  exact ⟨after.moveTo cursor.position, by rw [Parser.notFollowedBy, failed], same⟩

theorem FailsAt.notFollowedBy (matching : parser.MatchesAt source position value finish)
    (expected : String) : (notFollowedBy parser expected).FailsAt source position := by
  intro cursor same
  obtain ⟨after, matched, -⟩ := matching cursor same
  exact ⟨_, _, by rw [Parser.notFollowedBy, matched]⟩

theorem MatchesAt.here :
    Parser.here.MatchesAt source position (source.placeOf position) position := by
  rintro cursor rfl
  exact ⟨cursor, rfl, rfl⟩

theorem MatchesAt.map {β : Type} (matching : parser.MatchesAt source position value finish)
    (change : α → β) : (change <$> parser).MatchesAt source position (change value) finish :=
  matching.bind (.pure _)

theorem MatchesAt.label (matching : parser.MatchesAt source position value finish)
    (name : String) : (label name parser).MatchesAt source position value finish := by
  intro cursor same
  obtain ⟨after, matched, reached⟩ := matching cursor same
  exact ⟨after, by rw [Parser.label, matched], reached⟩

theorem FailsAt.label (fails : parser.FailsAt source position) (name : String) :
    (label name parser).FailsAt source position := by
  intro cursor same
  obtain ⟨failure, after, failed⟩ := fails cursor same
  exact ⟨_, _, by rw [Parser.label, failed]⟩

theorem MatchesAt.optional (matching : parser.MatchesAt source position value finish) :
    (optional parser).MatchesAt source position (some value) finish := by
  intro cursor same
  obtain ⟨after, matched, reached⟩ := matching cursor same
  exact ⟨after, by rw [Parser.optional, matched], reached⟩

theorem MatchesAt.capture (matching : parser.MatchesAt source position value finish) :
    (capture parser).MatchesAt source position
      ⟨source.slice position finish, source.placeOf position⟩ finish := by
  rintro cursor rfl
  obtain ⟨after, matched, rfl⟩ := matching cursor rfl
  exact ⟨after, by rw [Parser.capture, matched], rfl⟩

theorem MatchesAt.ended (remains : source.Remains position []) :
    Parser.endOfInput.MatchesAt source position () position := by
  rintro cursor rfl
  refine ⟨cursor, ?_, rfl⟩
  unfold Parser.endOfInput
  rw [if_neg (Nat.not_lt_of_le remains.ended)]

/-- A repetition reads the values, if it is given as many rounds as there are characters left. -/
def RepeatsAt (source : Source) (position : Nat) (parser : Parser α) (values : List α)
    (finish : Nat) : Prop :=
  ∀ rounds, source.size < position + rounds →
    (manyUpTo parser rounds).MatchesAt source position values finish

theorem RepeatsAt.many (repeats : parser.RepeatsAt source position values finish) :
    (many parser).MatchesAt source position values finish := by
  rintro cursor rfl
  exact repeats (source.size - cursor.position + 1) (by omega) cursor rfl

theorem RepeatsAt.nil (fails : parser.FailsAt source position) :
    parser.RepeatsAt source position [] position :=
  fun rounds _ => fails.manyUpTo rounds

theorem RepeatsAt.cons (matching : parser.MatchesAt source position value middle)
    (moves : position < middle) (inside : position < source.size)
    (repeats : parser.RepeatsAt source middle values finish) :
    parser.RepeatsAt source position (value :: values) finish := by
  rintro (- | rounds) enough cursor rfl
  · omega
  obtain ⟨between, matched, rfl⟩ := matching cursor rfl
  obtain ⟨after, others, reached⟩ := repeats rounds (by omega) between rfl
  refine ⟨after, ?_, reached⟩
  simp only [manyUpTo, matched, if_pos moves, others]

theorem MatchesAt.manyOne (matching : parser.MatchesAt source position value middle)
    (repeats : parser.RepeatsAt source middle values finish) :
    (manyOne parser).MatchesAt source position (value :: values) finish :=
  matching.bind (repeats.many.bind (.pure (value :: values)))

section

variable {ι : Type} {items : List ι} {spelled : ι → List Char} {reads : ι → α → Prop}

/-- A repetition takes the items that its rounds take one after the other. -/
theorem repeats_items (remains : source.Remains position (items.flatMap spelled ++ rest))
    (nonempty : ∀ item, spelled item ≠ [])
    (each : ∀ item ∈ items, ∀ position rest, source.Remains position (spelled item ++ rest) →
      ∃ value, reads item value ∧
        parser.MatchesAt source position value (position + (spelled item).length))
    (stops : ∀ position, source.Remains position rest → parser.FailsAt source position) :
    ∃ values, List.Forall₂ reads items values ∧
      parser.RepeatsAt source position values (position + (items.flatMap spelled).length) := by
  induction items generalizing position with
  | nil => exact ⟨[], .nil, .nil (stops position remains)⟩
  | cons item items ih =>
      obtain ⟨first, others⟩ := List.forall_mem_cons.mp each
      rw [List.flatMap_cons, List.append_assoc] at remains
      obtain ⟨value, read, matching⟩ := first position _ remains
      obtain ⟨values, reads, repeats⟩ := ih remains.skip others
      have moves : 0 < (spelled item).length := List.length_pos_iff.mpr (nonempty item)
      have inside : position < source.size := by
        obtain ⟨c, text, starts⟩ := List.exists_cons_of_ne_nil (nonempty item)
        rw [starts] at remains
        exact remains.inside
      rw [List.flatMap_cons, List.length_append, ← Nat.add_assoc]
      exact ⟨value :: values, .cons read reads,
        .cons matching (Nat.lt_add_of_pos_right moves) inside repeats⟩

end

variable {reads : Char → α → Prop}

/-- A repetition takes the characters that each of its rounds takes one of. -/
theorem repeats_each (remains : source.Remains position (text ++ rest))
    (each : ∀ c ∈ text, ∀ position rest, source.Remains position (c :: rest) →
      ∃ value, reads c value ∧ parser.MatchesAt source position value (position + 1))
    (stops : ∀ position, source.Remains position rest → parser.FailsAt source position) :
    ∃ values, List.Forall₂ reads text values ∧
      parser.RepeatsAt source position values (position + text.length) := by
  have single : text.flatMap (fun c => [c]) = text := List.flatMap_singleton' text
  rw [← single] at remains
  obtain ⟨values, reads, repeats⟩ :=
    repeats_items remains (fun c => List.cons_ne_nil c []) each stops
  exact ⟨values, reads, single ▸ repeats⟩

/-- A repetition up to a place takes the characters in front of it. -/
theorem MatchesAt.manyUntil {stops : Source → Nat → Bool}
    (remains : source.Remains position (text ++ rest))
    (each : ∀ c behind, c :: behind <:+ text → ∀ position,
      source.Remains position (c :: behind ++ rest) → stops source position = false ∧
        ∃ value, reads c value ∧ parser.MatchesAt source position value (position + 1))
    (ends : ∀ position, source.Remains position rest → stops source position = true) :
    ∃ values, List.Forall₂ reads text values ∧
      (manyUntil stops parser).MatchesAt source position values (position + text.length) := by
  have repeats : ∃ values, List.Forall₂ reads text values ∧ ∀ rounds, text.length < rounds →
      (repeatUntil stops parser rounds).MatchesAt source position values
        (position + text.length) := by
    induction text generalizing position with
    | nil =>
        refine ⟨[], .nil, ?_⟩
        rintro (- | rounds) enough cursor rfl
        · cases enough
        · exact ⟨cursor, if_pos (ends _ remains), rfl⟩
    | cons c text ih =>
        obtain ⟨goes, value, read, matching⟩ := each c text (List.suffix_refl _) position remains
        obtain ⟨values, reads, repeats⟩ := ih remains.tail fun d behind isSuffix =>
          each d behind (isSuffix.trans (List.suffix_cons c text))
        refine ⟨value :: values, .cons read reads, ?_⟩
        rintro (- | rounds) enough cursor rfl
        · cases enough
        obtain ⟨between, matched, reached⟩ := matching cursor rfl
        obtain ⟨after, others, ended⟩ := repeats rounds (Nat.lt_of_succ_lt_succ enough) between reached
        refine ⟨after, ?_, by rw [ended, List.length_cons]; omega⟩
        simp only [repeatUntil, goes, Bool.false_eq_true, if_false, matched, others]
  obtain ⟨values, reads, repeats⟩ := repeats
  refine ⟨values, reads, ?_⟩
  rintro cursor rfl
  refine repeats _ ?_ cursor rfl
  have left := congrArg List.length remains
  rw [List.length_drop, List.length_append, Array.length_toList] at left
  unfold Source.size
  omega

/-- A repetition over a class of characters takes all of them up to the first other one. -/
theorem repeats_charWhere (remains : source.Remains position (text ++ rest))
    (accepted : ∀ c ∈ text, accepts c = true) (refused : ∀ c ∈ rest.head?, accepts c = false)
    (expected : String) :
    ∃ spans, (charWhere accepts expected).RepeatsAt source position spans
        (position + text.length) ∧
      String.join (spans.map Span.text) = .ofList text := by
  induction text generalizing position with
  | nil => exact ⟨[], .nil (.charWhere_of_remains remains refused expected), rfl⟩
  | cons c text ih =>
      obtain ⟨first, others⟩ := List.forall_mem_cons.mp accepted
      obtain ⟨spans, repeats, joined⟩ := ih remains.tail others
      rw [Nat.add_assoc, Nat.add_comm 1] at repeats
      refine ⟨_, .cons (.charWhere remains first expected) (Nat.lt_succ_self _) remains.inside
        repeats, ?_⟩
      rw [List.map_cons, String.join_cons, joined]
      exact String.ofList_append.symm

/-- A word of characters of a class, with all that follow each other. -/
theorem MatchesAt.word (remains : source.Remains position (text ++ rest)) (nonempty : text ≠ [])
    (accepted : ∀ c ∈ text, accepts c = true) (refused : ∀ c ∈ rest.head?, accepts c = false)
    (expected : String) :
    (Parser.capture (Parser.manyOne (Parser.charWhere accepts expected))).MatchesAt source position
      ⟨.ofList text, source.placeOf position⟩ (position + text.length) := by
  rw [← remains.slice]
  obtain ⟨c, text, rfl⟩ := List.exists_cons_of_ne_nil nonempty
  obtain ⟨first, others⟩ := List.forall_mem_cons.mp accepted
  obtain ⟨spans, repeats, -⟩ := repeats_charWhere remains.tail others refused expected
  rw [Nat.add_assoc, Nat.add_comm 1] at repeats
  exact ((charWhere remains first expected).manyOne repeats).capture

end Parser

end RipInterpreter.Parsing
