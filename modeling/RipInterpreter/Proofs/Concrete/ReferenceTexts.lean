import RipInterpreter.Proofs.Concrete.Literals
import RipInterpreter.Proofs.Concrete.Words
import RipInterpreter.Proofs.Parsing.Choices

namespace RipInterpreter.Concrete

open Parsing Parser

/-- The rule takes the text to its end. -/
def Rule.Accepts (rule : Rule) (text : String) : Prop :=
  ∃ origin node, readWhole rule.parser origin text = .ok node

/-- A mark occurs that no backslash stands in front of. -/
def closes (mark : Char) : List Char → Bool
  | [] => false
  | c :: rest =>
    if c = mark then true
    else if c = '\\' then
      match rest with
      | [] => false
      | _ :: later => closes mark later
    else closes mark rest

theorem closes_mark (mark : Char) (rest : List Char) : closes mark (mark :: rest) = true := by
  unfold closes
  exact if_pos rfl

theorem closes_escape {mark : Char} (other : mark ≠ '\\') (c : Char) (rest : List Char) :
    closes mark ('\\' :: c :: rest) = closes mark rest := by
  rw [closes.eq_def]
  exact (if_neg other.symm).trans (if_pos rfl)

theorem closes_plain {mark c : Char} (different : c ≠ mark) (other : c ≠ '\\')
    (rest : List Char) : closes mark (c :: rest) = closes mark rest := by
  rw [closes.eq_def]
  exact (if_neg different).trans (if_neg other)

def IsSigned (word : List Char) : Prop :=
  ∃ c ∈ ['+', '-'], ∃ digit rest, word = c :: digit :: rest ∧ digit.isDigit = true

def IsMarked (word : List Char) : Prop := ∃ c rest, word = '\x60' :: c :: rest

def IsSymbol (word : List Char) : Prop :=
  ∃ c rest, word = ':' :: c :: rest ∧ (c.isAlpha || c = '_') = true

def IsQuoted (word : List Char) : Prop := ∃ rest, word = '\'' :: rest ∧ '\'' ∈ rest

def IsEnclosed (mark : Char) (word : List Char) : Prop :=
  ∃ rest, word = mark :: rest ∧ closes mark rest = true

variable {source : Source} {position : Nat} {word rest : List Char} {c : Char} {nested : Nested}
  {cursor after : Cursor} {node : Tree}

/-- What is read as a reference is a longest word. -/
theorem matched_reference (matched : reference source cursor = .matched node after) :
    ∃ word rest, IsReference word ∧ EndsWord rest ∧
      source.Remains cursor.position (word ++ rest) ∧
      node = .leaf "reference" ⟨.ofList word, source.placeOf cursor.position⟩ := by
  obtain ⟨span, between, read, -⟩ := matched_bind matched
  obtain ⟨first, start, head, -⟩ := matched_bind read
  obtain ⟨-, c, stands, accepted⟩ := matched_charWhere head
  rw [Bool.and_eq_true, Bool.not_eq_true'] at accepted
  obtain ⟨text, spelled⟩ := (source.remains_drop cursor.position).uncons stands
  have remains : source.Remains cursor.position
      (c :: text.takeWhile isReferenceChar ++ text.dropWhile isReferenceChar) := by
    rw [List.cons_append, List.takeWhile_append_dropWhile]
    exact spelled
  have reference : IsReference (c :: text.takeWhile isReferenceChar) :=
    ⟨List.cons_ne_nil _ _,
      List.forall_mem_cons.mpr ⟨accepted.1, List.all_eq_true.mp List.all_takeWhile⟩,
      by rintro _ ⟨⟩; exact accepted.2⟩
  have ends : EndsWord (text.dropWhile isReferenceChar) := by
    intro c first
    have stopped := List.head?_dropWhile_not isReferenceChar text
    rw [Option.mem_def.mp first] at stopped
    exact stopped
  obtain ⟨last, again, -⟩ := reference_of_word remains reference ends cursor rfl
  rw [again] at matched
  cases matched
  exact ⟨_, _, reference, ends, remains, rfl⟩

section

variable (remains : source.Remains position (word ++ rest))
include remains

theorem integer_passes (signed : IsSigned word) : integer.PassesAt source position := by
  obtain ⟨c, isSign, digit, more, rfl, isDigit⟩ := signed
  have number : digits.PassesAt source (position + 1) :=
    .bind ((MatchesAt.charWhere remains.tail isDigit _).bind_passes
      (.bind (.many _) fun _ _ => .pure _)) fun _ _ => .bind (.many _) fun _ _ => .pure _
  exact .map (.capture ((sign_taken isSign remains).bind_passes number)) _

theorem character_passes (marked : IsMarked word) (chars : ∀ c ∈ word, isReferenceChar c = true) :
    character.PassesAt source position := by
  obtain ⟨c, more, rfl⟩ := marked
  have visible : (!Text.isBlank c) = true := by
    rw [not_blank_of_reference (chars c (by simp))]
    rfl
  exact .map ((MatchesAt.mark rfl remains).bind_passes
    (MatchesAt.charWhere remains.tail visible _).passes) _

end

/-- Without a point, only a sign and a digit make a number of what does not start with a digit. -/
theorem numeric_fails (remains : source.Remains position word) (reference : IsReference word)
    (unsigned : ¬ IsSigned word) : numeric.FailsAt source position := by
  have neither {position : Nat} {text : List Char} (remains : source.Remains position text)
      (chars : ∀ c ∈ text, isReferenceChar c = true) (undigit : ∀ c ∈ text.head?, c.isDigit = false) :
      digits.FailsAt source position ∧ (literal "." >>= fun _ => digits).FailsAt source position := by
    refine ⟨digits_fail remains undigit, FailsAt.bind (.literal_of_remains remains ?_)⟩
    rintro ⟨more, rfl⟩
    exact absurd (chars '.' (by simp)) (by decide)
  obtain ⟨c, text, rfl⟩ := List.exists_cons_of_ne_nil reference.nonempty
  by_cases isSign : c ∈ ['+', '-']
  · have undigit : ∀ d ∈ text.head?, d.isDigit = false := by
      intro d first
      obtain ⟨more, rfl⟩ := List.head?_eq_some_iff.mp first
      exact Bool.eq_false_iff.mpr fun isDigit => unsigned ⟨c, isSign, d, more, rfl, isDigit⟩
    obtain ⟨nothing, unpointed⟩ := neither remains.tail
      (fun d listed => reference.chars d (List.mem_cons_of_mem _ listed)) undigit
    exact numeric_fails_behind_sign (sign_taken isSign remains) nothing unpointed
  · have none := sign_absent remains (by rintro _ ⟨⟩; exact isSign)
    obtain ⟨nothing, unpointed⟩ := neither remains reference.chars reference.led
    exact numeric_fails_behind_sign none nothing unpointed

theorem matched_character (remains : source.Remains cursor.position word)
    (matched : character source cursor = .matched node after) : IsMarked word := by
  obtain ⟨span, between, read, -⟩ := matched_bind matched
  obtain ⟨mark, start, first, second⟩ := matched_bind read
  obtain ⟨stands, one⟩ := matched_literal first rfl
  obtain ⟨-, c, stands₁, -⟩ := matched_charWhere second
  obtain ⟨text, rfl⟩ := remains.uncons stands
  have one : start.position = cursor.position + 1 := one
  rw [one] at stands₁
  obtain ⟨more, rfl⟩ := remains.tail.uncons stands₁
  exact ⟨c, more, rfl⟩

/-- A character of a text that the mark does not close. -/
theorem plain_of_other {mark : String} {m : Char} (spelled : mark.toList = [m])
    (remains : source.Remains position (c :: rest)) (other : c ≠ m) :
    (keepRight (notFollowedBy (literal mark) mark) rawCharacter).MatchesAt source position
      (.leaf "character" ⟨.singleton c, source.placeOf position⟩) (position + 1) := by
  have unclosed : (literal mark).FailsAt source position :=
    .literal_of_head remains spelled (by rintro _ ⟨⟩; exact other)
  exact (MatchesAt.notFollowedBy unclosed _).bind ((MatchesAt.charWhere remains rfl _).map _)

theorem plain_fails_at_mark {mark : String} {m : Char} (spelled : mark.toList = [m])
    (remains : source.Remains position (m :: rest)) :
    (keepRight (notFollowedBy (literal mark) mark) rawCharacter).FailsAt source position :=
  FailsAt.bind (.notFollowedBy (MatchesAt.mark spelled remains) _)

theorem plain_fails_at_end {mark : String} {m : Char} (spelled : mark.toList = [m])
    (remains : source.Remains position []) :
    (keepRight (notFollowedBy (literal mark) mark) rawCharacter).FailsAt source position := by
  have unmarked : (literal mark).FailsAt source position :=
    .literal_of_remains remains (by simp [spelled])
  exact (MatchesAt.notFollowedBy unmarked _).bind_fails
    (FailsAt.map (.charWhere_of_remains remains (by rintro _ ⟨⟩) _) _)

/-- The characters up to a mark, or up to the end. -/
theorem repeats_plain {mark : String} {m : Char} (spelled : mark.toList = [m])
    (remains : source.Remains position (word ++ rest)) (unclosed : m ∉ word)
    (ends : ∀ c ∈ rest.head?, c = m) :
    ∃ values, List.Forall₂ (fun c tree => ∃ place, tree = .leaf "character" ⟨.singleton c, place⟩)
        word values ∧
      (keepRight (notFollowedBy (literal mark) mark) rawCharacter).RepeatsAt source position values
        (position + word.length) := by
  refine repeats_each remains (fun c listed position _ remains =>
    ⟨_, ⟨source.placeOf position, rfl⟩,
      plain_of_other spelled remains fun same => unclosed (same ▸ listed)⟩) fun _ remains => ?_
  cases rest with
  | nil => exact plain_fails_at_end spelled remains
  | cons c rest =>
      cases ends c rfl
      exact plain_fails_at_mark spelled remains

theorem singleQuoted_passes (remains : source.Remains position (word ++ rest))
    (quoted : IsQuoted word) : singleQuoted.PassesAt source position := by
  obtain ⟨text, rfl, listed⟩ := quoted
  obtain ⟨before, behind, rfl, unquoted⟩ := List.eq_append_cons_of_mem listed
  rw [List.cons_append, List.append_assoc] at remains
  obtain ⟨characters, -, repeats⟩ :=
    repeats_plain (rfl : "'".toList = ['\'']) remains.tail unquoted (by rintro _ ⟨⟩; rfl)
  exact (MatchesAt.mark rfl remains).bind_passes <|
    MatchesAt.here.bind_passes <|
      repeats.many.bind_passes <|
        ((MatchesAt.mark rfl remains.tail.skip).label _).bind_passes (.pure _)

theorem matched_singleQuoted (remains : source.Remains cursor.position word)
    (matched : singleQuoted source cursor = .matched node after) : IsQuoted word := by
  have stands : source.chars[cursor.position]? = some '\'' := by
    obtain ⟨mark, start, first, -⟩ := matched_bind matched
    exact (matched_literal first rfl).1
  obtain ⟨text, rfl⟩ := remains.uncons stands
  refine ⟨text, rfl, Classical.byContradiction fun unquoted => ?_⟩
  have opened : source.Remains (cursor.position + 1) (text ++ []) := by
    rw [List.append_nil]
    exact remains.tail
  obtain ⟨characters, -, repeats⟩ :=
    repeats_plain (rfl : "'".toList = ['\'']) opened unquoted (by rintro _ ⟨⟩)
  have unclosed : (literal "'").FailsAt source (cursor.position + 1 + text.length) :=
    .literal_of_remains opened.skip (by simp)
  refine FailsAt.not_matched ?_ matched
  exact (MatchesAt.mark rfl remains).bind_fails <|
    MatchesAt.here.bind_fails <|
      repeats.many.bind_fails (unclosed.label _).bind

/-- What stands between marks. -/
def piece (nested : Nested) (mark : String) : Parser Tree :=
  firstOf (interpolation nested) [escape,
    keepRight (notFollowedBy (literal mark) mark) rawCharacter]

theorem piece_escape {mark : String} (remains : source.Remains position ('\\' :: c :: rest)) :
    (piece nested mark).MatchesAt source position
      (.leaf "escape" ⟨.ofList ['\\', c], source.placeOf position⟩) (position + 1 + 1) := by
  have unopened : (literal "#\x7b").FailsAt source position :=
    .literal_of_remains remains (by simp)
  have taken : source.slice position (position + 1 + 1) = .ofList ['\\', c] :=
    Source.Remains.slice (show source.Remains position (['\\', c] ++ rest) from remains)
  rw [← taken]
  exact (FailsAt.bind unopened).otherwise <| MatchesAt.orElse
    ((MatchesAt.capture ((MatchesAt.mark rfl remains).bind
      (MatchesAt.charWhere remains.tail rfl _))).map _) _

section

variable {mark : String} {m : Char} (spelled : mark.toList = [m])
include spelled

theorem piece_fails (other : m ∉ ['#', '\\']) (remains : source.Remains position rest)
    (ends : ∀ c ∈ rest.head?, c = m) : (piece nested mark).FailsAt source position := by
  have absent {text : String} {c : Char} {tail : List Char} (spelled : text.toList = c :: tail)
      (special : c ∈ ['#', '\\']) : (literal text).FailsAt source position :=
    .literal_of_head remains spelled fun d first same => other (ends d first ▸ same ▸ special)
  have plain : (keepRight (notFollowedBy (literal mark) mark) rawCharacter).FailsAt source
      position := by
    cases rest with
    | nil => exact plain_fails_at_end spelled remains
    | cons c rest =>
        cases ends c rfl
        exact plain_fails_at_mark spelled remains
  exact (FailsAt.bind (absent rfl (by decide))).orElse <|
    (FailsAt.map (FailsAt.capture (FailsAt.bind (absent rfl (by decide)))) _).orElse plain

theorem piece_plain (remains : source.Remains position (c :: rest)) (different : c ≠ m)
    (unopened : c ≠ '#') (unescaped : c = '\\' → rest = []) :
    (piece nested mark).MatchesAt source position
      (.leaf "character" ⟨.singleton c, source.placeOf position⟩) (position + 1) := by
  have unopened : (literal "#\x7b").FailsAt source position :=
    .literal_of_head remains rfl (by rintro _ ⟨⟩; exact unopened)
  have noEscape : (keepRight (literal "\\") anyChar).FailsAt source position := by
    by_cases backslash : c = '\\'
    · subst backslash
      have ended := remains.tail
      rw [unescaped rfl] at ended
      exact (MatchesAt.mark rfl remains).bind_fails
        (.charWhere_of_remains ended (by rintro _ ⟨⟩) _)
    · exact FailsAt.bind (.literal_of_head remains rfl (by rintro _ ⟨⟩; exact backslash))
  exact (FailsAt.bind unopened).otherwise
    ((FailsAt.map (FailsAt.capture noEscape) _).otherwise
      (plain_of_other spelled remains different))

/-- The parts of a text without interpolations reach to its mark, or to its end. -/
theorem repeats_pieces (other : m ∉ ['#', '\\'])
    (remains : source.Remains position (word ++ rest))
    (chars : ∀ c ∈ word, isReferenceChar c = true) (whole : closes m word = false → rest = []) :
    ∃ parts finish left, (piece nested mark).RepeatsAt source position parts finish ∧
      source.Remains finish left ∧ (closes m word = true → left.head? = some m) ∧
      (closes m word = false → left = []) := by
  have unescaping : m ≠ '\\' := fun same => other (same ▸ by simp)
  induction word using closes.induct m generalizing position with
  | case1 =>
      cases whole rfl
      exact ⟨[], position, [], .nil (piece_fails spelled other remains (by rintro _ ⟨⟩)), remains,
        by nofun, fun _ => rfl⟩
  | case2 text =>
      refine ⟨[], position, m :: text ++ rest,
        .nil (piece_fails spelled other remains (by rintro _ ⟨⟩; rfl)), remains, fun _ => rfl, ?_⟩
      rw [closes_mark]
      nofun
  | case3 different =>
      have unclosed : closes m ['\\'] = false := by
        rw [closes.eq_def]
        exact (if_neg different).trans (if_pos rfl)
      cases whole unclosed
      have matching : (piece nested mark).MatchesAt source position _ (position + 1) :=
        piece_plain spelled remains different (by decide) (fun _ => rfl)
      refine ⟨_, position + 1, [], .cons matching (Nat.lt_succ_self _) remains.inside
        (.nil (piece_fails spelled other remains.tail (by rintro _ ⟨⟩))), remains.tail, ?_,
        fun _ => rfl⟩
      rw [unclosed]
      nofun
  | case4 different c later ih =>
      rw [closes_escape unescaping] at whole ⊢
      obtain ⟨parts, finish, left, repeats, ended⟩ :=
        ih remains.tail.tail (fun d listed => chars d (by simp [listed])) whole
      exact ⟨_ :: parts, finish, left, .cons (piece_escape remains) (by omega) remains.inside
        repeats, ended⟩
  | case5 c text different plain ih =>
      rw [closes_plain different plain] at whole ⊢
      have unopened : c ≠ '#' := by
        rintro rfl
        exact absurd (chars '#' List.mem_cons_self) (by decide)
      obtain ⟨parts, finish, left, repeats, ended⟩ :=
        ih remains.tail (fun d listed => chars d (List.mem_cons_of_mem _ listed)) whole
      exact ⟨_ :: parts, finish, left, .cons
        (piece_plain spelled remains different unopened (fun same => absurd same plain))
        (by omega) remains.inside repeats, ended⟩

theorem marked_passes (kind : String) (other : m ∉ ['#', '\\'])
    (remains : source.Remains position (word ++ rest))
    (chars : ∀ c ∈ word, isReferenceChar c = true) (enclosed : IsEnclosed m word) :
    (marked nested kind mark).PassesAt source position := by
  obtain ⟨text, rfl, closed⟩ := enclosed
  obtain ⟨parts, finish, left, repeats, ended, marked, -⟩ :=
    repeats_pieces spelled other remains.tail
      (fun c listed => chars c (List.mem_cons_of_mem _ listed))
      (fun unclosed => by rw [closed] at unclosed; cases unclosed)
  obtain ⟨behind, rfl⟩ := List.head?_eq_some_iff.mp (marked closed)
  exact (MatchesAt.mark spelled remains).bind_passes <| MatchesAt.here.bind_passes <|
    repeats.many.bind_passes <| ((MatchesAt.mark spelled ended).label _).bind_passes (.pure _)

theorem matched_marked {kind : String} (other : m ∉ ['#', '\\'])
    (remains : source.Remains cursor.position word)
    (chars : ∀ c ∈ word, isReferenceChar c = true)
    (matched : marked nested kind mark source cursor = .matched node after) : IsEnclosed m word := by
  have stands : source.chars[cursor.position]? = some m := by
    obtain ⟨opening, start, first, -⟩ := matched_bind matched
    exact (matched_literal first spelled).1
  obtain ⟨text, rfl⟩ := remains.uncons stands
  refine ⟨text, rfl, Classical.byContradiction fun unclosing => ?_⟩
  have unclosed : closes m text = false := Bool.eq_false_iff.mpr unclosing
  have opened : source.Remains (cursor.position + 1) (text ++ []) := by
    rw [List.append_nil]
    exact remains.tail
  obtain ⟨parts, finish, left, repeats, ended, -, whole⟩ :=
    @repeats_pieces _ _ _ _ nested _ _ spelled other opened
      (fun c listed => chars c (List.mem_cons_of_mem _ listed)) fun _ => rfl
  have unclosed : (literal mark).FailsAt source finish :=
    .literal_of_remains ended (by simp [spelled, whole unclosed])
  refine FailsAt.not_matched ?_ matched
  exact (MatchesAt.mark spelled remains).bind_fails <| MatchesAt.here.bind_fails <|
    repeats.many.bind_fails (unclosed.label _).bind

end

theorem symbolString_passes (remains : source.Remains position (word ++ rest))
    (symbol : IsSymbol word) : symbolString.PassesAt source position := by
  obtain ⟨c, text, rfl, letter⟩ := symbol
  exact (MatchesAt.mark rfl remains).bind_passes <| MatchesAt.here.bind_passes <|
    .bind (((MatchesAt.charWhere remains.tail letter _).map _).bind_passes
      (.bind (.many _) fun _ _ => .pure _)) fun _ _ => .pure _

theorem matched_symbolString (remains : source.Remains cursor.position word)
    (matched : symbolString source cursor = .matched node after) : IsSymbol word := by
  obtain ⟨colon, start, first, read⟩ := matched_bind matched
  obtain ⟨place, middle, ⟨⟩, read⟩ := matched_bind read
  obtain ⟨letters, last, several, -⟩ := matched_bind read
  obtain ⟨leaf, between, single, -⟩ := matched_bind several
  obtain ⟨span, ended, letter, -⟩ := matched_bind single
  obtain ⟨stands, one⟩ := matched_literal first rfl
  obtain ⟨-, c, stands₁, accepted⟩ := matched_charWhere letter
  obtain ⟨text, rfl⟩ := remains.uncons stands
  rw [show start.position = cursor.position + 1 from one] at stands₁
  obtain ⟨more, rfl⟩ := remains.tail.uncons stands₁
  exact ⟨c, more, rfl, accepted⟩

/-- A here-doc has a line end behind its label. -/
theorem hereDocument_needs_line
    (legal : ∀ (index : Nat) (c : Char), source.chars[index]? = some c → isReferenceChar c = true) :
    hereDocument nested source cursor ≠ .matched node after := by
  intro matched
  obtain ⟨opening, start, -, read⟩ := matched_bind matched
  obtain ⟨terminator, labelled, -, read⟩ := matched_bind read
  obtain ⟨line, next, ended, -⟩ := matched_bind read
  have broken : ∃ index : Nat,
      source.chars[index]? = some '\r' ∨ source.chars[index]? = some '\n' := by
    rcases matched_orElse ended with carriage | ⟨again, -, feed⟩
    · exact ⟨_, .inl (matched_literal carriage rfl).1⟩
    · exact ⟨_, .inr (matched_literal feed rfl).1⟩
  obtain ⟨index, carriage | feed⟩ := broken
  · exact absurd (legal index _ carriage) (by decide)
  · exact absurd (legal index _ feed) (by decide)

/-- The forms of a string that is spelled like a reference. -/
def IsString (word : List Char) : Prop := IsSymbol word ∨ IsQuoted word ∨ IsEnclosed '\x22' word

theorem string_passes (remains : source.Remains position (word ++ rest))
    (chars : ∀ c ∈ word, isReferenceChar c = true) (isString : IsString word) :
    (string nested).PassesAt source position := by
  rcases isString with symbol | quoted | enclosed
  · exact .orElse (symbolString_passes remains symbol) _
  · exact .otherwise _ (.orElse (singleQuoted_passes remains quoted) _)
  · have marked : (marked nested "string" "\x22").PassesAt source position :=
      marked_passes rfl "string" (by decide) remains chars enclosed
    exact .otherwise _ (.otherwise _ (.orElse marked _))

theorem matched_string (remains : source.Remains cursor.position word)
    (chars : ∀ c ∈ word, isReferenceChar c = true)
    (legal : ∀ (index : Nat) (c : Char), source.chars[index]? = some c → isReferenceChar c = true)
    (matched : string nested source cursor = .matched node after) : IsString word := by
  rcases matched_orElse matched with symbol | ⟨start, same, matched⟩
  · exact .inl (matched_symbolString remains symbol)
  rw [← same] at remains
  rcases matched_orElse matched with quoted | ⟨again, same, matched⟩
  · exact .inr (.inl (matched_singleQuoted remains quoted))
  rw [← same] at remains
  rcases matched_orElse matched with enclosed | ⟨last, -, matched⟩
  · exact .inr (.inr (matched_marked rfl (by decide) remains chars enclosed))
  · exact absurd matched (hereDocument_needs_line legal)

section

variable (reference : IsReference word)
include reference

theorem matched_of_accepts {rule : Rule} (accepts : rule.Accepts (.ofList word)) :
    ∃ (source : Source) (nested : Nested) (node : Tree) (after : Cursor), source.Remains 0 word ∧
      (∀ (index : Nat) (c : Char), source.chars[index]? = some c → isReferenceChar c = true) ∧
      rule.over nested source .initial = .matched node after := by
  obtain ⟨origin, node, accepted⟩ := accepts
  obtain ⟨after, matched, -⟩ := matched_of_accepted accepted
  have remains := Source.remains_ofText origin (.ofList word)
  rw [String.toList_ofList] at remains
  refine ⟨_, _, node, after, remains, fun index c stands => ?_, matched⟩
  rw [ofText_chars, String.toList_ofList] at stands
  exact reference.chars c (List.mem_of_getElem? stands)

theorem signed_of_accepts (accepts : Rule.numeric.Accepts (.ofList word)) : IsSigned word := by
  obtain ⟨source, nested, node, after, remains, -, matched⟩ := matched_of_accepts reference accepts
  refine Classical.byContradiction fun unsigned => ?_
  exact FailsAt.not_matched (numeric_fails remains reference unsigned) matched

theorem marked_of_accepts (accepts : Rule.character.Accepts (.ofList word)) : IsMarked word := by
  obtain ⟨source, nested, node, after, remains, -, matched⟩ := matched_of_accepts reference accepts
  exact matched_character remains matched

theorem string_of_accepts (accepts : Rule.string.Accepts (.ofList word)) : IsString word := by
  obtain ⟨source, nested, node, after, remains, legal, matched⟩ :=
    matched_of_accepts reference accepts
  exact matched_string remains reference.chars legal matched

theorem enclosed_of_accepts (accepts : Rule.regularExpression.Accepts (.ofList word)) :
    IsEnclosed '/' word := by
  obtain ⟨source, nested, node, after, remains, -, matched⟩ := matched_of_accepts reference accepts
  exact matched_marked rfl (by decide) remains reference.chars matched

end

end RipInterpreter.Concrete
