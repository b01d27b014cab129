import RipInterpreter.Proofs.Concrete.ReferenceTexts

namespace RipInterpreter.Concrete

open Parsing Parser

/-- A character as it is written in a text: as it stands, or behind a backslash. -/
inductive Written where
  | plain (c : Char)
  | escaped (c : Char)
deriving DecidableEq

namespace Written

def spelled : Written → List Char
  | plain c => [c]
  | escaped c => ['\\', c]

def label : Written → String
  | plain _ => "character"
  | escaped _ => "escape"

/-- The leaf for a written character. -/
def Reads (written : Written) (tree : Tree) : Prop :=
  ∃ place, tree = .leaf written.label ⟨.ofList written.spelled, place⟩

/-- A character with a backslash in front of it if it is among `marks`. -/
def guarding (marks : List Char) (c : Char) : Written := if c ∈ marks then escaped c else plain c

theorem spelled_nonempty (written : Written) : written.spelled ≠ [] := by
  cases written <;> exact List.cons_ne_nil _ _

theorem guarding_of_mem {marks : List Char} {c : Char} (listed : c ∈ marks) :
    guarding marks c = escaped c := if_pos listed

theorem guarding_of_not_mem {marks : List Char} {c : Char} (unlisted : c ∉ marks) :
    guarding marks c = plain c := if_neg unlisted

end Written

/-- A text with a backslash in front of each character that is among `marks`. -/
def guarded (marks : List Char) (text : String) : String :=
  .ofList ((text.toList.map (Written.guarding marks)).flatMap Written.spelled)

theorem toList_guarded (marks : List Char) (text : String) : (guarded marks text).toList =
    (text.toList.map (Written.guarding marks)).flatMap Written.spelled := String.toList_ofList

variable {source : Source} {position : Nat} {text rest : List Char} {c : Char} {label : String}
  {nested : Nested} {parser : Parser Tree} {kind : String} {written : List Written}

/-- The parser makes a text of the written characters and leaves the rest of the source. -/
def ReadsText (source : Source) (position : Nat) (parser : Parser Tree) (kind : String)
    (written : List Written) (rest : List Char) : Prop :=
  ∃ start leaves finish, List.Forall₂ Written.Reads written leaves ∧
    parser.MatchesAt source position (.branch kind start leaves) finish ∧
    source.Remains finish rest

theorem ReadsText.orElse {other : Parser Tree}
    (reads : ReadsText source position parser kind written rest) :
    ReadsText source position (parser.orElse other) kind written rest := by
  obtain ⟨start, leaves, finish, reads, matching, left⟩ := reads
  exact ⟨start, leaves, finish, reads, matching.orElse other, left⟩

/-- A form with another mark in front does not match. -/
theorem ReadsText.otherwise {mark : String} {m : Char} {next : Span → Parser Tree}
    (remains : source.Remains position (c :: text)) (spelled : mark.toList = [m]) (different : c ≠ m)
    (reads : ReadsText source position parser kind written rest) :
    ReadsText source position ((literal mark >>= next).orElse parser) kind written rest := by
  obtain ⟨start, leaves, finish, reads, matching, left⟩ := reads
  have unmarked : (literal mark).FailsAt source position :=
    .literal_of_head remains spelled (by rintro _ ⟨⟩; exact different)
  exact ⟨start, leaves, finish, reads, unmarked.bind.otherwise matching, left⟩

theorem symbolString_reads (remains : source.Remains position (':' :: text)) (nonempty : text ≠ [])
    (letters : ∀ c ∈ text, (c.isAlpha || c = '_') = true) :
    ReadsText source position symbolString "string" (text.map .plain) [] := by
  have symbol (c : Char) (listed : c ∈ text) (position : Nat) (rest : List Char)
      (remains : source.Remains position (c :: rest)) :
      ∃ tree, Written.Reads (.plain c) tree ∧
        (Tree.leaf "character" <$> charWhere (fun c => c.isAlpha || c = '_')
          "symbol character").MatchesAt source position tree (position + 1) :=
    ⟨_, ⟨source.placeOf position, rfl⟩, (MatchesAt.charWhere remains (letters c listed) _).map _⟩
  obtain ⟨first, text, rfl⟩ := List.exists_cons_of_ne_nil nonempty
  obtain ⟨tree, read, matching⟩ := symbol first List.mem_cons_self _ _ remains.tail
  have others : source.Remains (position + 1 + 1) (text ++ []) := by
    rw [List.append_nil]
    exact remains.tail.tail
  obtain ⟨leaves, reads, repeats⟩ := repeats_each others
    (fun c listed => symbol c (List.mem_cons_of_mem _ listed))
    (fun _ ended => .map (.charWhere_of_remains ended (by rintro _ ⟨⟩) _) _)
  exact ⟨_, tree :: leaves, _, .cons read (List.forall₂_map_left_iff.mpr reads),
    (MatchesAt.mark rfl remains).bind <| MatchesAt.here.bind <|
      (matching.manyOne repeats).bind (.pure _), others.skip⟩

theorem singleQuoted_reads (remains : source.Remains position ('\'' :: (text ++ '\'' :: rest)))
    (unquoted : '\'' ∉ text) :
    ReadsText source position singleQuoted "string" (text.map .plain) rest := by
  obtain ⟨leaves, reads, repeats⟩ :=
    repeats_plain (rfl : "'".toList = ['\'']) remains.tail unquoted (by rintro _ ⟨⟩; rfl)
  have closing := remains.tail.skip
  exact ⟨_, leaves, _, List.forall₂_map_left_iff.mpr reads,
    (MatchesAt.mark rfl remains).bind <| MatchesAt.here.bind <| repeats.many.bind <|
      ((MatchesAt.mark rfl closing).label _).bind (.pure _), closing.tail⟩

/-- What a backslash does not guard is neither the mark nor the start of anything else. -/
theorem marked_reads {mark : String} {m : Char} (spelled : mark.toList = [m]) (other : m ∉ ['#', '\\'])
    (remains : source.Remains position
      (m :: ((text.map (Written.guarding [m, '\\', '#'])).flatMap Written.spelled ++ m :: rest))) :
    ReadsText source position (marked nested kind mark) kind
      (text.map (Written.guarding [m, '\\', '#'])) rest := by
  have each (written : Written)
      (listed : written ∈ text.map (Written.guarding [m, '\\', '#'])) (position : Nat)
      (rest : List Char) (remains : source.Remains position (written.spelled ++ rest)) :
      ∃ tree, written.Reads tree ∧ (piece nested mark).MatchesAt source position tree
        (position + written.spelled.length) := by
    obtain ⟨c, -, rfl⟩ := List.mem_map.mp listed
    by_cases guards : c ∈ [m, '\\', '#']
    · rw [Written.guarding_of_mem guards] at remains ⊢
      exact ⟨_, ⟨source.placeOf position, rfl⟩, piece_escape remains⟩
    · rw [Written.guarding_of_not_mem guards] at remains ⊢
      simp only [List.mem_cons, List.not_mem_nil, or_false, not_or] at guards
      exact ⟨_, ⟨source.placeOf position, rfl⟩,
        piece_plain spelled remains guards.1 guards.2.2 fun same => absurd same guards.2.1⟩
  obtain ⟨leaves, reads, repeats⟩ := repeats_items remains.tail Written.spelled_nonempty each
    fun _ closing => piece_fails spelled other closing (by rintro _ ⟨⟩; rfl)
  have closing := remains.tail.skip
  exact ⟨_, leaves, _, reads,
    (MatchesAt.mark spelled remains).bind <| MatchesAt.here.bind <| repeats.many.bind <|
      ((MatchesAt.mark spelled closing).label _).bind (.pure _), closing.tail⟩

section

variable (capitals : ∀ c ∈ label.toList, (c.isUpper || c = '_') = true)
  (uninterpolated : ¬ ['#', '\x7b'] <:+: text)
include capitals uninterpolated

/-- An interpolation would have to start in the text or at its last character. -/
theorem not_opened {behind : List Char} (isSuffix : c :: behind <:+ text) :
    ¬ ['#', '\x7b'] <+: c :: behind ++ label.toList := by
  intro opens
  obtain ⟨rfl, braces⟩ := List.cons_prefix_cons.mp opens
  cases behind with
  | nil =>
      have listed : '\x7b' ∈ label.toList := braces.subset List.mem_cons_self
      exact absurd (capitals _ listed) (by decide)
  | cons d behind =>
      obtain ⟨rfl, -⟩ := List.cons_prefix_cons.mp braces
      exact uninterpolated (.trans ⟨[], behind, rfl⟩ isSuffix.isInfix)

variable (first : ∀ index < text.length, ¬ label.toList <+: (text ++ label.toList).drop index)
include first

/-- The text is read up to the first place where the label stands. -/
theorem hereText_reads (nested : Nested) (remains : source.Remains position (text ++ label.toList)) :
    ∃ leaves, List.Forall₂ Written.Reads (text.map .plain) leaves ∧
      (manyUntil (fun source index => source.continuesWith index label.toList)
        ((interpolation nested).orElse (Parser.label "here-doc terminator" rawCharacter))).MatchesAt
          source position leaves (position + text.length) := by
  simp only [List.forall₂_map_left_iff]
  -- Each character stands in front of the first label, where no interpolation can start.
  refine MatchesAt.manyUntil remains (fun c behind isSuffix position remains => ⟨?_, ?_⟩)
    fun position remains => (remains.continuesWith label.toList).mpr (List.prefix_refl _)
  · rw [Bool.eq_false_iff, ne_eq, remains.continuesWith]
    obtain ⟨before, rfl⟩ := isSuffix
    have absent := first before.length (by simp)
    rwa [List.append_assoc, List.drop_left] at absent
  · have unopened : (interpolation nested).FailsAt source position :=
      FailsAt.bind (.literal_of_remains remains (not_opened capitals uninterpolated isSuffix))
    exact ⟨_, ⟨source.placeOf position, rfl⟩, unopened.otherwise
      (((MatchesAt.charWhere remains rfl _).map _).label _)⟩

theorem hereDocument_reads (nonempty : label.toList ≠ [])
    (remains : source.Remains position
      ('<' :: '<' :: (label.toList ++ '\n' :: (text ++ label.toList)))) :
    ReadsText source position (hereDocument nested) "string" (text.map .plain) [] := by
  have opening : (literal "<<").MatchesAt source position ⟨"<<", source.placeOf position⟩
      (position + 2) := .literal remains
  have closing : source.Remains (position + 2 + label.toList.length + 1 + text.length)
      (label.toList ++ []) := by
    rw [List.append_nil]
    exact remains.tail.tail.skip.tail.skip
  have word := MatchesAt.word remains.tail.tail nonempty capitals (by rintro _ ⟨⟩; decide)
    "here-doc label"
  rw [String.ofList_toList] at word
  have behind := remains.tail.tail.skip
  have line : lineEnd.MatchesAt source (position + 2 + label.toList.length)
      ⟨"\n", source.placeOf (position + 2 + label.toList.length)⟩
      (position + 2 + label.toList.length + 1) :=
    (FailsAt.literal_of_head behind rfl (by rintro _ ⟨⟩; decide)).otherwise (.mark rfl behind)
  obtain ⟨leaves, reads, parts⟩ :=
    hereText_reads capitals uninterpolated first nested behind.tail
  have skips (position : Nat) :
      (skipText label).MatchesAt source position () (position + label.length) := by
    rintro cursor rfl
    exact ⟨_, rfl, rfl⟩
  exact ⟨_, leaves, _, reads, opening.bind <| word.bind <| line.bind <| MatchesAt.here.bind <|
    parts.bind <| (skips _).bind (.pure _), closing.skipText⟩

end

/-- The rule reads the whole source as a text of the written characters. -/
def Rule.Spells (rule : Rule) (origin source kind : String) (written : List Written) : Prop :=
  ∃ start leaves, List.Forall₂ Written.Reads written leaves ∧
    readWhole rule.parser origin source = .ok (.branch kind start leaves)

section

variable {rule : Rule} {origin text : String}

theorem spells_of_reads
    (reads : ∀ nested, ReadsText (.ofText origin text) 0 (rule.over nested) kind written []) :
    rule.Spells origin text kind written := by
  obtain ⟨start, leaves, finish, reads, matching, ended⟩ :=
    reads (.within ((Source.ofText origin text).size + 1))
  have parsed : rule.parser.MatchesAt (.ofText origin text) 0 (.branch kind start leaves) finish :=
    fun cursor same => matching cursor same
  exact ⟨start, leaves, reads, readWhole_of_matchesAt parsed ended⟩

theorem spells_symbol (nonempty : text.toList ≠ [])
    (letters : ∀ c ∈ text.toList, (c.isAlpha || c = '_') = true) :
    Rule.string.Spells origin (":" ++ text) "string" (text.toList.map .plain) := by
  have remains := Source.remains_ofText origin (":" ++ text)
  rw [String.toList_append] at remains
  exact spells_of_reads fun nested => (symbolString_reads remains nonempty letters).orElse

theorem remains_enclosed {mark : String} {m : Char} (spelled : mark.toList = [m])
    (origin text : String) :
    (Source.ofText origin (mark ++ text ++ mark)).Remains 0 (m :: (text.toList ++ [m])) := by
  have remains := Source.remains_ofText origin (mark ++ text ++ mark)
  rwa [String.toList_append, String.toList_append, List.append_assoc, spelled] at remains

theorem spells_singleQuoted (unquoted : '\'' ∉ text.toList) :
    Rule.string.Spells origin ("'" ++ text ++ "'") "string" (text.toList.map .plain) := by
  have remains := remains_enclosed (rfl : "'".toList = ['\'']) origin text
  exact spells_of_reads fun nested =>
    .otherwise remains rfl (by decide) (singleQuoted_reads remains unquoted).orElse

theorem spells_doubleQuoted :
    Rule.string.Spells origin ("\x22" ++ guarded ['\x22', '\\', '#'] text ++ "\x22") "string"
      (text.toList.map (Written.guarding ['\x22', '\\', '#'])) := by
  have remains := remains_enclosed (rfl : "\x22".toList = ['\x22']) origin
    (guarded ['\x22', '\\', '#'] text)
  rw [toList_guarded] at remains
  exact spells_of_reads fun nested =>
    .otherwise remains rfl (by decide) <| .otherwise remains rfl (by decide) <|
      (marked_reads rfl (by decide) remains).orElse

theorem spells_pattern :
    Rule.regularExpression.Spells origin ("/" ++ guarded ['/', '\\', '#'] text ++ "/")
      "regular_expression" (text.toList.map (Written.guarding ['/', '\\', '#'])) := by
  have remains := remains_enclosed (rfl : "/".toList = ['/']) origin (guarded ['/', '\\', '#'] text)
  rw [toList_guarded] at remains
  exact spells_of_reads fun nested => marked_reads rfl (by decide) remains

theorem spells_hereDocument (nonempty : label.toList ≠ [])
    (capitals : ∀ c ∈ label.toList, (c.isUpper || c = '_') = true)
    (uninterpolated : ¬ ['#', '\x7b'] <:+: text.toList)
    (first : ∀ index < text.length,
      ¬ label.toList <+: (text.toList ++ label.toList).drop index) :
    Rule.string.Spells origin ("<<" ++ label ++ "\n" ++ text ++ label) "string"
      (text.toList.map .plain) := by
  have remains := Source.remains_ofText origin ("<<" ++ label ++ "\n" ++ text ++ label)
  simp only [String.toList_append, List.append_assoc] at remains
  exact spells_of_reads fun nested =>
    .otherwise remains rfl (by decide) <| .otherwise remains rfl (by decide) <|
      .otherwise remains rfl (by decide)
        (hereDocument_reads capitals uninterpolated first nonempty remains)

end

end RipInterpreter.Concrete
