import RipInterpreter.Proofs.Concrete.Derivations
import RipInterpreter.Proofs.Concrete.Regular
import RipInterpreter.Proofs.Parsing.Remaining

namespace RipInterpreter.Concrete

open Parsing Parser

/-- The characters that a string may start with. -/
def stringMarks : List Char := [':', '\'', '\x22', '<']

/-- The characters that a string or a pattern may start with. -/
def textMarks : List Char := '/' :: stringMarks

variable {source : Source} {position finish levels : Nat} {c : Char} {nested : Nested}
  {node key : Tree} {cursor after : Cursor}

section

variable (stands : source.chars[position]? = some c) (marks : c ∈ textMarks)
include stands marks

theorem literal_fails_at_textMark {expected : String} {head : Char} {rest : List Char}
    (spelled : expected.toList = head :: rest) (other : head ∉ textMarks) :
    (literal expected).FailsAt source position := by
  refine .literal (fun found => other ?_) spelled
  rw [stands] at found
  exact Option.some.inj found ▸ marks

theorem charWhere_fails_at_textMark {accepts : Char → Bool}
    (refused : textMarks.any accepts = false) (expected : String) :
    (charWhere accepts expected).FailsAt source position :=
  .charWhere stands (Bool.eq_false_iff.mpr (List.any_eq_false.mp refused c marks)) expected

theorem keyword_fails_at_textMark {word : String} {head : Char} {rest : List Char}
    (spelled : word.toList = head :: rest) (other : head ∉ textMarks) :
    (keyword word).FailsAt source position :=
  (literal_fails_at_textMark stands marks spelled other).bind

theorem digits_fail_at_textMark : digits.FailsAt source position :=
  FailsAt.bind (FailsAt.bind (charWhere_fails_at_textMark stands marks (by decide) _))

theorem sign_passes_textMark : sign.MatchesAt source position none position :=
  ((literal_fails_at_textMark stands marks rfl (by decide)).orElse
    (literal_fails_at_textMark stands marks rfl (by decide))).optional

theorem numeric_fails_at_textMark : numeric.FailsAt source position := by
  refine FailsAt.orElse (FailsAt.map (FailsAt.capture ?_) _) (FailsAt.map (FailsAt.capture ?_) _)
  · exact (sign_passes_textMark stands marks).bind_fails <|
      (digits_fail_at_textMark stands marks).optional.bind_fails
        (literal_fails_at_textMark stands marks rfl (by decide)).bind
  · exact (sign_passes_textMark stands marks).bind_fails (digits_fail_at_textMark stands marks)

theorem character_fails_at_textMark : character.FailsAt source position :=
  FailsAt.map (FailsAt.bind (literal_fails_at_textMark stands marks rfl (by decide))) _

theorem comment_fails_at_textMark : comment.FailsAt source position :=
  (literal_fails_at_textMark stands marks rfl (by decide)).bind

theorem construct_fails_at_textMark : (construct nested).FailsAt source position := by
  have word {word : String} {head : Char} {rest : List Char} {α : Type} {next : Span → Parser α}
      (spelled : word.toList = head :: rest) (other : head ∉ textMarks) :
      (keyword word >>= next).FailsAt source position :=
    (keyword_fails_at_textMark stands marks spelled other).bind
  exact (word rfl (by decide)).orElse <| (word rfl (by decide)).orElse <|
    (word rfl (by decide)).orElse <| (word rfl (by decide)).orElse <|
      (word rfl (by decide)).orElse <| (word rfl (by decide)).orElse (word rfl (by decide))

theorem definition_fails_at_textMark : (definition nested).FailsAt source position := by
  have word {word : String} {head : Char} {rest : List Char} (spelled : word.toList = head :: rest)
      (other : head ∉ textMarks) : (keyword word).FailsAt source position :=
    keyword_fails_at_textMark stands marks spelled other
  have start : (firstOf (keyword "->") [keyword "lambda", keyword "λ"]).FailsAt source position :=
    (word rfl (by decide)).orElse ((word rfl (by decide)).orElse (word rfl (by decide)))
  exact (word rfl (by decide)).bind.orElse (start.bind.orElse (word rfl (by decide)).bind)

theorem map_fails_at_textMark : (map nested).FailsAt source position :=
  (literal_fails_at_textMark stands marks rfl (by decide)).bind

theorem list_fails_at_textMark : (list nested).FailsAt source position :=
  (literal_fails_at_textMark stands marks rfl (by decide)).bind

theorem separators_pass_textMark : (many (charWhere (fun c => Text.isBlank c || c = ';')
    "separator")).MatchesAt source position [] position :=
  (charWhere_fails_at_textMark stands marks (by decide) _).many

end

/-- A string starts with one of its marks. -/
theorem string_fails (absent : ∀ mark ∈ stringMarks, source.chars[position]? ≠ some mark) :
    (string nested).FailsAt source position := by
  have unopened {mark : String} {head : Char} {rest : List Char} {α : Type}
      {next : Span → Parser α} (spelled : mark.toList = head :: rest)
      (inside : head ∈ stringMarks) : (literal mark >>= next).FailsAt source position :=
    (FailsAt.literal (absent head inside) spelled).bind
  exact (unopened rfl (by decide)).orElse <| (unopened rfl (by decide)).orElse <|
    (unopened rfl (by decide)).orElse (unopened rfl (by decide))

theorem string_starts (matched : string nested source cursor = .matched node after) :
    ∃ c ∈ stringMarks, source.chars[cursor.position]? = some c := by
  refine Classical.byContradiction fun none => ?_
  exact (string_fails fun mark inside stands => none ⟨mark, inside, stands⟩).not_matched matched

theorem regularExpression_starts
    (matched : regularExpression nested source cursor = .matched node after) :
    source.chars[cursor.position]? = some '/' := by
  refine Classical.byContradiction fun absent => ?_
  exact FailsAt.not_matched (FailsAt.bind (.literal absent rfl)) matched

theorem pairRest_ends : (pairRest nested key).MatchesAt source source.size none source.size := by
  have spacesFail : spaces.FailsAt source source.size :=
    (regular_spaces : spaces.Regular 1 1).failsAt_end
  have colonFails : (literal ":").FailsAt source source.size :=
    (regular_literal (by decide) : (literal ":").Regular 1 1).failsAt_end
  exact MatchesAt.bind (FailsAt.optional (spacesFail.optional.bind_fails colonFails.bind))
    (MatchesAt.pure _)

section

variable (regular : nested.Regular levels)
include regular

theorem suffixes_end (operand : Tree) :
    (suffixes nested operand).MatchesAt source source.size operand source.size :=
  MatchesAt.bind (regular_suffix regular).failsAt_end.many (MatchesAt.pure operand)

/-- A statement that takes the rest of the text is the only one. -/
theorem module_of_statement
    (separators : (many (charWhere (fun c => Text.isBlank c || c = ';') "separator")).MatchesAt
      source position [] position)
    (whole : (statement nested).MatchesAt source position node source.size)
    (moves : position < source.size) :
    (module nested).MatchesAt source position (.branch "module" (source.placeOf 0) [node])
      source.size := by
  have ended : (many (charWhere (fun c => Text.isBlank c || c = ';') "separator")).MatchesAt
      source source.size [] source.size := ((regular_charWhere _ _ : Regular 1 1 _).failsAt_end).many
  have statements : (lines nested).MatchesAt source position [node] source.size :=
    separators.bind <| MatchesAt.many_once (whole.bind (ended.bind (.pure node))) moves
      (FailsAt.bind (regular_statement regular).failsAt_end)
  exact statements.bind (MatchesAt.endOfInput.bind (.pure _))

variable (stands : source.chars[position]? = some c) (marks : c ∈ textMarks)
  (matching : (simpleValue nested).MatchesAt source position node source.size)
  (label : node.label ≠ "integer" ∧ node.label ≠ "character")
include stands marks matching label

theorem expression_of_text :
    (expression nested).MatchesAt source position node source.size := by
  have led : (ledBySimple nested).MatchesAt source position node source.size := by
    refine matching.bind (pairRest_ends.bind ?_)
    simp only [label.1, label.2, decide_false, Bool.or_self, Bool.false_eq_true, if_false]
    exact .pure node
  have first : (atom nested).MatchesAt source position node source.size :=
    (construct_fails_at_textMark stands marks).otherwise <|
      (definition_fails_at_textMark stands marks).otherwise <|
        (map_fails_at_textMark stands marks).otherwise <|
          (list_fails_at_textMark stands marks).otherwise (led.orElse _)
  exact (first.bind (suffixes_end regular node)).bind <|
    (regular_operatorLink regular).failsAt_end.many.bind (.pure node)

/-- An expression is what is left of a statement that is neither a comment nor an assignment. -/
theorem module_of_text (unassigned : (assignment nested).FailsAt source position)
    (moves : position < source.size) :
    (module nested).MatchesAt source position (.branch "module" (source.placeOf 0) [node])
      source.size := by
  have whole : (statement nested).MatchesAt source position node source.size :=
    (comment_fails_at_textMark stands marks).otherwise
      (unassigned.otherwise (expression_of_text regular stands marks matching label))
  exact module_of_statement regular (separators_pass_textMark stands marks) whole moves

end

/-- An equals sign between spaces or tabs occurs in the text. -/
def SpacedEquals (text : String) : Prop :=
  ∃ before ∈ [' ', '\t'], ∃ behind ∈ [' ', '\t'], [before, '=', behind] <:+: text.toList

/-- Spaces have a space at their start and one at their end. -/
theorem matched_spaces (matched : spaces source cursor = .matched () after) :
    (∃ c ∈ [' ', '\t'], source.chars[cursor.position]? = some c) ∧
      cursor.position < after.position ∧
        ∃ c ∈ [' ', '\t'], source.chars[after.position - 1]? = some c := by
  obtain ⟨spans, between, matched, ⟨⟩⟩ := matched_bind matched
  obtain ⟨span, second, first, matched⟩ := matched_bind matched
  obtain ⟨rest, last, later, ⟨⟩⟩ := matched_bind matched
  obtain ⟨one, c, stands, space⟩ := matched_charWhere first
  refine ⟨⟨c, by simpa using space, stands⟩, ?_⟩
  rcases matched_many_charWhere later with same | ⟨further, last, lastStands, lastSpace⟩
  · exact ⟨by omega, c, by simpa using space, by rw [same, one]; exact stands⟩
  · exact ⟨by omega, last, by simpa using lastSpace, lastStands⟩

theorem ofText_chars (origin text : String) (index : Nat) :
    (Source.ofText origin text).chars[index]? = text.toList[index]? := List.getElem?_toArray

theorem infix_of_stands {text : List Char} {index : Nat} {before middle behind : Char}
    (first : text[index]? = some before) (second : text[index + 1]? = some middle)
    (third : text[index + 2]? = some behind) : [before, middle, behind] <:+: text := by
  obtain ⟨bound, rfl⟩ := List.getElem?_eq_some_iff.mp first
  obtain ⟨bound₁, rfl⟩ := List.getElem?_eq_some_iff.mp second
  obtain ⟨bound₂, rfl⟩ := List.getElem?_eq_some_iff.mp third
  refine ⟨text.take index, text.drop (index + 3), ?_⟩
  rw [List.append_assoc]
  simp only [List.cons_append, List.nil_append, List.getElem_cons_drop, List.take_append_drop]

theorem spacedEquals_of_assignment {origin text : String}
    (matched : assignment nested (.ofText origin text) cursor = .matched node after) :
    SpacedEquals text := by
  obtain ⟨target, start, -, matched⟩ := matched_bind matched
  obtain ⟨whole, start, -, matched⟩ := matched_bind matched
  obtain ⟨_, equals, leading, matched⟩ := matched_bind matched
  obtain ⟨sign, trailing, literal, matched⟩ := matched_bind matched
  obtain ⟨_, value, following, -⟩ := matched_bind matched
  obtain ⟨-, moved, before, isSpace, stands⟩ := matched_spaces leading
  obtain ⟨equal, reached⟩ := matched_literal literal rfl
  obtain ⟨⟨behind, isSpace₁, stands₁⟩, -⟩ := matched_spaces following
  rw [ofText_chars] at stands equal stands₁
  rw [reached] at stands₁
  refine ⟨before, isSpace, behind, isSpace₁, infix_of_stands stands ?_ ?_⟩
  · rw [Nat.sub_add_cancel (by omega)]
    exact equal
  · rw [show equals.position - 1 + 2 = equals.position + 1 by omega]
    exact stands₁

/-- What a text must start with, so that the rules before it do not match. -/
theorem simpleValue_of_text {rule : Rule} (regular : nested.Regular levels)
    (deep : source.size < levels + 1) (isText : rule = .string ∨ rule = .regularExpression)
    (matched : rule.over nested source .initial = .matched node after) :
    (simpleValue nested).MatchesAt source 0 node after.position ∧
      (∃ c ∈ textMarks, source.chars[0]? = some c) ∧
        1 ≤ after.position ∧ after.position ≤ source.size := by
  rcases isText with rfl | rfl
  · have string := regular_string regular
    obtain ⟨c, marks, stands⟩ := string_starts matched
    have marked : c ∈ textMarks := List.mem_cons_of_mem _ marks
    refine ⟨?_, ⟨c, marked, stands⟩, string.bounds (Nat.zero_le _) deep matched⟩
    exact (numeric_fails_at_textMark stands marked).otherwise <|
      (character_fails_at_textMark stands marked).otherwise <|
        (string.matchesAt (Nat.zero_le _) deep matched).orElse _
  · have pattern := regular_regularExpression regular
    have stands := regularExpression_starts matched
    have marked : '/' ∈ textMarks := List.mem_cons_self
    have unquoted : ∀ mark ∈ stringMarks, source.chars[0]? ≠ some mark := by
      change source.chars[0]? = some '/' at stands
      rw [stands]
      simp [stringMarks]
    refine ⟨?_, ⟨'/', marked, stands⟩, pattern.bounds (Nat.zero_le _) deep matched⟩
    exact (numeric_fails_at_textMark stands marked).otherwise <|
      (character_fails_at_textMark stands marked).otherwise <|
        (string_fails unquoted).otherwise (pattern.matchesAt (Nat.zero_le _) deep matched)

theorem yields_text {rule : Rule} (derived : nested.Derived)
    (isText : rule = .string ∨ rule = .regularExpression) :
    (rule.over nested).Yields (Tree.Among textLabels) := by
  rcases isText with rfl | rfl
  · exact (yields_string derived).widen (by decide)
  · exact (yields_regularExpression derived).widen (by decide)

theorem placeOf_start (origin text : String) :
    (Source.ofText origin text).placeOf 0 = .start origin := by
  unfold Source.placeOf Source.ofText
  rw [Nat.zero_min]
  cases text.toList <;> rfl

theorem matched_of_accepted {parser : Parser Tree} {origin text : String}
    (accepted : readWhole parser origin text = .ok node) :
    ∃ after, parser (.ofText origin text) .initial = .matched node after ∧
      (Source.ofText origin text).size ≤ after.position := by
  unfold readWhole readAll at accepted
  generalize replied : keepLeft parser endOfInput (.ofText origin text) .initial = reply at accepted
  cases reply with
  | exhausted => cases accepted
  | failed failure after => cases accepted
  | matched value after =>
      cases accepted
      obtain ⟨value, between, matched, later⟩ := matched_bind replied
      obtain ⟨⟨⟩, last, ended, ⟨⟩⟩ := matched_bind later
      refine ⟨between, matched, Nat.le_of_not_lt fun left => ?_⟩
      unfold endOfInput at ended
      rw [if_pos left] at ended
      cases ended

theorem readWhole_of_matchesAt {parser : Parser Tree} {origin text : String}
    (matching : parser.MatchesAt (.ofText origin text) 0 node finish)
    (ended : (Source.ofText origin text).Remains finish []) :
    readWhole parser origin text = .ok node := by
  have whole : (keepLeft parser endOfInput).MatchesAt (.ofText origin text) 0 node finish :=
    matching.bind ((MatchesAt.ended ended).bind (.pure node))
  obtain ⟨after, matched, -⟩ := whole .initial rfl
  unfold readWhole readAll
  rw [matched]
  rfl

/-- The first statement of a module is an assignment where one can be read. -/
theorem first_statement_assigned {place : Location} {target : Tree} {rest : List Tree}
    (stands : source.chars[0]? = some c) (marks : c ∈ textMarks)
    (assigned : (assignment nested).MatchesAt source 0 target finish)
    (matched : module nested source .initial = .matched (.branch "module" place (node :: rest)) after) :
    node = target := by
  obtain ⟨values, last, matched, ended⟩ := matched_bind matched
  obtain ⟨⟨⟩, final, -, same⟩ := matched_bind ended
  cases same
  obtain ⟨separators, start, passed, matched⟩ := matched_bind matched
  obtain ⟨between, first⟩ := matched_many matched
  obtain ⟨value, middle, read, kept⟩ := matched_bind first
  obtain ⟨spans, final, -, same⟩ := matched_bind kept
  cases same
  obtain ⟨there, skipped, reached⟩ := separators_pass_textMark stands marks .initial rfl
  rw [skipped] at passed
  cases passed
  have statement : (statement nested).MatchesAt source 0 target finish :=
    (comment_fails_at_textMark stands marks).otherwise (assigned.orElse _)
  obtain ⟨other, again, -⟩ := statement start reached
  rw [again] at read
  cases read
  rfl

theorem module_of_text_iff {place : Location} (regular : nested.Regular levels)
    (derived : nested.Derived) (deep : source.size < levels + 1)
    (start : source.placeOf 0 = place) (isText : node.label ∈ textLabels)
    (stands : source.chars[0]? = some c) (marks : c ∈ textMarks) (nonempty : 0 < source.size)
    (matching : (simpleValue nested).MatchesAt source 0 node source.size) :
    (∃ after, module nested source .initial = .matched (.branch "module" place [node]) after) ↔
      ¬ ∃ target after, assignment nested source .initial = .matched target after := by
  have uncounted : node.label ≠ "integer" ∧ node.label ≠ "character" := by
    constructor <;> intro label <;> rw [label] at isText <;> exact absurd isText (by decide)
  subst start
  rcases (regular_assignment regular).fails_or_matches (Nat.zero_le _) deep with
    fails | ⟨target, finish, assigned, -⟩
  · obtain ⟨last, read, -⟩ :=
      module_of_text regular stands marks matching uncounted fails nonempty .initial rfl
    refine iff_of_true ⟨last, read⟩ ?_
    rintro ⟨target, after, assigned⟩
    exact fails.not_matched assigned
  · obtain ⟨last, read, -⟩ := assigned .initial rfl
    refine iff_of_false ?_ fun unassigned => unassigned ⟨target, last, read⟩
    rintro ⟨final, alone⟩
    have same : node = target := first_statement_assigned stands marks assigned alone
    have among : target.Among ["assignment"] := yields_assignment derived _ _ _ _ read
    rw [same, List.mem_singleton.mp among.2] at isText
    exact absurd isText (by decide)

/-- A string or a pattern is the only statement of the module with the same text, unless an
assignment can be read from its start; that takes an equals sign between spaces. -/
theorem text_is_only_statement {rule : Rule} {origin text : String}
    (isText : rule = .string ∨ rule = .regularExpression)
    (accepted : readWhole rule.parser origin text = .ok node) :
    (Tree.ofText origin text = .ok (.branch "module" (.start origin) [node]) ↔
      ¬ ∃ target after,
        Rule.assignment.parser (.ofText origin text) .initial = .matched target after) ∧
    (¬ SpacedEquals text →
      Tree.ofText origin text = .ok (.branch "module" (.start origin) [node])) := by
  obtain ⟨after, matched, ended⟩ := matched_of_accepted accepted
  have regular := regular_within ((Source.ofText origin text).size + 1)
  have deep : (Source.ofText origin text).size < (Source.ofText origin text).size + 1 + 1 := by omega
  have derived := derived_within ((Source.ofText origin text).size + 1)
  have among : node.Among textLabels := yields_text derived isText _ _ _ _ matched
  obtain ⟨matching, ⟨c, marks, stands⟩, moves, inside⟩ :=
    simpleValue_of_text regular deep isText matched
  have whole : after.position = (Source.ofText origin text).size := Nat.le_antisymm inside ended
  rw [whole] at matching
  have decided := module_of_text_iff regular derived deep (placeOf_start origin text) among.2
    stands marks (by omega) matching
  rw [ofText_eq_ok]
  refine ⟨decided, fun unspaced => decided.mpr ?_⟩
  rintro ⟨target, after, assigned⟩
  exact unspaced (spacedEquals_of_assignment assigned)

theorem text_is_only_statement_without_spaces :
    readWhole Rule.string.parser "rspec" "'a=1'" = .ok (.branch "string" ⟨"rspec", 1, 1, 1⟩
      [.leaf "character" ⟨"a", ⟨"rspec", 1, 1, 1⟩⟩, .leaf "character" ⟨"=", ⟨"rspec", 2, 1, 2⟩⟩,
        .leaf "character" ⟨"1", ⟨"rspec", 3, 1, 3⟩⟩]) ∧
    Tree.ofText "rspec" "'a=1'" = .ok (.branch "module" (.start "rspec")
      [.branch "string" ⟨"rspec", 1, 1, 1⟩ [.leaf "character" ⟨"a", ⟨"rspec", 1, 1, 1⟩⟩,
        .leaf "character" ⟨"=", ⟨"rspec", 2, 1, 2⟩⟩,
        .leaf "character" ⟨"1", ⟨"rspec", 3, 1, 3⟩⟩]]) := by
  have accepted : readWhole Rule.string.parser "rspec" "'a=1'" = .ok (.branch "string"
      ⟨"rspec", 1, 1, 1⟩ [.leaf "character" ⟨"a", ⟨"rspec", 1, 1, 1⟩⟩,
        .leaf "character" ⟨"=", ⟨"rspec", 2, 1, 2⟩⟩,
        .leaf "character" ⟨"1", ⟨"rspec", 3, 1, 3⟩⟩]) := rfl
  refine ⟨accepted, (text_is_only_statement (.inl rfl) accepted).2 ?_⟩
  rintro ⟨before, isBefore, behind, isBehind, occurs⟩
  simp only [List.mem_cons, List.not_mem_nil, or_false] at isBefore isBehind
  revert occurs
  rcases isBefore with rfl | rfl <;> rcases isBehind with rfl | rfl <;> decide

/-- The string is read as an assignment to a name with a quote in it, and a second quote. -/
theorem string_read_as_assignment : ¬ ∀ (rule : Rule) (origin text : String) (node : Tree),
    rule = .string ∨ rule = .regularExpression → readWhole rule.parser origin text = .ok node →
      ∃ place, Tree.ofText origin text = .ok (.branch "module" place [node]) := by
  intro claimed
  obtain ⟨node, accepted⟩ : ∃ node, readWhole Rule.string.parser "rspec" "'a = 1'" = .ok node :=
    ⟨_, rfl⟩
  obtain ⟨place, alone⟩ := claimed _ _ _ _ (.inl rfl) accepted
  have labels : (Tree.ofText "rspec" "'a = 1'").toOption.map (·.children.map Tree.label) =
      some ["assignment", "reference"] := by
    decide +kernel
  rw [alone] at labels
  have two := congrArg (Option.map List.length) labels
  cases two

end RipInterpreter.Concrete
