import RipInterpreter.Proofs.Concrete.Progress
import RipInterpreter.Proofs.Parsing.Diagnostics

/-!
What is reported of a text that is not a module. Every rule tells where it fails. The labels, which
do not say what stands at their start, name rules that fail with something that does: a text, a
character, or the word in front of a lambda.
-/

namespace RipInterpreter.Concrete

open Parsing Parser

variable {nested : Nested}

/-- What the rules that may be nested record is told. -/
structure Nested.Diagnosed (nested : Nested) : Prop where
  lines : nested.lines.Diagnosed
  expression : nested.expression.Diagnosed
  operand : nested.operand.Diagnosed
  classDefinition : nested.classDefinition.Diagnosed
  conditional : ∀ word, (nested.conditional word).Diagnosed

theorem diagnosed_blanks : blanks.Diagnosed :=
  (diagnosed_charWhere _ _).many.bind fun _ => .pure ()

theorem diagnosed_spaces : spaces.Diagnosed :=
  (diagnosed_charWhere _ _).manyOne.bind fun _ => .pure ()

theorem diagnosed_lineEnd : lineEnd.Diagnosed :=
  (diagnosed_literal _).orElse (diagnosed_literal _)

/-- Either the word does not stand there, or one of the checks behind it tells. -/
theorem marks_keyword (word : String) : (keyword word).Marks :=
  marks_literal_bind word fun _ => (marks_notFollowedBy _ _ _).bind fun _ => .pure _

theorem diagnosed_keyword (word : String) : (keyword word).Diagnosed :=
  (marks_keyword word).blames.diagnosed

theorem diagnosed_listOf {item : Parser Tree} (diagnosed : item.Diagnosed) :
    (listOf item).Diagnosed :=
  diagnosed.separated ((diagnosed_blanks.keepRight (diagnosed_literal _)).keepLeft diagnosed_blanks)

theorem diagnosed_simpleReference : simpleReference.Diagnosed :=
  (diagnosed_charWhere _ _).bind fun _ => (diagnosed_charWhere _ _).many.bind fun _ => .pure _

theorem diagnosed_reference : reference.Diagnosed := diagnosed_simpleReference.map _

theorem diagnosed_digits : digits.Diagnosed :=
  have digit : digit.Diagnosed := diagnosed_charWhere _ _
  digit.manyOne.bind fun _ =>
    ((diagnosed_literal _).optional.keepRight digit.manyOne).many.bind fun _ => .pure ()

theorem diagnosed_sign : sign.Diagnosed :=
  ((diagnosed_literal _).orElse (diagnosed_literal _)).optional

theorem diagnosed_decimal : decimal.Diagnosed :=
  (Diagnosed.capture (diagnosed_sign.bind fun _ => diagnosed_digits.optional.bind fun _ =>
    (diagnosed_literal _).bind fun _ => diagnosed_digits)).map _

theorem diagnosed_integer : integer.Diagnosed :=
  (diagnosed_sign.keepRight diagnosed_digits).capture.map _

theorem diagnosed_numeric : numeric.Diagnosed := diagnosed_decimal.orElse diagnosed_integer

theorem diagnosed_character : character.Diagnosed :=
  ((diagnosed_literal _).keepRight (diagnosed_charWhere _ _)).map _

theorem blames_rawCharacter : rawCharacter.Blames := (blames_charWhere _ _).map _

theorem diagnosed_rawCharacter : rawCharacter.Diagnosed := blames_rawCharacter.diagnosed

theorem diagnosed_escape : escape.Diagnosed :=
  ((diagnosed_literal _).keepRight (diagnosed_charWhere _ _)).capture.map _

theorem diagnosed_symbolString : symbolString.Diagnosed :=
  (diagnosed_literal _).bind fun _ => diagnosed_here.bind fun _ =>
    ((diagnosed_charWhere _ _).map _).manyOne.bind fun _ => .pure _

theorem diagnosed_singleQuoted : singleQuoted.Diagnosed :=
  (diagnosed_literal _).bind fun _ => diagnosed_here.bind fun _ =>
    (((diagnosed_literal _).notFollowedBy _).keepRight diagnosed_rawCharacter).many.bind
      fun _ => ((blames_literal _).label _).bind fun _ => .pure _

theorem diagnosed_skipText (text : String) : (skipText text).Diagnosed :=
  fun _ _ cursor => ⟨[], .skip text.length cursor, .nil _⟩

section

variable (diagnosed : nested.Diagnosed)
include diagnosed

theorem diagnosed_interpolation : (interpolation nested).Diagnosed :=
  (diagnosed_literal _).bind fun _ => diagnosed.lines.bind fun _ =>
    ((blames_literal _).label _).bind fun _ => .pure _

theorem diagnosed_marked (kind mark : String) : (marked nested kind mark).Diagnosed := by
  have piece : (firstOf (interpolation nested) [escape,
      keepRight (notFollowedBy (literal mark) mark) rawCharacter]).Diagnosed :=
    (diagnosed_interpolation diagnosed).orElse <| diagnosed_escape.orElse <|
      ((diagnosed_literal mark).notFollowedBy mark).keepRight diagnosed_rawCharacter
  exact (diagnosed_literal mark).bind fun _ => diagnosed_here.bind fun _ =>
    piece.many.bind fun _ => ((blames_literal mark).label _).bind fun _ => .pure _

theorem diagnosed_hereDocument : (hereDocument nested).Diagnosed :=
  (diagnosed_literal _).bind fun _ =>
    (diagnosed_charWhere _ _).manyOne.capture.bind fun terminator =>
      diagnosed_lineEnd.bind fun _ => diagnosed_here.bind fun _ =>
        Diagnosed.bind (.manyUntil ((diagnosed_interpolation diagnosed).orElse
          (blames_rawCharacter.label _)) _) fun _ =>
            (diagnosed_skipText terminator.text).bind fun _ => .pure _

theorem diagnosed_string : (string nested).Diagnosed :=
  diagnosed_symbolString.orElse <| diagnosed_singleQuoted.orElse <|
    (diagnosed_marked diagnosed "string" _).orElse (diagnosed_hereDocument diagnosed)

theorem diagnosed_regularExpression : (regularExpression nested).Diagnosed :=
  diagnosed_marked diagnosed "regular_expression" _

theorem diagnosed_block : (block nested).Diagnosed :=
  (diagnosed_literal _).bind fun _ => diagnosed.lines.bind fun _ =>
    ((blames_literal _).label _).bind fun _ => .pure _

theorem diagnosed_simpleValue : (simpleValue nested).Diagnosed :=
  diagnosed_numeric.orElse <| diagnosed_character.orElse <|
    (diagnosed_string diagnosed).orElse (diagnosed_regularExpression diagnosed)

end

theorem diagnosed_parenthesizedList {item : Parser Tree} (diagnosed : item.Diagnosed) :
    (parenthesizedList item).Diagnosed :=
  (diagnosed_literal _).bind fun _ => diagnosed_blanks.bind fun _ =>
    (diagnosed_listOf diagnosed).bind fun _ => diagnosed_blanks.bind fun _ =>
      ((blames_literal _).label _).bind fun _ => .pure _

theorem diagnosed_rangeable : rangeable.Diagnosed :=
  diagnosed_integer.orElse (diagnosed_character.orElse diagnosed_reference)

theorem diagnosed_rangeRest (start : Tree) : (rangeRest start).Diagnosed :=
  Diagnosed.bind (Diagnosed.optional ((diagnosed_literal _).bind fun _ =>
    (diagnosed_literal _).optional.bind fun _ =>
      diagnosed_rangeable.bind fun _ => .pure _)) fun _ => .pure _

theorem diagnosed_range : range.Diagnosed :=
  diagnosed_rangeable.bind fun start => (diagnosed_rangeRest start).bind fun found => by
    cases found with
    | some range => exact .pure range
    | none => exact diagnosed_failFurthest _

theorem diagnosed_comment : comment.Diagnosed :=
  (diagnosed_literal _).bind fun _ =>
    ((diagnosed_literal _).notFollowedBy _).bind fun _ =>
      ((diagnosed_lineEnd.notFollowedBy _).keepRight
        (diagnosed_charWhere _ _)).many.capture.map _

theorem diagnosed_ledByReference : ledByReference.Diagnosed :=
  diagnosed_reference.bind fun first => (diagnosed_rangeRest first).bind fun _ => .pure _

section

variable (diagnosed : nested.Diagnosed)
include diagnosed

theorem diagnosed_pairRest (key : Tree) : (pairRest nested key).Diagnosed :=
  Diagnosed.bind (Diagnosed.optional (diagnosed_spaces.optional.bind fun _ =>
    (diagnosed_literal _).bind fun _ => diagnosed_spaces.optional.bind fun _ =>
      diagnosed.operand)) fun _ => .pure _

theorem diagnosed_keyValue : (keyValue nested).Diagnosed :=
  (diagnosed_simpleValue diagnosed).bind fun key =>
    (diagnosed_pairRest diagnosed key).bind fun found => by
      cases found with
      | some pair => exact .pure pair
      | none => exact diagnosed_failFurthest _

theorem diagnosed_ledBySimple : (ledBySimple nested).Diagnosed :=
  (diagnosed_simpleValue diagnosed).bind fun first =>
    (diagnosed_pairRest diagnosed first).bind fun found => by
      cases found with
      | some pair => exact .pure pair
      | none =>
          change Diagnosed (ite _ _ _)
          split
          · exact (diagnosed_rangeRest first).bind fun _ => .pure _
          · exact .pure first

theorem diagnosed_map : (map nested).Diagnosed :=
  (diagnosed_literal _).bind fun _ => diagnosed_blanks.bind fun _ =>
    (diagnosed_listOf (diagnosed_keyValue diagnosed)).bind fun _ =>
      diagnosed_blanks.bind fun _ => (diagnosed_literal _).bind fun _ => .pure _

theorem diagnosed_list : (list nested).Diagnosed :=
  (diagnosed_literal _).bind fun _ => diagnosed_blanks.bind fun _ =>
    (diagnosed_listOf diagnosed.expression).bind fun _ => diagnosed_blanks.bind fun _ =>
      ((blames_literal _).label _).bind fun _ => .pure _

theorem diagnosed_condition : (condition nested).Diagnosed :=
  (diagnosed_literal _).bind fun _ => diagnosed_blanks.bind fun _ =>
    diagnosed.expression.bind fun _ => diagnosed_blanks.bind fun _ =>
      ((blames_literal _).label _).bind fun _ => .pure _

theorem diagnosed_elseBranch : (elseBranch nested).Diagnosed := by
  have body : (firstOf (block nested)
      [nested.conditional "if", nested.conditional "unless"]).Diagnosed :=
    (diagnosed_block diagnosed).orElse <|
      (diagnosed.conditional "if").orElse (diagnosed.conditional "unless")
  exact diagnosed_blanks.bind fun _ => (diagnosed_keyword _).bind fun _ =>
    diagnosed_blanks.bind fun _ => body.bind fun _ => .pure _

theorem diagnosed_conditional (word : String) : (conditional nested word).Diagnosed :=
  (diagnosed_keyword word).bind fun _ => diagnosed_blanks.bind fun _ =>
    (diagnosed_condition diagnosed).bind fun _ => diagnosed_blanks.bind fun _ =>
      (diagnosed_block diagnosed).bind fun _ =>
        (diagnosed_elseBranch diagnosed).optional.bind fun _ => .pure _

theorem diagnosed_wordAndBlock (word : String) : (wordAndBlock nested word).Diagnosed :=
  (diagnosed_keyword word).bind fun _ => diagnosed_blanks.bind fun _ =>
    (diagnosed_block diagnosed).bind fun _ => .pure _

theorem diagnosed_case : (case nested).Diagnosed :=
  (diagnosed_keyword _).bind fun _ => diagnosed_blanks.bind fun _ =>
    (diagnosed_parenthesizedList diagnosed.expression).bind fun _ =>
      diagnosed_blanks.bind fun _ => (diagnosed_block diagnosed).bind fun _ => .pure _

theorem diagnosed_switch : (switch nested).Diagnosed :=
  (diagnosed_keyword _).bind fun _ => diagnosed_blanks.bind fun _ =>
    (diagnosed_condition diagnosed).bind fun _ => diagnosed_blanks.bind fun _ =>
      (diagnosed_literal _).bind fun _ => diagnosed_blanks.bind fun _ =>
        ((diagnosed_case diagnosed).keepLeft diagnosed_blanks).many.bind fun _ =>
          ((diagnosed_wordAndBlock diagnosed _).keepLeft
            diagnosed_blanks).optional.bind fun _ =>
              ((blames_literal _).label _).bind fun _ => .pure _

theorem diagnosed_catchBranch : (catchBranch nested).Diagnosed :=
  (diagnosed_keyword _).bind fun _ => diagnosed_blanks.bind fun _ =>
    (diagnosed_literal _).bind fun _ => diagnosed_blanks.bind fun _ =>
      diagnosed_reference.bind fun _ =>
        (diagnosed_spaces.keepRight diagnosed_reference).optional.bind fun _ =>
          diagnosed_blanks.bind fun _ => ((blames_literal _).label _).bind fun _ =>
            diagnosed_blanks.bind fun _ =>
              (diagnosed_block diagnosed).bind fun _ => .pure _

theorem diagnosed_tryBlock : (tryBlock nested).Diagnosed :=
  (diagnosed_keyword _).bind fun _ => diagnosed_blanks.bind fun _ =>
    (diagnosed_block diagnosed).bind fun _ =>
      (diagnosed_blanks.keepRight (diagnosed_catchBranch diagnosed)).many.bind fun _ =>
        (diagnosed_blanks.keepRight
          (diagnosed_wordAndBlock diagnosed _)).optional.bind fun _ => by
            split
            · exact diagnosed_refuse _ (by decide : "catch" < "finally")
            · exact .pure _

theorem diagnosed_throwing : (throwing nested).Diagnosed :=
  (diagnosed_keyword _).bind fun _ => diagnosed_spaces.bind fun _ =>
    diagnosed.expression.bind fun _ => .pure _

theorem diagnosed_leaving (word : String) : (leaving nested word).Diagnosed :=
  (diagnosed_keyword word).bind fun _ =>
    (diagnosed_spaces.keepRight diagnosed.expression).optional.bind fun _ => .pure _

theorem diagnosed_construct : (construct nested).Diagnosed :=
  (diagnosed_conditional diagnosed "if").orElse <|
    (diagnosed_conditional diagnosed "unless").orElse <|
      (diagnosed_switch diagnosed).orElse <| (diagnosed_tryBlock diagnosed).orElse <|
        (diagnosed_throwing diagnosed).orElse <|
          (diagnosed_leaving diagnosed "return").orElse
            (diagnosed_leaving diagnosed "exit")

end

theorem diagnosed_optionalList (name : String) {item : Parser Tree}
    (diagnosed : item.Diagnosed) (start : Location) :
    (optionalList name item start).Diagnosed :=
  (diagnosed_parenthesizedList diagnosed).optional.bind fun found => by
    cases found <;> exact .pure _

section

variable (diagnosed : nested.Diagnosed)
include diagnosed

theorem diagnosed_classDefinition : (classDefinition nested).Diagnosed :=
  (diagnosed_keyword _).bind fun start => diagnosed_blanks.bind fun _ =>
    (diagnosed_optionalList _ (diagnosed.classDefinition.orElse diagnosed_reference)
      start.location).bind fun _ => diagnosed_blanks.bind fun _ =>
        (diagnosed_block diagnosed).bind fun _ => .pure _

theorem diagnosed_parameter : (parameter nested).Diagnosed :=
  diagnosed_numeric.orElse <| diagnosed_character.orElse <|
    (diagnosed_string diagnosed).orElse diagnosed_reference

/-- The word in front tells, so that a list of lambdas may be labelled. -/
theorem marks_lambda : (lambda nested).Marks := by
  have word : (firstOf (keyword "->") [keyword "lambda", keyword "λ"]).Marks :=
    (marks_keyword _).orElse <| (diagnosed_keyword _).orElse (diagnosed_keyword _)
  exact word.bind fun start => diagnosed_blanks.bind fun _ =>
    (diagnosed_optionalList _ (diagnosed_parameter diagnosed) start.location).bind fun _ =>
      diagnosed_blanks.bind fun _ => (diagnosed_block diagnosed).bind fun _ => .pure _

theorem diagnosed_lambda : (lambda nested).Diagnosed :=
  (marks_lambda diagnosed).blames.diagnosed

theorem diagnosed_overloads : (overloads nested).Diagnosed :=
  (diagnosed_keyword _).bind fun _ => diagnosed_blanks.bind fun _ =>
    (diagnosed_literal _).bind fun _ => diagnosed_blanks.bind fun _ =>
      ((marks_lambda diagnosed).blames.label _).bind fun _ => diagnosed_blanks.bind fun _ =>
        ((diagnosed_lambda diagnosed).keepLeft diagnosed_blanks).many.bind fun _ =>
          ((blames_literal _).label _).bind fun _ => .pure _

theorem diagnosed_definition : (definition nested).Diagnosed :=
  (diagnosed_classDefinition diagnosed).orElse <|
    (diagnosed_lambda diagnosed).orElse (diagnosed_overloads diagnosed)

theorem diagnosed_suffix : (suffix nested).Diagnosed :=
  Diagnosed.orElse (((diagnosed_literal _).keepRight diagnosed_simpleReference).map _)
    ((diagnosed_parenthesizedList diagnosed.expression).bind fun _ => .pure _)

theorem diagnosed_suffixes (operand : Tree) : (suffixes nested operand).Diagnosed :=
  (diagnosed_suffix diagnosed).many.bind fun _ => .pure _

theorem diagnosed_parenthesized : (parenthesized nested).Diagnosed :=
  (diagnosed_literal _).bind fun _ => diagnosed_blanks.bind fun _ =>
    diagnosed.expression.bind fun _ => diagnosed_blanks.bind fun _ =>
      (diagnosed_literal _).bind fun _ => .pure _

theorem diagnosed_atom : (atom nested).Diagnosed :=
  (diagnosed_construct diagnosed).orElse <| (diagnosed_definition diagnosed).orElse <|
    (diagnosed_map diagnosed).orElse <| (diagnosed_list diagnosed).orElse <|
      (diagnosed_ledBySimple diagnosed).orElse <|
        (diagnosed_parenthesized diagnosed).orElse diagnosed_ledByReference

theorem diagnosed_operand : (operand nested).Diagnosed :=
  (diagnosed_atom diagnosed).bind fun _ => diagnosed_suffixes diagnosed _

theorem diagnosed_operatorLink : (operatorLink nested).Diagnosed :=
  diagnosed_spaces.bind fun _ => diagnosed_simpleReference.bind fun _ =>
    diagnosed_spaces.bind fun _ => diagnosed.operand.bind fun _ => .pure _

theorem diagnosed_expression : (expression nested).Diagnosed :=
  (diagnosed_operand diagnosed).bind fun _ =>
    (diagnosed_operatorLink diagnosed).many.bind fun _ => by split <;> exact .pure _

theorem diagnosed_assignment : (assignment nested).Diagnosed :=
  diagnosed_reference.bind fun target =>
    (diagnosed_suffixes diagnosed target).bind fun _ => diagnosed_spaces.bind fun _ =>
      (diagnosed_literal _).bind fun _ => diagnosed_spaces.bind fun _ =>
        diagnosed.expression.bind fun _ => .pure _

theorem diagnosed_statement : (statement nested).Diagnosed :=
  diagnosed_comment.orElse <|
    (diagnosed_assignment diagnosed).orElse (diagnosed_expression diagnosed)

theorem diagnosed_lines : (lines nested).Diagnosed :=
  (diagnosed_charWhere _ _).many.bind fun _ =>
    ((diagnosed_statement diagnosed).keepLeft (diagnosed_charWhere _ _).many).many

theorem diagnosed_module : (module nested).Diagnosed := by
  have sequence (source : Source) : (lines nested >>= fun statements => endOfInput >>= fun _ =>
      pure (Tree.branch "module" (source.placeOf 0) statements)).Diagnosed :=
    (diagnosed_lines diagnosed).bind fun _ => diagnosed_endOfInput.bind fun _ => .pure _
  have sourced := Diagnosed.sourced sequence
  exact sourced

theorem diagnosed_over (rule : Rule) : (rule.over nested).Diagnosed := by
  cases rule with
  | character => exact diagnosed_character
  | decimal => exact diagnosed_decimal
  | integer => exact diagnosed_integer
  | numeric => exact diagnosed_numeric
  | regularExpression => exact diagnosed_regularExpression diagnosed
  | string => exact diagnosed_string diagnosed
  | keyValue => exact diagnosed_keyValue diagnosed
  | list => exact diagnosed_list diagnosed
  | map => exact diagnosed_map diagnosed
  | range => exact diagnosed_range
  | reference => exact diagnosed_reference
  | block => exact diagnosed_block diagnosed
  | statement => exact diagnosed_statement diagnosed
  | comment => exact diagnosed_comment
  | assignment => exact diagnosed_assignment diagnosed
  | expression => exact diagnosed_expression diagnosed
  | operand => exact diagnosed_operand diagnosed
  | module => exact diagnosed_module diagnosed

end

/-- By induction on the levels. -/
theorem diagnosed_within (levels : Nat) : (Nested.within levels).Diagnosed := by
  induction levels with
  | zero => exact ⟨.exhausted, .exhausted, .exhausted, .exhausted, fun _ => .exhausted⟩
  | succ levels ih =>
      exact ⟨diagnosed_lines ih, diagnosed_expression ih, diagnosed_operand ih,
        diagnosed_classDefinition ih, fun word => diagnosed_conditional ih word⟩

theorem diagnosed_rule (rule : Rule) : rule.parser.Diagnosed := by
  have levelled (source : Source) : (rule.over (.within (source.size + 1))).Diagnosed :=
    diagnosed_over (diagnosed_within (source.size + 1)) rule
  have sourced := Diagnosed.sourced levelled
  exact sourced

section

variable {origin text : String} {error : Error} {failure : Failure} {source : Source}
  {cursor after : Cursor}

/-- Statements never fail: what cannot be read is left behind them. -/
theorem lines_ne_failed : lines nested source cursor ≠ .failed failure after := by
  intro failed
  unfold lines at failed
  rw [bind_apply] at failed
  split at failed
  · exact many_ne_failed failure failed
  · exact many_ne_failed _ ‹_›
  · cases failed

/-- What does not match as a module has something behind its statements. -/
theorem module_failed (failed : module nested source cursor = .failed failure after) :
    ∃ found stop, lines nested source cursor = .matched found stop ∧ stop.position < source.size ∧
      after = stop.record (stop.mismatch source "end of input") := by
  have sequence : (lines nested >>= fun statements => endOfInput >>= fun _ =>
      pure (Tree.branch "module" (source.placeOf 0) statements)) source cursor =
        .failed failure after := failed
  rw [bind_apply] at sequence
  cases answer : lines nested source cursor with
  | failed => exact absurd answer lines_ne_failed
  | exhausted =>
      rw [answer] at sequence
      cases sequence
  | matched found stop =>
      rw [answer] at sequence
      dsimp only at sequence
      by_cases more : stop.position < source.size
      · have ended : endOfInput source stop = .failed (stop.mismatch source "end of input")
            (stop.record (stop.mismatch source "end of input")) := if_pos more
        rw [bind_apply, ended] at sequence
        cases sequence
        exact ⟨found, stop, rfl, more, rfl⟩
      · have ended : endOfInput source stop = .matched () stop := if_neg more
        rw [bind_apply, ended] at sequence
        cases sequence

/-- What is reported of a text that is not a module. -/
structure Explains (origin text : String) (failure : Failure) (index : Nat) : Prop where
  /-- The failure has the place of a character, or the place behind the last one. -/
  inside : index ≤ text.length
  place : failure.location = some ((Location.start origin).past (text.toList.take index))
  found : failure.found = some ((Source.ofText origin text).standing index)
  alternatives : failure.expected ≠ []
  increasing : failure.expected.Pairwise (· < ·)
  /-- The failure lies no earlier than the first statement that could not be read. -/
  behind : ∃ found stop, statements (.ofText origin text) .initial = .matched found stop ∧
    stop.position < text.length ∧ stop.position ≤ index
  /-- There is a log of what the run records, and the failure reports on every such log. -/
  ran : ∃ log, Records (.ofText origin text) Rule.module.parser .initial log
  furthest : ∀ log, Records (.ofText origin text) Rule.module.parser .initial log →
    ∀ recorded ∈ log, recorded.position ≤ index
  expected : ∀ log, Records (.ofText origin text) Rule.module.parser .initial log →
    ∀ name, name ∈ failure.expected ↔
      ∃ recorded ∈ log, recorded.position = index ∧ name ∈ recorded.expected

/-- The grammar answers, so that the error is the furthest failure of the rule for modules. -/
theorem failed_of_error (failed : Tree.ofText origin text = .error error) :
    ∃ failure after, Rule.module.parser (.ofText origin text) .initial = .failed failure after ∧
      error = .parse (after.furthest.getD failure) := by
  have ended : Ends (fun nested => module nested) 0 (.ofText origin text) .initial :=
    ends regular_module approximates_module (Nat.zero_le _)
  unfold Tree.ofText readAll at failed
  cases reply : Rule.module.parser (.ofText origin text) .initial with
  | exhausted => exact absurd reply ended.answers
  | matched tree after =>
      rw [reply] at failed
      cases failed
  | failed failure after =>
      rw [reply] at failed
      cases failed
      exact ⟨failure, after, rfl, rfl⟩

/-- The error for a text that is not a module is the furthest failure that its run has recorded, with
all alternatives that were recorded there. -/
theorem errors_report_furthest_failures (failed : Tree.ofText origin text = .error error) :
    ∃ failure index, error = .parse failure ∧ Explains origin text failure index := by
  obtain ⟨failure, after, reply, rfl⟩ := failed_of_error failed
  obtain ⟨found, stop, read, more, rfl⟩ := module_failed reply
  obtain ⟨reported, isReported⟩ : ∃ reported, reported = Failure.furthest stop.furthest
    (stop.mismatch (.ofText origin text) "end of input") := ⟨_, rfl⟩
  have reports (log : List Failure)
      (ran : Records (.ofText origin text) Rule.module.parser .initial log) :
      reported.Reports log := by
    exact Failure.reports_of_foldl (isReported ▸ (ran.kept_eq (congrArg Reply.kept? reply)).symm)
  obtain ⟨log, ran, told⟩ := diagnosed_rule .module origin text .initial
  have tells : reported.Tells (.ofText origin text) := told.report (reports log ran)
  obtain ⟨index, inside, place, rfl⟩ := tells.place
  rw [Source.size_ofText] at inside more
  have stopped : stop.position ≤ reported.position := by
    have here : (stop.mismatch (.ofText origin text) "end of input").position = _ :=
      Failure.position_here stop rfl
    have kept := Failure.le_furthest stop.furthest
      (stop.mismatch (.ofText origin text) "end of input")
    rw [Source.size_ofText] at here
    rw [isReported]
    omega
  refine ⟨reported, reported.position, by rw [isReported]; rfl, ?_⟩
  exact {
    inside := inside
    place := by rw [place, Source.placeOf_ofText inside]
    found := tells.found
    alternatives := tells.alternatives
    increasing := tells.increasing
    behind := ⟨found, stop, read, more, stopped⟩
    ran := ⟨log, ran⟩
    furthest := fun log ran => (reports log ran).furthest
    expected := fun log ran => (reports log ran).expected }

/-- A reference where a lambda is missing, on the second line. -/
theorem errors_report_furthest_failures_of_overloads :
    ∃ failure index, Tree.ofText "sample" "=> \x7b\n  x \x7d" = .error (.parse failure) ∧
      Explains "sample" "=> \x7b\n  x \x7d" failure index ∧
      failure.location = some ⟨"sample", 7, 2, 2⟩ ∧ failure.found = some "'x'" := by
  have checked : (Rule.module.parser.readAll (.ofText "sample" "=> \x7b\n  x \x7d")).failures.any
      (fun failure => failure.location = some ⟨"sample", 7, 2, 2⟩ ∧ failure.found = some "'x'") =
        true := by decide +kernel
  obtain ⟨failure, failed, known⟩ := List.any_eq_true.mp checked
  have reported : Tree.ofText "sample" "=> \x7b\n  x \x7d" = .error (.parse failure) := by
    unfold Tree.ofText
    generalize Rule.module.parser.readAll (.ofText "sample" "=> \x7b\n  x \x7d") = reply at failed ⊢
    cases reply with
    | failed other after => exact congrArg _ (congrArg _ (List.mem_singleton.mp failed).symm)
    | _ => cases failed
  obtain ⟨_, index, ⟨⟩, explains⟩ := errors_report_furthest_failures reported
  exact ⟨failure, index, reported, explains, of_decide_eq_true known⟩

end

end RipInterpreter.Concrete
