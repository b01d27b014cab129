import RipInterpreter.Concrete.Grammar
import RipInterpreter.Proofs.Parsing.Approximation

namespace RipInterpreter.Concrete

open Parsing Parser

variable {source : Source} {nested nested₁ : Nested}

/-- The rules that may be nested approximate others one by one. -/
structure Nested.Approximates (source : Source) (nested nested₁ : Nested) : Prop where
  lines : nested.lines.Approximates source nested₁.lines
  expression : nested.expression.Approximates source nested₁.expression
  operand : nested.operand.Approximates source nested₁.operand
  classDefinition : nested.classDefinition.Approximates source nested₁.classDefinition
  conditional : ∀ word, (nested.conditional word).Approximates source (nested₁.conditional word)

theorem approximates_blanks : blanks.Approximates source blanks :=
  (approximates_charWhere _ _).many.bind fun _ => .pure ()

theorem approximates_spaces : spaces.Approximates source spaces :=
  (approximates_charWhere _ _).manyOne.bind fun _ => .pure ()

theorem approximates_lineEnd : lineEnd.Approximates source lineEnd :=
  (approximates_literal _).orElse (approximates_literal _)

theorem approximates_keyword (word : String) :
    (keyword word).Approximates source (keyword word) :=
  (approximates_literal word).keepLeft ((approximates_charWhere _ _).notFollowedBy _)

theorem approximates_listOf {item item₁ : Parser Tree}
    (approximates : item.Approximates source item₁) :
    (listOf item).Approximates source (listOf item₁) :=
  approximates.separated
    ((approximates_blanks.keepRight (approximates_literal _)).keepLeft approximates_blanks)

theorem approximates_simpleReference : simpleReference.Approximates source simpleReference :=
  (approximates_charWhere _ _).bind fun _ => (approximates_charWhere _ _).many.bind fun _ => .pure _

theorem approximates_reference : reference.Approximates source reference :=
  approximates_simpleReference.map _

theorem approximates_digits : digits.Approximates source digits :=
  have digit : digit.Approximates source digit := approximates_charWhere _ _
  digit.manyOne.bind fun _ =>
    ((approximates_literal _).optional.keepRight digit.manyOne).many.bind fun _ => .pure ()

theorem approximates_sign : sign.Approximates source sign :=
  ((approximates_literal _).orElse (approximates_literal _)).optional

theorem approximates_decimal : decimal.Approximates source decimal :=
  (Approximates.capture (approximates_sign.bind fun _ => approximates_digits.optional.bind fun _ =>
    (approximates_literal _).bind fun _ => approximates_digits)).map _

theorem approximates_integer : integer.Approximates source integer :=
  (approximates_sign.keepRight approximates_digits).capture.map _

theorem approximates_numeric : numeric.Approximates source numeric :=
  approximates_decimal.orElse approximates_integer

theorem approximates_character : character.Approximates source character :=
  ((approximates_literal _).keepRight (approximates_charWhere _ _)).map _

theorem approximates_rawCharacter : rawCharacter.Approximates source rawCharacter :=
  (approximates_charWhere _ _).map _

theorem approximates_escape : escape.Approximates source escape :=
  ((approximates_literal _).keepRight (approximates_charWhere _ _)).capture.map _

theorem approximates_symbolString : symbolString.Approximates source symbolString :=
  (approximates_literal _).bind fun _ => approximates_here.bind fun _ =>
    ((approximates_charWhere _ _).map _).manyOne.bind fun _ => .pure _

theorem approximates_singleQuoted : singleQuoted.Approximates source singleQuoted :=
  (approximates_literal _).bind fun _ => approximates_here.bind fun _ =>
    (((approximates_literal _).notFollowedBy _).keepRight approximates_rawCharacter).many.bind
      fun _ => ((approximates_literal _).label _).bind fun _ => .pure _

theorem approximates_skipText (text : String) :
    (skipText text).Approximates source (skipText text) :=
  fun _ => .matched (Nat.le_add_right _ _)

section

variable (approximates : nested.Approximates source nested₁)
include approximates

theorem approximates_interpolation :
    (interpolation nested).Approximates source (interpolation nested₁) :=
  (approximates_literal _).bind fun _ => approximates.lines.bind fun _ =>
    ((approximates_literal _).label _).bind fun _ => .pure _

theorem approximates_marked (kind mark : String) :
    (marked nested kind mark).Approximates source (marked nested₁ kind mark) := by
  have piece : (firstOf (interpolation nested) [escape,
      keepRight (notFollowedBy (literal mark) mark) rawCharacter]).Approximates source
      (firstOf (interpolation nested₁) [escape,
        keepRight (notFollowedBy (literal mark) mark) rawCharacter]) :=
    (approximates_interpolation approximates).orElse <| approximates_escape.orElse <|
      ((approximates_literal mark).notFollowedBy mark).keepRight approximates_rawCharacter
  exact (approximates_literal mark).bind fun _ => approximates_here.bind fun _ =>
    piece.many.bind fun _ => ((approximates_literal mark).label _).bind fun _ => .pure _

theorem approximates_hereDocument :
    (hereDocument nested).Approximates source (hereDocument nested₁) :=
  (approximates_literal _).bind fun _ =>
    (approximates_charWhere _ _).manyOne.capture.bind fun terminator =>
      approximates_lineEnd.bind fun _ => approximates_here.bind fun _ =>
        Approximates.bind (.manyUntil ((approximates_interpolation approximates).orElse
          (approximates_rawCharacter.label _)) _) fun _ =>
            (approximates_skipText terminator.text).bind fun _ => .pure _

theorem approximates_string : (string nested).Approximates source (string nested₁) :=
  approximates_symbolString.orElse <| approximates_singleQuoted.orElse <|
    (approximates_marked approximates "string" _).orElse (approximates_hereDocument approximates)

theorem approximates_regularExpression :
    (regularExpression nested).Approximates source (regularExpression nested₁) :=
  approximates_marked approximates "regular_expression" _

theorem approximates_block : (block nested).Approximates source (block nested₁) :=
  (approximates_literal _).bind fun _ => approximates.lines.bind fun _ =>
    ((approximates_literal _).label _).bind fun _ => .pure _

theorem approximates_simpleValue :
    (simpleValue nested).Approximates source (simpleValue nested₁) :=
  approximates_numeric.orElse <| approximates_character.orElse <|
    (approximates_string approximates).orElse (approximates_regularExpression approximates)

end

theorem approximates_parenthesizedList {item item₁ : Parser Tree}
    (approximates : item.Approximates source item₁) :
    (parenthesizedList item).Approximates source (parenthesizedList item₁) :=
  (approximates_literal _).bind fun _ => approximates_blanks.bind fun _ =>
    (approximates_listOf approximates).bind fun _ => approximates_blanks.bind fun _ =>
      ((approximates_literal _).label _).bind fun _ => .pure _

theorem approximates_rangeable : rangeable.Approximates source rangeable :=
  approximates_integer.orElse (approximates_character.orElse approximates_reference)

theorem approximates_rangeRest (start : Tree) :
    (rangeRest start).Approximates source (rangeRest start) :=
  Approximates.bind (Approximates.optional ((approximates_literal _).bind fun _ =>
    (approximates_literal _).optional.bind fun _ =>
      approximates_rangeable.bind fun _ => .pure _)) fun _ => .pure _

theorem approximates_range : range.Approximates source range :=
  approximates_rangeable.bind fun start => (approximates_rangeRest start).bind fun found => by
    cases found with
    | some range => exact .pure range
    | none => exact approximates_failFurthest _

theorem approximates_comment : comment.Approximates source comment :=
  (approximates_literal _).bind fun _ =>
    ((approximates_literal _).notFollowedBy _).bind fun _ =>
      ((approximates_lineEnd.notFollowedBy _).keepRight
        (approximates_charWhere _ _)).many.capture.map _

theorem approximates_ledByReference : ledByReference.Approximates source ledByReference :=
  approximates_reference.bind fun first => (approximates_rangeRest first).bind fun _ => .pure _

section

variable (approximates : nested.Approximates source nested₁)
include approximates

theorem approximates_pairRest (key : Tree) :
    (pairRest nested key).Approximates source (pairRest nested₁ key) :=
  Approximates.bind (Approximates.optional (approximates_spaces.optional.bind fun _ =>
    (approximates_literal _).bind fun _ => approximates_spaces.optional.bind fun _ =>
      approximates.operand)) fun _ => .pure _

theorem approximates_keyValue : (keyValue nested).Approximates source (keyValue nested₁) :=
  (approximates_simpleValue approximates).bind fun key =>
    (approximates_pairRest approximates key).bind fun found => by
      cases found with
      | some pair => exact .pure pair
      | none => exact approximates_failFurthest _

theorem approximates_ledBySimple :
    (ledBySimple nested).Approximates source (ledBySimple nested₁) :=
  (approximates_simpleValue approximates).bind fun first =>
    (approximates_pairRest approximates first).bind fun found => by
      cases found with
      | some pair => exact .pure pair
      | none =>
          change Approximates source (ite _ _ _) (ite _ _ _)
          split
          · exact (approximates_rangeRest first).bind fun _ => .pure _
          · exact .pure first

theorem approximates_map : (map nested).Approximates source (map nested₁) :=
  (approximates_literal _).bind fun _ => approximates_blanks.bind fun _ =>
    (approximates_listOf (approximates_keyValue approximates)).bind fun _ =>
      approximates_blanks.bind fun _ => (approximates_literal _).bind fun _ => .pure _

theorem approximates_list : (list nested).Approximates source (list nested₁) :=
  (approximates_literal _).bind fun _ => approximates_blanks.bind fun _ =>
    (approximates_listOf approximates.expression).bind fun _ => approximates_blanks.bind fun _ =>
      ((approximates_literal _).label _).bind fun _ => .pure _

theorem approximates_condition : (condition nested).Approximates source (condition nested₁) :=
  (approximates_literal _).bind fun _ => approximates_blanks.bind fun _ =>
    approximates.expression.bind fun _ => approximates_blanks.bind fun _ =>
      ((approximates_literal _).label _).bind fun _ => .pure _

theorem approximates_elseBranch : (elseBranch nested).Approximates source (elseBranch nested₁) := by
  have body : (firstOf (block nested)
      [nested.conditional "if", nested.conditional "unless"]).Approximates source
      (firstOf (block nested₁) [nested₁.conditional "if", nested₁.conditional "unless"]) :=
    (approximates_block approximates).orElse <|
      (approximates.conditional "if").orElse (approximates.conditional "unless")
  exact approximates_blanks.bind fun _ => (approximates_keyword _).bind fun _ =>
    approximates_blanks.bind fun _ => body.bind fun _ => .pure _

theorem approximates_conditional (word : String) :
    (conditional nested word).Approximates source (conditional nested₁ word) :=
  (approximates_keyword word).bind fun _ => approximates_blanks.bind fun _ =>
    (approximates_condition approximates).bind fun _ => approximates_blanks.bind fun _ =>
      (approximates_block approximates).bind fun _ =>
        (approximates_elseBranch approximates).optional.bind fun _ => .pure _

theorem approximates_wordAndBlock (word : String) :
    (wordAndBlock nested word).Approximates source (wordAndBlock nested₁ word) :=
  (approximates_keyword word).bind fun _ => approximates_blanks.bind fun _ =>
    (approximates_block approximates).bind fun _ => .pure _

theorem approximates_case : (case nested).Approximates source (case nested₁) :=
  (approximates_keyword _).bind fun _ => approximates_blanks.bind fun _ =>
    (approximates_parenthesizedList approximates.expression).bind fun _ =>
      approximates_blanks.bind fun _ => (approximates_block approximates).bind fun _ => .pure _

theorem approximates_switch : (switch nested).Approximates source (switch nested₁) :=
  (approximates_keyword _).bind fun _ => approximates_blanks.bind fun _ =>
    (approximates_condition approximates).bind fun _ => approximates_blanks.bind fun _ =>
      (approximates_literal _).bind fun _ => approximates_blanks.bind fun _ =>
        ((approximates_case approximates).keepLeft approximates_blanks).many.bind fun _ =>
          ((approximates_wordAndBlock approximates _).keepLeft
            approximates_blanks).optional.bind fun _ =>
              ((approximates_literal _).label _).bind fun _ => .pure _

theorem approximates_catchBranch :
    (catchBranch nested).Approximates source (catchBranch nested₁) :=
  (approximates_keyword _).bind fun _ => approximates_blanks.bind fun _ =>
    (approximates_literal _).bind fun _ => approximates_blanks.bind fun _ =>
      approximates_reference.bind fun _ =>
        (approximates_spaces.keepRight approximates_reference).optional.bind fun _ =>
          approximates_blanks.bind fun _ => ((approximates_literal _).label _).bind fun _ =>
            approximates_blanks.bind fun _ =>
              (approximates_block approximates).bind fun _ => .pure _

theorem approximates_tryBlock : (tryBlock nested).Approximates source (tryBlock nested₁) :=
  (approximates_keyword _).bind fun _ => approximates_blanks.bind fun _ =>
    (approximates_block approximates).bind fun _ =>
      (approximates_blanks.keepRight (approximates_catchBranch approximates)).many.bind fun _ =>
        (approximates_blanks.keepRight
          (approximates_wordAndBlock approximates _)).optional.bind fun _ => by
            split
            · exact (approximates_failureHere _).bind fun _ => approximates_refuse _
            · exact .pure _

theorem approximates_throwing : (throwing nested).Approximates source (throwing nested₁) :=
  (approximates_keyword _).bind fun _ => approximates_spaces.bind fun _ =>
    approximates.expression.bind fun _ => .pure _

theorem approximates_leaving (word : String) :
    (leaving nested word).Approximates source (leaving nested₁ word) :=
  (approximates_keyword word).bind fun _ =>
    (approximates_spaces.keepRight approximates.expression).optional.bind fun _ => .pure _

theorem approximates_construct : (construct nested).Approximates source (construct nested₁) :=
  (approximates_conditional approximates "if").orElse <|
    (approximates_conditional approximates "unless").orElse <|
      (approximates_switch approximates).orElse <| (approximates_tryBlock approximates).orElse <|
        (approximates_throwing approximates).orElse <|
          (approximates_leaving approximates "return").orElse
            (approximates_leaving approximates "exit")

end

theorem approximates_optionalList (name : String) {item item₁ : Parser Tree}
    (approximates : item.Approximates source item₁) (start : Location) :
    (optionalList name item start).Approximates source (optionalList name item₁ start) :=
  (approximates_parenthesizedList approximates).optional.bind fun found => by
    cases found <;> exact .pure _

section

variable (approximates : nested.Approximates source nested₁)
include approximates

theorem approximates_classDefinition :
    (classDefinition nested).Approximates source (classDefinition nested₁) :=
  (approximates_keyword _).bind fun start => approximates_blanks.bind fun _ =>
    (approximates_optionalList _ (approximates.classDefinition.orElse approximates_reference)
      start.location).bind fun _ => approximates_blanks.bind fun _ =>
        (approximates_block approximates).bind fun _ => .pure _

theorem approximates_parameter : (parameter nested).Approximates source (parameter nested₁) :=
  approximates_numeric.orElse <| approximates_character.orElse <|
    (approximates_string approximates).orElse approximates_reference

theorem approximates_lambda : (lambda nested).Approximates source (lambda nested₁) := by
  have word : (firstOf (keyword "->") [keyword "lambda", keyword "λ"]).Approximates source
      (firstOf (keyword "->") [keyword "lambda", keyword "λ"]) :=
    (approximates_keyword _).orElse <| (approximates_keyword _).orElse (approximates_keyword _)
  exact word.bind fun start => approximates_blanks.bind fun _ =>
    (approximates_optionalList _ (approximates_parameter approximates) start.location).bind fun _ =>
      approximates_blanks.bind fun _ => (approximates_block approximates).bind fun _ => .pure _

theorem approximates_overloads : (overloads nested).Approximates source (overloads nested₁) :=
  (approximates_keyword _).bind fun _ => approximates_blanks.bind fun _ =>
    (approximates_literal _).bind fun _ => approximates_blanks.bind fun _ =>
      ((approximates_lambda approximates).label _).bind fun _ => approximates_blanks.bind fun _ =>
        ((approximates_lambda approximates).keepLeft approximates_blanks).many.bind fun _ =>
          ((approximates_literal _).label _).bind fun _ => .pure _

theorem approximates_definition : (definition nested).Approximates source (definition nested₁) :=
  (approximates_classDefinition approximates).orElse <|
    (approximates_lambda approximates).orElse (approximates_overloads approximates)

theorem approximates_suffix : (suffix nested).Approximates source (suffix nested₁) :=
  Approximates.orElse (((approximates_literal _).keepRight approximates_simpleReference).map _)
    ((approximates_parenthesizedList approximates.expression).bind fun _ => .pure _)

theorem approximates_suffixes (operand : Tree) :
    (suffixes nested operand).Approximates source (suffixes nested₁ operand) :=
  (approximates_suffix approximates).many.bind fun _ => .pure _

theorem approximates_parenthesized :
    (parenthesized nested).Approximates source (parenthesized nested₁) :=
  (approximates_literal _).bind fun _ => approximates_blanks.bind fun _ =>
    approximates.expression.bind fun _ => approximates_blanks.bind fun _ =>
      (approximates_literal _).bind fun _ => .pure _

theorem approximates_atom : (atom nested).Approximates source (atom nested₁) :=
  (approximates_construct approximates).orElse <| (approximates_definition approximates).orElse <|
    (approximates_map approximates).orElse <| (approximates_list approximates).orElse <|
      (approximates_ledBySimple approximates).orElse <|
        (approximates_parenthesized approximates).orElse approximates_ledByReference

theorem approximates_operand : (operand nested).Approximates source (operand nested₁) :=
  (approximates_atom approximates).bind fun _ => approximates_suffixes approximates _

theorem approximates_operatorLink :
    (operatorLink nested).Approximates source (operatorLink nested₁) :=
  approximates_spaces.bind fun _ => approximates_simpleReference.bind fun _ =>
    approximates_spaces.bind fun _ => approximates.operand.bind fun _ => .pure _

theorem approximates_expression : (expression nested).Approximates source (expression nested₁) :=
  (approximates_operand approximates).bind fun _ =>
    (approximates_operatorLink approximates).many.bind fun _ => by split <;> exact .pure _

theorem approximates_assignment : (assignment nested).Approximates source (assignment nested₁) :=
  approximates_reference.bind fun target =>
    (approximates_suffixes approximates target).bind fun _ => approximates_spaces.bind fun _ =>
      (approximates_literal _).bind fun _ => approximates_spaces.bind fun _ =>
        approximates.expression.bind fun _ => .pure _

theorem approximates_statement : (statement nested).Approximates source (statement nested₁) :=
  approximates_comment.orElse <|
    (approximates_assignment approximates).orElse (approximates_expression approximates)

theorem approximates_lines : (lines nested).Approximates source (lines nested₁) :=
  (approximates_charWhere _ _).many.bind fun _ =>
    ((approximates_statement approximates).keepLeft (approximates_charWhere _ _).many).many

theorem approximates_module : (module nested).Approximates source (module nested₁) := by
  have sequence : Approximates source
      (lines nested >>= fun statements => endOfInput >>= fun _ =>
        pure (Tree.branch "module" (source.placeOf 0) statements))
      (lines nested₁ >>= fun statements => endOfInput >>= fun _ =>
        pure (Tree.branch "module" (source.placeOf 0) statements)) :=
    (approximates_lines approximates).bind fun _ => approximates_endOfInput.bind fun _ => .pure _
  exact sequence

theorem approximates_over (rule : Rule) :
    (rule.over nested).Approximates source (rule.over nested₁) := by
  cases rule with
  | character => exact approximates_character
  | decimal => exact approximates_decimal
  | integer => exact approximates_integer
  | numeric => exact approximates_numeric
  | regularExpression => exact approximates_regularExpression approximates
  | string => exact approximates_string approximates
  | keyValue => exact approximates_keyValue approximates
  | list => exact approximates_list approximates
  | map => exact approximates_map approximates
  | range => exact approximates_range
  | reference => exact approximates_reference
  | block => exact approximates_block approximates
  | statement => exact approximates_statement approximates
  | comment => exact approximates_comment
  | assignment => exact approximates_assignment approximates
  | expression => exact approximates_expression approximates
  | operand => exact approximates_operand approximates
  | module => exact approximates_module approximates

end

/-- More levels of nesting give the same answers and possibly some more. -/
theorem Nested.approximates_more {levels more : Nat} (fewer : levels ≤ more) :
    (Nested.within levels).Approximates source (.within more) := by
  induction levels generalizing more with
  | zero => exact ⟨.exhausted, .exhausted, .exhausted, .exhausted, fun _ => .exhausted⟩
  | succ levels ih =>
      obtain ⟨more, rfl⟩ : ∃ rest, more = rest + 1 := ⟨more - 1, by omega⟩
      have deeper : (Nested.within levels).Approximates source (.within more) := ih (by omega)
      exact ⟨approximates_lines deeper, approximates_expression deeper,
        approximates_operand deeper, approximates_classDefinition deeper,
        fun word => approximates_conditional deeper word⟩

end RipInterpreter.Concrete
