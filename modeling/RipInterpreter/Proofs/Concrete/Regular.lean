import RipInterpreter.Concrete.Grammar
import RipInterpreter.Proofs.Parsing.Regular

namespace RipInterpreter.Concrete

open Parsing Parser

variable {levels : Nat} {nested : Nested} {α : Type}

/-- How many characters a rule takes at least: only a module may be empty. -/
def Rule.least : Rule → Nat
  | .module => 0
  | _ => 1

/-- The rules that may be nested are regular with so many levels. -/
structure Nested.Regular (levels : Nat) (nested : Nested) : Prop where
  lines : nested.lines.Regular levels 0
  expression : nested.expression.Regular levels 1
  operand : nested.operand.Regular levels 1
  classDefinition : nested.classDefinition.Regular levels 1
  conditional : ∀ word : String, 1 ≤ word.length → (nested.conditional word).Regular levels 1

theorem regular_blanks : blanks.Regular levels 0 :=
  (regular_charWhere _ _).many.andThen fun _ => .pure ()

theorem regular_spaces : spaces.Regular levels 1 :=
  (regular_charWhere _ _).manyOne.followed fun _ => .pure ()

theorem regular_lineEnd : lineEnd.Regular levels 1 :=
  (regular_literal (by decide)).orElse (regular_literal (by decide))

theorem regular_keyword {word : String} (nonempty : 1 ≤ word.length) :
    (keyword word).Regular levels 1 :=
  (regular_literal nonempty).keepLeft ((regular_charWhere _ _).notFollowedBy _)

theorem regular_listOf {item : Parser Tree} (regular : item.Regular levels 1) :
    (listOf item).Regular levels 0 :=
  regular.separated (((regular_blanks.keepRight (regular_literal (by decide))).keepLeft
    regular_blanks).zero)

theorem regular_simpleReference : simpleReference.Regular levels 1 :=
  (regular_charWhere _ _).followed fun _ => (regular_charWhere _ _).many.andThen fun _ => .pure _

theorem regular_reference : reference.Regular levels 1 := regular_simpleReference.map _

theorem regular_digits : digits.Regular levels 1 :=
  have digit : digit.Regular levels 1 := regular_charWhere _ _
  digit.manyOne.followed fun _ =>
    ((regular_literal (by decide)).optional.keepRight digit.manyOne).many.andThen fun _ => .pure ()

theorem regular_sign : sign.Regular levels 0 :=
  ((regular_literal (by decide)).orElse (regular_literal (by decide))).optional

theorem regular_decimal : decimal.Regular levels 1 :=
  (Regular.capture (regular_sign.andThen fun _ => regular_digits.optional.andThen fun _ =>
    (regular_literal (by decide)).followed fun _ => regular_digits.zero)).map _

theorem regular_integer : integer.Regular levels 1 :=
  (regular_sign.keepRight regular_digits).capture.map _

theorem regular_numeric : numeric.Regular levels 1 := regular_decimal.orElse regular_integer

theorem regular_character : character.Regular levels 1 :=
  ((regular_literal (by decide)).zero.keepRight (regular_charWhere _ _)).map _

theorem regular_rawCharacter : rawCharacter.Regular levels 1 := regular_anyChar.map _

theorem regular_escape : escape.Regular levels 1 :=
  ((regular_literal (by decide)).zero.keepRight regular_anyChar).capture.map _

theorem regular_symbolString : symbolString.Regular levels 1 :=
  (regular_literal (by decide)).followed fun _ => regular_here.andThen fun _ =>
    ((regular_charWhere _ _).map _).manyOne.zero.andThen fun _ => .pure _

theorem regular_singleQuoted : singleQuoted.Regular levels 1 :=
  (regular_literal (by decide)).followed fun _ => regular_here.andThen fun _ =>
    (((regular_literal (by decide)).notFollowedBy _).keepRight regular_rawCharacter).many.andThen
      fun _ => ((regular_literal (by decide)).label _).zero.andThen fun _ => .pure _

section

variable (regular : nested.Regular levels)
include regular

theorem regular_interpolation : (interpolation nested).Regular (levels + 1) 1 :=
  (regular_literal (by decide)).enter fun _ => regular.lines.andThen fun _ =>
    ((regular_literal (by decide)).label _).zero.andThen fun _ => .pure _

theorem regular_marked (kind : String) {mark : String} (nonempty : 1 ≤ mark.length) :
    (marked nested kind mark).Regular (levels + 1) 1 := by
  have piece : (firstOf (interpolation nested) [escape,
      keepRight (notFollowedBy (literal mark) mark) rawCharacter]).Regular levels 1 :=
    (regular_interpolation regular).shallow.orElse <| regular_escape.orElse <|
      ((regular_literal nonempty).notFollowedBy mark).keepRight regular_rawCharacter
  exact (regular_literal nonempty).enter fun _ => regular_here.andThen fun _ =>
    piece.many.andThen fun _ => ((regular_literal nonempty).label _).zero.andThen fun _ => .pure _

/-- The content of a here-doc ends where its label stands, so that there is a label to skip. -/
theorem regular_hereDocument : (hereDocument nested).Regular (levels + 1) 1 := by
  refine (regular_literal (by decide)).enter fun _ =>
    ((regular_charWhere _ _).manyOne.capture.zero).andThen fun terminator =>
      regular_lineEnd.zero.andThen fun _ => regular_here.andThen fun start => ?_
  refine Regular.bindStopped (.manyUntil ((regular_interpolation regular).shallow.orElse
    (regular_rawCharacter.label _)) _) fun parts source cursor cursor₁ same inside stopped => ?_
  have bound := continuesWith_bound stopped inside
  rw [String.length_toList] at bound
  refine .matched ?_ (Nat.le_add_right _ _) bound
  simp only [Cursor.moveTo, same]

theorem regular_string : (string nested).Regular (levels + 1) 1 :=
  regular_symbolString.orElse <| regular_singleQuoted.orElse <|
    (regular_marked regular "string" (by decide)).orElse (regular_hereDocument regular)

theorem regular_regularExpression : (regularExpression nested).Regular (levels + 1) 1 :=
  regular_marked regular "regular_expression" (by decide)

theorem regular_block : (block nested).Regular (levels + 1) 1 :=
  (regular_literal (by decide)).enter fun _ => regular.lines.andThen fun _ =>
    ((regular_literal (by decide)).label _).zero.andThen fun _ => .pure _

theorem regular_simpleValue : (simpleValue nested).Regular (levels + 1) 1 :=
  regular_numeric.orElse <| regular_character.orElse <|
    (regular_string regular).orElse (regular_regularExpression regular)

end

theorem regular_parenthesizedList {item : Parser Tree} (regular : item.Regular levels 1) :
    (parenthesizedList item).Regular (levels + 1) 1 :=
  (regular_literal (by decide)).enter fun _ => regular_blanks.andThen fun _ =>
    (regular_listOf regular).andThen fun _ => regular_blanks.andThen fun _ =>
      ((regular_literal (by decide)).label _).zero.andThen fun _ => .pure _

theorem regular_rangeable : rangeable.Regular levels 1 :=
  regular_integer.orElse (regular_character.orElse regular_reference)

theorem regular_rangeRest (start : Tree) : (rangeRest start).Regular levels 0 :=
  Regular.andThen (Regular.optional ((regular_literal (by decide)).followed fun _ =>
    (regular_literal (by decide)).optional.andThen fun _ =>
      regular_rangeable.zero.andThen fun _ => .pure _)) fun _ => .pure _

theorem regular_range : range.Regular levels 1 :=
  regular_rangeable.followed fun start => (regular_rangeRest start).andThen fun found => by
    cases found with
    | some range => exact .pure range
    | none => exact regular_failFurthest _

theorem regular_comment : comment.Regular levels 1 :=
  (regular_literal (by decide)).followed fun _ =>
    ((regular_literal (by decide)).notFollowedBy _).andThen fun _ =>
      ((regular_lineEnd.notFollowedBy _).keepRight (regular_charWhere _ _)).many.capture.map _

theorem regular_ledByReference : ledByReference.Regular levels 1 :=
  regular_reference.followed fun first => (regular_rangeRest first).andThen fun _ => .pure _

section

variable (regular : nested.Regular levels)
include regular

/-- The value of a pair stands behind its key, and behind a colon. -/
theorem regular_pairRest (key : Tree) : (pairRest nested key).Regular levels 0 :=
  Regular.andThen (Regular.optional (regular_spaces.optional.andThen fun _ =>
    (regular_literal (by decide)).zero.andThen fun _ => regular_spaces.optional.andThen fun _ =>
      regular.operand)) fun _ => .pure _

theorem regular_keyValue : (keyValue nested).Regular (levels + 1) 1 :=
  (regular_simpleValue regular).enter fun key =>
    (regular_pairRest regular key).andThen fun found => by
      cases found with
      | some pair => exact .pure pair
      | none => exact regular_failFurthest _

theorem regular_ledBySimple : (ledBySimple nested).Regular (levels + 1) 1 :=
  (regular_simpleValue regular).enter fun first =>
    (regular_pairRest regular first).andThen fun found => by
      cases found with
      | some pair => exact .pure pair
      | none =>
          change Regular levels 0 (ite _ _ _)
          split
          · exact (regular_rangeRest first).andThen fun _ => .pure _
          · exact .pure first

theorem regular_map : (map nested).Regular (levels + 1) 1 :=
  (regular_literal (by decide)).enter fun _ => regular_blanks.andThen fun _ =>
    (regular_listOf (regular_keyValue regular).shallow).andThen fun _ =>
      regular_blanks.andThen fun _ => (regular_literal (by decide)).zero.andThen fun _ => .pure _

theorem regular_list : (list nested).Regular (levels + 1) 1 :=
  (regular_literal (by decide)).enter fun _ => regular_blanks.andThen fun _ =>
    (regular_listOf regular.expression).andThen fun _ => regular_blanks.andThen fun _ =>
      ((regular_literal (by decide)).label _).zero.andThen fun _ => .pure _

theorem regular_condition : (condition nested).Regular (levels + 1) 1 :=
  (regular_literal (by decide)).enter fun _ => regular_blanks.andThen fun _ =>
    regular.expression.zero.andThen fun _ => regular_blanks.andThen fun _ =>
      ((regular_literal (by decide)).label _).zero.andThen fun _ => .pure _

theorem regular_elseBranch : (elseBranch nested).Regular levels 1 := by
  have body : (firstOf (block nested) [nested.conditional "if", nested.conditional "unless"]).Regular
      levels 1 :=
    (regular_block regular).shallow.orElse <|
      (regular.conditional "if" (by decide)).orElse (regular.conditional "unless" (by decide))
  exact regular_blanks.andThen fun _ => (regular_keyword (by decide)).followed fun _ =>
    regular_blanks.andThen fun _ => body.zero.andThen fun _ => .pure _

theorem regular_conditional {word : String} (nonempty : 1 ≤ word.length) :
    (conditional nested word).Regular (levels + 1) 1 :=
  (regular_keyword nonempty).enter fun _ => regular_blanks.andThen fun _ =>
    (regular_condition regular).shallow.zero.andThen fun _ => regular_blanks.andThen fun _ =>
      (regular_block regular).shallow.zero.andThen fun _ =>
        (regular_elseBranch regular).optional.andThen fun _ => .pure _

theorem regular_wordAndBlock {word : String} (nonempty : 1 ≤ word.length) :
    (wordAndBlock nested word).Regular (levels + 1) 1 :=
  (regular_keyword nonempty).enter fun _ => regular_blanks.andThen fun _ =>
    (regular_block regular).shallow.zero.andThen fun _ => .pure _

theorem regular_case : (case nested).Regular (levels + 1) 1 :=
  (regular_keyword (by decide)).enter fun _ => regular_blanks.andThen fun _ =>
    (regular_parenthesizedList regular.expression).shallow.zero.andThen fun _ =>
      regular_blanks.andThen fun _ => (regular_block regular).shallow.zero.andThen fun _ => .pure _

theorem regular_switch : (switch nested).Regular (levels + 1) 1 :=
  (regular_keyword (by decide)).enter fun _ => regular_blanks.andThen fun _ =>
    (regular_condition regular).shallow.zero.andThen fun _ => regular_blanks.andThen fun _ =>
      (regular_literal (by decide)).zero.andThen fun _ => regular_blanks.andThen fun _ =>
        ((regular_case regular).shallow.keepLeft regular_blanks).many.andThen fun _ =>
          ((regular_wordAndBlock regular (by decide)).shallow.keepLeft
            regular_blanks).optional.andThen fun _ =>
              ((regular_literal (by decide)).label _).zero.andThen fun _ => .pure _

theorem regular_catchBranch : (catchBranch nested).Regular (levels + 1) 1 :=
  (regular_keyword (by decide)).enter fun _ => regular_blanks.andThen fun _ =>
    (regular_literal (by decide)).zero.andThen fun _ => regular_blanks.andThen fun _ =>
      regular_reference.zero.andThen fun _ =>
        (regular_spaces.zero.keepRight regular_reference).optional.andThen fun _ =>
          regular_blanks.andThen fun _ =>
            ((regular_literal (by decide)).label _).zero.andThen fun _ =>
              regular_blanks.andThen fun _ =>
                (regular_block regular).shallow.zero.andThen fun _ => .pure _

theorem regular_tryBlock : (tryBlock nested).Regular (levels + 1) 1 :=
  (regular_keyword (by decide)).enter fun _ => regular_blanks.andThen fun _ =>
    (regular_block regular).shallow.zero.andThen fun _ =>
      (regular_blanks.keepRight (regular_catchBranch regular).shallow).many.andThen fun _ =>
        (regular_blanks.keepRight
          (regular_wordAndBlock regular (by decide)).shallow).optional.andThen fun _ => by
            split
            · exact (regular_failureHere _).andThen fun _ => regular_refuse _
            · exact .pure _

theorem regular_throwing : (throwing nested).Regular (levels + 1) 1 :=
  (regular_keyword (by decide)).enter fun _ => regular_spaces.zero.andThen fun _ =>
    regular.expression.zero.andThen fun _ => .pure _

theorem regular_leaving {word : String} (nonempty : 1 ≤ word.length) :
    (leaving nested word).Regular (levels + 1) 1 :=
  (regular_keyword nonempty).enter fun _ =>
    (regular_spaces.zero.keepRight regular.expression).optional.andThen fun _ => .pure _

theorem regular_construct : (construct nested).Regular (levels + 1) 1 :=
  (regular_conditional regular (by decide)).orElse <|
    (regular_conditional regular (by decide)).orElse <| (regular_switch regular).orElse <|
      (regular_tryBlock regular).orElse <| (regular_throwing regular).orElse <|
        (regular_leaving regular (by decide)).orElse (regular_leaving regular (by decide))

end

theorem regular_optionalList (name : String) {item : Parser Tree} (regular : item.Regular levels 1)
    (start : Location) : (optionalList name item start).Regular levels 0 :=
  (regular_parenthesizedList regular).shallow.optional.andThen fun found => by
    cases found <;> exact .pure _

section

variable (regular : nested.Regular levels)
include regular

theorem regular_classDefinition : (classDefinition nested).Regular (levels + 1) 1 :=
  (regular_keyword (by decide)).enter fun start => regular_blanks.andThen fun _ =>
    (regular_optionalList _ (regular.classDefinition.orElse regular_reference)
      start.location).andThen fun _ => regular_blanks.andThen fun _ =>
        (regular_block regular).shallow.zero.andThen fun _ => .pure _

theorem regular_parameter : (parameter nested).Regular (levels + 1) 1 :=
  regular_numeric.orElse <| regular_character.orElse <|
    (regular_string regular).orElse regular_reference

theorem regular_lambda : (lambda nested).Regular (levels + 1) 1 := by
  have word : (firstOf (keyword "->") [keyword "lambda", keyword "λ"]).Regular (levels + 1) 1 :=
    (regular_keyword (by decide)).orElse <|
      (regular_keyword (by decide)).orElse (regular_keyword (by decide))
  exact word.enter fun start => regular_blanks.andThen fun _ =>
    (regular_optionalList _ (regular_parameter regular).shallow start.location).andThen fun _ =>
      regular_blanks.andThen fun _ => (regular_block regular).shallow.zero.andThen fun _ => .pure _

theorem regular_overloads : (overloads nested).Regular (levels + 1) 1 :=
  (regular_keyword (by decide)).enter fun _ => regular_blanks.andThen fun _ =>
    (regular_literal (by decide)).zero.andThen fun _ => regular_blanks.andThen fun _ =>
      ((regular_lambda regular).shallow.label _).zero.andThen fun _ =>
        regular_blanks.andThen fun _ =>
          ((regular_lambda regular).shallow.keepLeft regular_blanks).many.andThen fun _ =>
            ((regular_literal (by decide)).label _).zero.andThen fun _ => .pure _

theorem regular_definition : (definition nested).Regular (levels + 1) 1 :=
  (regular_classDefinition regular).orElse <|
    (regular_lambda regular).orElse (regular_overloads regular)

theorem regular_suffix : (suffix nested).Regular (levels + 1) 1 :=
  Regular.orElse (((regular_literal (by decide)).zero.keepRight regular_simpleReference).map _)
    ((regular_parenthesizedList regular.expression).followed fun _ => .pure _)

theorem regular_suffixes (operand : Tree) : (suffixes nested operand).Regular (levels + 1) 0 :=
  (regular_suffix regular).many.andThen fun _ => .pure _

theorem regular_parenthesized : (parenthesized nested).Regular (levels + 1) 1 :=
  (regular_literal (by decide)).enter fun _ => regular_blanks.andThen fun _ =>
    regular.expression.zero.andThen fun _ => regular_blanks.andThen fun _ =>
      (regular_literal (by decide)).zero.andThen fun _ => .pure _

theorem regular_atom : (atom nested).Regular (levels + 1) 1 :=
  (regular_construct regular).orElse <| (regular_definition regular).orElse <|
    (regular_map regular).orElse <| (regular_list regular).orElse <|
      (regular_ledBySimple regular).orElse <|
        (regular_parenthesized regular).orElse regular_ledByReference

theorem regular_operand : (operand nested).Regular (levels + 1) 1 :=
  (regular_atom regular).followed fun _ => regular_suffixes regular _

theorem regular_operatorLink : (operatorLink nested).Regular (levels + 1) 1 :=
  regular_spaces.enter fun _ => regular_simpleReference.zero.andThen fun _ =>
    regular_spaces.zero.andThen fun _ => regular.operand.zero.andThen fun _ => .pure _

theorem regular_expression : (expression nested).Regular (levels + 1) 1 :=
  (regular_operand regular).followed fun _ => (regular_operatorLink regular).many.andThen fun _ => by
    split <;> exact .pure _

theorem regular_assignment : (assignment nested).Regular (levels + 1) 1 :=
  regular_reference.enter fun target => (regular_suffixes regular target).shallow.andThen fun _ =>
    regular_spaces.zero.andThen fun _ => (regular_literal (by decide)).zero.andThen fun _ =>
      regular_spaces.zero.andThen fun _ => regular.expression.zero.andThen fun _ => .pure _

theorem regular_statement : (statement nested).Regular (levels + 1) 1 :=
  regular_comment.orElse ((regular_assignment regular).orElse (regular_expression regular))

theorem regular_lines : (lines nested).Regular (levels + 1) 0 :=
  (regular_charWhere _ _).many.andThen fun _ =>
    ((regular_statement regular).keepLeft (regular_charWhere _ _).many).many

theorem regular_module : (module nested).Regular (levels + 1) 0 := by
  intro source cursor cursor₁ same inside deep
  have sequence : (lines nested >>= fun statements => endOfInput >>= fun _ =>
      pure (Tree.branch "module" (source.placeOf 0) statements)).Regular (levels + 1) 0 :=
    (regular_lines regular).andThen fun _ => regular_endOfInput.andThen fun _ => .pure _
  exact sequence source cursor cursor₁ same inside deep

/-- Every rule answers, stays inside the text and goes by the position alone. -/
theorem regular_over (rule : Rule) : (rule.over nested).Regular (levels + 1) rule.least := by
  cases rule with
  | character => exact regular_character
  | decimal => exact regular_decimal
  | integer => exact regular_integer
  | numeric => exact regular_numeric
  | regularExpression => exact regular_regularExpression regular
  | string => exact regular_string regular
  | keyValue => exact regular_keyValue regular
  | list => exact regular_list regular
  | map => exact regular_map regular
  | range => exact regular_range
  | reference => exact regular_reference
  | block => exact regular_block regular
  | statement => exact regular_statement regular
  | comment => exact regular_comment
  | assignment => exact regular_assignment regular
  | expression => exact regular_expression regular
  | operand => exact regular_operand regular
  | module => exact regular_module regular

end

/-- By induction on the levels. -/
theorem regular_within (levels : Nat) : (Nested.within levels).Regular levels := by
  induction levels with
  | zero =>
      exact ⟨.exhausted, .exhausted, .exhausted, .exhausted, fun _ _ => .exhausted⟩
  | succ levels ih =>
      exact ⟨regular_lines ih, regular_expression ih, regular_operand ih,
        regular_classDefinition ih, fun word nonempty => regular_conditional ih nonempty⟩

end RipInterpreter.Concrete
