import RipInterpreter.Proofs.Concrete.Derivations
import RipInterpreter.Proofs.Concrete.Layout
import RipInterpreter.Proofs.Concrete.Regular

namespace RipInterpreter.Concrete

open Parsing Parser
open Concrete.Tree (LiesIn LieIn)

variable {source : Source} {nested : Nested} {start least : Nat} {α β : Type}

/-- The values of the nested rules lie where they were read. -/
structure Nested.Lie (source : Source) (nested : Nested) : Prop where
  lines : ∀ {start}, nested.lines.YieldsFrom source start (LieIn source start)
  expression : ∀ {start}, nested.expression.YieldsFrom source start (LiesIn source start)
  operand : ∀ {start}, nested.operand.YieldsFrom source start (LiesIn source start)
  classDefinition : ∀ {start}, nested.classDefinition.YieldsFrom source start (LiesIn source start)
  conditional : ∀ word {start},
    (nested.conditional word).YieldsFrom source start (LiesIn source start)

theorem lies_keepLeft {parser : Parser Tree} {other : Parser α}
    (lies : parser.YieldsFrom source start (LiesIn source start))
    (regular : other.Regular (source.size + 1) least) :
    (keepLeft parser other).YieldsFrom source start (LiesIn source start) :=
  lies.keepLeft regular fun further tree => tree.higher further

theorem lies_keepRight {parser : Parser Tree} {other : Parser α}
    (regular : other.Regular (source.size + 1) least)
    (lies : ∀ {start}, parser.YieldsFrom source start (LiesIn source start)) :
    (keepRight other parser).YieldsFrom source start (LiesIn source start) :=
  .keepRight regular fun behind => lies.mono fun _ tree => tree.lower behind

/-- Blanks around a value belong to its stretch. -/
theorem between_blanks {inner : Parser α} {relation : Nat → Nat → α → Prop} {next : α → Parser β}
    {expected : Nat → β → Prop}
    (yields : ∀ {start}, inner.YieldsFrom source start (relation start))
    (widen : ∀ {low high less more value}, relation low high value → less ≤ low → high ≤ more →
      relation less more value)
    (later : ∀ {last value}, start ≤ last → relation start last value →
      (next value).YieldsFrom source last expected) :
    (blanks >>= fun _ => inner >>= fun value => blanks >>= fun _ => next value).YieldsFrom source
      start expected :=
  .after regular_blanks fun behind => yields.bind fun further met =>
    .after regular_blanks fun ended =>
      later (Nat.le_trans behind (Nat.le_trans further ended)) (widen met behind ended)

theorem lies_leaf {parser : Parser Span}
    (holds : parser.YieldsFrom source start (source.Holds start)) (label : String) :
    (Tree.leaf label <$> parser).YieldsFrom source start (LiesIn source start) :=
  .map (holds.mono fun _ held => .leaf (Nat.le_refl _) held (Nat.le_refl _))

/-- A captured leaf is as long as what its parser has read. -/
theorem lies_capture {parser : Parser α} {label : String}
    (regular : (Tree.leaf label <$> capture parser).Regular (source.size + 1) least) :
    (Tree.leaf label <$> capture parser).YieldsFrom source start (LiesIn source start) := by
  rintro cursor tree after rfl inside matched
  obtain ⟨taken, within⟩ := regular.bounds inside (by omega) matched
  have ordered : cursor.position ≤ after.position := Nat.le_of_add_right_le taken
  obtain ⟨span, _, captured, ⟨⟩⟩ := matched_bind matched
  cases matched_capture captured
  exact ⟨ordered, within, .leaf (Nat.le_refl _) ⟨ordered, within, rfl, rfl⟩ (Nat.le_refl _)⟩

theorem join_of_consecutive {low high : Nat} {spans : List Span}
    (consecutive : Consecutive source.Holds low high spans) :
    low ≤ high ∧ String.join (spans.map Span.text) = source.slice low high := by
  induction consecutive with
  | nil position => exact ⟨Nat.le_refl _, (Source.slice_self source position).symm⟩
  | @cons low middle high span spans first rest ih =>
      obtain ⟨ordered, joined⟩ := ih
      rw [List.map_cons, String.join_cons, joined, first.spelled]
      exact ⟨Nat.le_trans first.ordered ordered, Source.slice_append source first.ordered ordered⟩

theorem holds_simpleReference : simpleReference.YieldsFrom source start (source.Holds start) := by
  refine (YieldsFrom.charWhere _ _).bind fun _ first =>
    (YieldsFrom.many (YieldsFrom.charWhere _ _)).inside.bind fun _ ⟨inside, others⟩ => .pure ?_
  obtain ⟨ordered, joined⟩ := join_of_consecutive (.cons first others)
  exact ⟨ordered, inside, first.located, joined⟩

theorem lies_reference : reference.YieldsFrom source start (LiesIn source start) :=
  lies_leaf holds_simpleReference _

theorem holds_keyword (word : String) :
    (keyword word).YieldsFrom source start fun finish span =>
      ∃ last ≤ finish, source.Holds start last span :=
  ((YieldsFrom.literal word).mono fun _ held => ⟨_, Nat.le_refl _, held⟩).keepLeft
    ((regular_charWhere _ _).notFollowedBy _) fun further ⟨last, ended, held⟩ =>
      ⟨last, Nat.le_trans ended further, held⟩

theorem place_keyword (word : String) :
    (keyword word).YieldsFrom source start fun _ span => source.HasPlace span.location :=
  (holds_keyword word).mono fun _ ⟨_, _, held⟩ => held.hasPlace

theorem lies_decimal : decimal.YieldsFrom source start (LiesIn source start) :=
  lies_capture regular_decimal

theorem lies_integer : integer.YieldsFrom source start (LiesIn source start) :=
  lies_capture regular_integer

theorem lies_numeric : numeric.YieldsFrom source start (LiesIn source start) :=
  lies_decimal.orElse lies_integer

theorem lies_character : character.YieldsFrom source start (LiesIn source start) :=
  .map (.keepRight (regular_literal (by decide)) fun behind =>
    (YieldsFrom.charWhere _ _).mono fun _ held => .leaf behind held (Nat.le_refl _))

theorem lies_comment : comment.YieldsFrom source start (LiesIn source start) :=
  .after (regular_literal (by decide)) fun behind =>
    .after ((regular_literal (by decide)).notFollowedBy _) fun further =>
      (lies_capture (((regular_lineEnd.notFollowedBy _).keepRight
        (regular_charWhere _ _)).many.capture.map _)).mono fun _ text =>
          text.lower (Nat.le_trans behind further)

theorem lies_rawCharacter : rawCharacter.YieldsFrom source start (LiesIn source start) :=
  lies_leaf (YieldsFrom.charWhere _ _) _

theorem lies_escape : escape.YieldsFrom source start (LiesIn source start) :=
  lies_capture regular_escape

theorem lies_symbolString : symbolString.YieldsFrom source start (LiesIn source start) :=
  .after (regular_literal (by decide)) fun behind => YieldsFrom.here.bind fun further placed =>
    (YieldsFrom.manyOne (lies_leaf (YieldsFrom.charWhere _ _) _)).bind fun _ characters =>
      .pure (.branch placed
        ((LieIn.of_consecutive characters).lower (Nat.le_trans behind further)))

theorem lies_singleQuoted : singleQuoted.YieldsFrom source start (LiesIn source start) :=
  .after (regular_literal (by decide)) fun behind => YieldsFrom.here.bind fun further placed =>
    (YieldsFrom.many (lies_keepRight ((regular_literal (by decide)).notFollowedBy _)
      lies_rawCharacter)).bind fun _ characters =>
        .after ((regular_literal (by decide)).label _) fun last => .pure (.branch placed
          ((LieIn.of_consecutive characters).widen (Nat.le_trans behind further) last))

theorem skipText_inside {text : String} (bound : start + text.length ≤ source.size) :
    (skipText text).YieldsFrom source start fun _ _ => True := by
  rintro cursor value after rfl inside ⟨⟩
  exact ⟨Nat.le_add_right _ _, bound, trivial⟩

section

variable (lie : nested.Lie source)
include lie

theorem lies_interpolation :
    (interpolation nested).YieldsFrom source start (LiesIn source start) :=
  (YieldsFrom.literal _).bind fun behind opening => lie.lines.bind fun _ statements =>
    ((YieldsFrom.literal _).label _).bind fun _ closing =>
      have ending : LiesIn source _ _ (.leaf "interpolation_end" _) :=
        .leaf (Nat.le_refl _) closing (Nat.le_refl _)
      .pure (.branch opening.hasPlace ((statements.lower behind).append ending.single))

theorem lies_marked (kind : String) {mark : String} (nonempty : 1 ≤ mark.length) :
    (marked nested kind mark).YieldsFrom source start (LiesIn source start) := by
  have piece {start : Nat} : (firstOf (interpolation nested) [escape,
      keepRight (notFollowedBy (literal mark) mark) rawCharacter]).YieldsFrom source start
        (LiesIn source start) :=
    (lies_interpolation lie).orElse <| lies_escape.orElse <|
      lies_keepRight ((regular_literal nonempty).notFollowedBy mark) lies_rawCharacter
  exact .after (regular_literal nonempty) fun behind => YieldsFrom.here.bind fun further placed =>
    (YieldsFrom.many piece).bind fun _ parts =>
      .after ((regular_literal nonempty).label _) fun last => .pure (.branch placed
        ((LieIn.of_consecutive parts).widen (Nat.le_trans behind further) last))

/-- The label that ends the content is a part of the text. -/
theorem lies_hereDocument :
    (hereDocument nested).YieldsFrom source start (LiesIn source start) := by
  refine .after (regular_literal (by decide)) fun behind =>
    .after (regular_charWhere _ _).manyOne.capture fun further =>
      .after regular_lineEnd fun ended => YieldsFrom.here.bind fun same placed =>
        (YieldsFrom.manyUntil ((lies_interpolation lie).orElse
          (lies_rawCharacter.label _))).inside.bind fun _ ⟨inside, parts, stopped⟩ => ?_
  have bound := continuesWith_bound stopped inside
  rw [String.length_toList] at bound
  exact (skipText_inside bound).bind fun last _ => .pure (.branch placed
    ((LieIn.of_consecutive parts).widen (by omega) last))

theorem lies_string : (string nested).YieldsFrom source start (LiesIn source start) :=
  lies_symbolString.orElse <| lies_singleQuoted.orElse <|
    (lies_marked lie "string" (by decide)).orElse (lies_hereDocument lie)

theorem lies_regularExpression :
    (regularExpression nested).YieldsFrom source start (LiesIn source start) :=
  lies_marked lie "regular_expression" (by decide)

theorem lies_block : (block nested).YieldsFrom source start (LiesIn source start) :=
  (YieldsFrom.literal _).bind fun behind opening => lie.lines.bind fun _ statements =>
    .after ((regular_literal (by decide)).label _) fun last =>
      .pure (.branch opening.hasPlace (statements.widen behind last))

theorem lies_simpleValue : (simpleValue nested).YieldsFrom source start (LiesIn source start) :=
  lies_numeric.orElse <| lies_character.orElse <|
    (lies_string lie).orElse (lies_regularExpression lie)

end

theorem lie_listOf {item : Parser Tree}
    (lies : ∀ {start}, item.YieldsFrom source start (LiesIn source start)) :
    (listOf item).YieldsFrom source start (LieIn source start) := by
  refine (YieldsFrom.separated ((regular_blanks.keepRight (regular_literal
    (by decide))).keepLeft regular_blanks) lies fun behind tree =>
      tree.lower behind).mono fun ordered found => ?_
  rcases found with rfl | consecutive
  · exact .nil ordered
  · exact .of_consecutive consecutive

theorem lie_parenthesizedList {item : Parser Tree}
    (lies : ∀ {start}, item.YieldsFrom source start (LiesIn source start)) :
    (parenthesizedList item).YieldsFrom source start fun finish found =>
      source.HasPlace found.1.location ∧ LieIn source start finish found.2 :=
  (YieldsFrom.literal _).bind fun behind opening =>
    between_blanks (lie_listOf lies) LieIn.widen fun _ items =>
      .after ((regular_literal (by decide)).label _) fun last =>
        .pure ⟨opening.hasPlace, items.widen behind last⟩

theorem lies_rangeable : rangeable.YieldsFrom source start (LiesIn source start) :=
  lies_integer.orElse (lies_character.orElse lies_reference)

theorem lies_rangeRest {low : Nat} {first : Tree} (lies : LiesIn source low start first) :
    (rangeRest first).YieldsFrom source start fun finish found =>
      ∀ range ∈ found, LiesIn source low finish range := by
  have ended : (do
      let _ ← literal ".."
      let exclusive ← optional (literal ".")
      let last ← rangeable
      return (exclusive.isSome, last) : Parser (Bool × Tree)).YieldsFrom source start
        fun finish found => LiesIn source start finish found.2 :=
    .after (regular_literal (by decide)) fun behind =>
      .after (regular_literal (by decide)).optional fun further =>
        lies_rangeable.bind fun _ last => .pure (last.lower (Nat.le_trans behind further))
  refine ended.optional.bind fun _ met => .pure fun range listed => ?_
  obtain ⟨⟨exclusive, last⟩, same, rfl⟩ := Option.map_eq_some_iff.mp listed
  exact .branch lies.hasPlace (lies.pair (met _ same))

/-- A range, or its start alone. -/
theorem lies_rangeOr {low : Nat} {first : Tree} (lies : LiesIn source low start first) :
    (do return (← rangeRest first).getD first : Parser Tree).YieldsFrom source start
      (LiesIn source low) := by
  refine (lies_rangeRest lies).bind fun {_ found} further met => .pure ?_
  cases found with
  | none => exact lies.higher further
  | some range => exact met range rfl

theorem lies_range : range.YieldsFrom source start (LiesIn source start) :=
  lies_rangeable.bind fun _ first => (lies_rangeRest first).bind fun {_ found} _ met => by
    cases found with
    | some range => exact .pure (met range rfl)
    | none => exact .failFurthest _

theorem lies_ledByReference : ledByReference.YieldsFrom source start (LiesIn source start) :=
  lies_reference.bind fun _ first => lies_rangeOr first

section

variable (lie : nested.Lie source)
include lie

theorem lies_pairRest {low : Nat} {key : Tree} (lies : LiesIn source low start key) :
    (pairRest nested key).YieldsFrom source start fun finish found =>
      ∀ pair ∈ found, LiesIn source low finish pair := by
  have value : (do
      let _ ← optional spaces
      let _ ← literal ":"
      let _ ← optional spaces
      nested.operand).YieldsFrom source start (LiesIn source start) :=
    .after regular_spaces.optional fun behind => .after (regular_literal (by decide))
      fun further => .after regular_spaces.optional fun ended =>
        lie.operand.mono fun _ content => content.lower (by omega)
  refine value.optional.bind fun _ met => .pure fun pair listed => ?_
  obtain ⟨content, same, rfl⟩ := Option.map_eq_some_iff.mp listed
  exact .branch lies.hasPlace (lies.pair (met content same))

theorem lies_keyValue : (keyValue nested).YieldsFrom source start (LiesIn source start) :=
  (lies_simpleValue lie).bind fun _ key => (lies_pairRest lie key).bind
    fun {_ found} _ met => by
      cases found with
      | some pair => exact .pure (met pair rfl)
      | none => exact .failFurthest _

theorem lies_ledBySimple : (ledBySimple nested).YieldsFrom source start (LiesIn source start) :=
  (lies_simpleValue lie).bind fun _ first => (lies_pairRest lie first).bind
    fun {_ found} further met => by
      cases found with
      | some pair => exact .pure (met pair rfl)
      | none =>
          change (ite _ _ _ : Parser Tree).YieldsFrom _ _ _
          split
          · exact lies_rangeOr (first.higher further)
          · exact .pure (first.higher further)

theorem lies_map : (map nested).YieldsFrom source start (LiesIn source start) :=
  (YieldsFrom.literal _).bind fun behind opening =>
    between_blanks (lie_listOf (lies_keyValue lie)) LieIn.widen fun _ pairs =>
      .after (regular_literal (by decide)) fun last =>
        .pure (.branch opening.hasPlace (pairs.widen behind last))

theorem lies_list : (list nested).YieldsFrom source start (LiesIn source start) :=
  (YieldsFrom.literal _).bind fun behind opening =>
    between_blanks (lie_listOf lie.expression) LieIn.widen fun _ items =>
      .after ((regular_literal (by decide)).label _) fun last =>
        .pure (.branch opening.hasPlace (items.widen behind last))

theorem lies_condition : (condition nested).YieldsFrom source start (LiesIn source start) :=
  .after (regular_literal (by decide)) fun behind =>
    between_blanks lie.expression LiesIn.widen fun _ inner =>
      .after ((regular_literal (by decide)).label _) fun last => .pure (inner.widen behind last)

theorem lies_elseBranch : (elseBranch nested).YieldsFrom source start (LiesIn source start) := by
  have body {start : Nat} : (firstOf (block nested) [nested.conditional "if",
      nested.conditional "unless"]).YieldsFrom source start (LiesIn source start) :=
    (lies_block lie).orElse ((lie.conditional "if").orElse (lie.conditional "unless"))
  exact .after regular_blanks fun behind => (place_keyword _).bind fun further placed =>
    .after regular_blanks fun ended => body.bind fun _ body =>
      .pure (.branch placed (body.lower (by omega)).single)

theorem lies_conditional (word : String) :
    (conditional nested word).YieldsFrom source start (LiesIn source start) :=
  (place_keyword word).bind fun behind placed => .after regular_blanks fun further =>
    (lies_condition lie).bind fun _ condition => .after regular_blanks fun ended =>
      (lies_block lie).bind fun _ body => (lies_elseBranch lie).optional.bind
        fun last otherwise => .pure (.branch placed
          (.cons (condition.widen (Nat.le_trans behind further) ended)
            (.cons body (.optional last otherwise))))

theorem lies_wordAndBlock (word : String) :
    (wordAndBlock nested word).YieldsFrom source start (LiesIn source start) :=
  (place_keyword word).bind fun behind placed => .after regular_blanks fun further =>
    (lies_block lie).bind fun _ body =>
      .pure (.branch placed (body.lower (Nat.le_trans behind further)).single)

theorem lies_case : (case nested).YieldsFrom source start (LiesIn source start) :=
  (place_keyword _).bind fun behind placed => .after regular_blanks fun further =>
    (lie_parenthesizedList lie.expression).bind fun _ ⟨opening, matchers⟩ =>
      .after regular_blanks fun ended => (lies_block lie).bind fun _ body => .pure (.branch placed
        ((LiesIn.branch opening (matchers.widen (Nat.le_trans behind further) ended)).pair body))

theorem lies_switch : (switch nested).YieldsFrom source start (LiesIn source start) := by
  refine (place_keyword _).bind fun behind placed => .after regular_blanks fun further =>
    (lies_condition lie).bind fun _ subject => .after regular_blanks fun opened =>
      .after (regular_literal (by decide)) fun entered => .after regular_blanks fun reached =>
        (YieldsFrom.many (lies_keepLeft (lies_case lie) regular_blanks)).bind fun _ cases =>
          (lies_keepLeft (lies_wordAndBlock lie "else") regular_blanks).optional.bind
            fun more otherwise => .after ((regular_literal (by decide)).label _) fun last =>
              .pure (.branch placed ?_)
  have branch : LieIn source _ _ (Option.toList _) := .optional more otherwise
  exact .cons (subject.widen (by omega) (by omega))
    ((LieIn.of_consecutive cases).append (branch.higher last))

theorem lies_catchBranch : (catchBranch nested).YieldsFrom source start (LiesIn source start) := by
  refine (place_keyword _).bind fun behind placed => .after regular_blanks fun further =>
    .after (regular_literal (by decide)) fun opened => .after regular_blanks fun entered =>
      lies_reference.bind fun _ name =>
        (lies_keepRight regular_spaces lies_reference).optional.bind fun more binding =>
          .after regular_blanks fun ended =>
            .after ((regular_literal (by decide)).label _) fun closed =>
              .after regular_blanks fun reached => (lies_block lie).bind fun _ body =>
                .pure (.branch placed ?_)
  have names : LieIn source start _ (_ :: Option.toList _) :=
    .cons (name.lower (by omega)) (.optional more binding)
  exact names.append (body.lower (by omega)).single

theorem lies_tryBlock : (tryBlock nested).YieldsFrom source start (LiesIn source start) := by
  refine (place_keyword _).bind fun behind placed => .after regular_blanks fun further =>
    (lies_block lie).bind fun _ body =>
      (YieldsFrom.many (lies_keepRight regular_blanks (lies_catchBranch lie))).bind
        fun _ handlers => (lies_keepRight regular_blanks
          (lies_wordAndBlock lie "finally")).optional.bind fun more cleanup => ?_
  split
  · exact .after (regular_failureHere _) fun _ => .refuse _
  · exact .pure (.branch placed (.cons (body.lower (Nat.le_trans behind further))
      ((LieIn.of_consecutive handlers).append (.optional more cleanup))))

theorem lies_throwing : (throwing nested).YieldsFrom source start (LiesIn source start) :=
  (place_keyword _).bind fun behind placed => .after regular_spaces fun further =>
    lie.expression.bind fun _ payload =>
      .pure (.branch placed (payload.lower (Nat.le_trans behind further)).single)

theorem lies_leaving (word : String) :
    (leaving nested word).YieldsFrom source start (LiesIn source start) :=
  (place_keyword word).bind fun behind placed =>
    (lies_keepRight regular_spaces lie.expression).optional.bind fun further payload =>
      .pure (.branch placed ((LieIn.optional further payload).lower behind))

theorem lies_construct : (construct nested).YieldsFrom source start (LiesIn source start) :=
  (lies_conditional lie "if").orElse <| (lies_conditional lie "unless").orElse <|
    (lies_switch lie).orElse <| (lies_tryBlock lie).orElse <| (lies_throwing lie).orElse <|
      (lies_leaving lie "return").orElse (lies_leaving lie "exit")

end

/-- A missing list stands at a place of the text, too. -/
theorem lies_optionalList (label : String) {item : Parser Tree} {place : Location}
    (lies : ∀ {start}, item.YieldsFrom source start (LiesIn source start))
    (placed : source.HasPlace place) :
    (optionalList label item place).YieldsFrom source start (LiesIn source start) :=
  (lie_parenthesizedList lies).optional.bind fun {_ found} ordered met => by
    cases found with
    | none => exact .pure (.branch placed (.nil ordered))
    | some found =>
        obtain ⟨opening, items⟩ := met found rfl
        exact .pure (.branch opening items)

section

variable (lie : nested.Lie source)
include lie

theorem lies_classDefinition :
    (classDefinition nested).YieldsFrom source start (LiesIn source start) :=
  (place_keyword _).bind fun behind placed => .after regular_blanks fun further =>
    (lies_optionalList _ (lie.classDefinition.orElse lies_reference) placed).bind
      fun _ ancestors => .after regular_blanks fun ended => (lies_block lie).bind fun _ body =>
        .pure (.branch placed
          ((ancestors.widen (Nat.le_trans behind further) ended).pair body))

theorem lies_parameter : (parameter nested).YieldsFrom source start (LiesIn source start) :=
  lies_numeric.orElse <| lies_character.orElse <| (lies_string lie).orElse lies_reference

theorem lies_lambda : (lambda nested).YieldsFrom source start (LiesIn source start) := by
  have word : (firstOf (keyword "->") [keyword "lambda", keyword "λ"]).YieldsFrom source start
      fun finish span => ∃ last ≤ finish, source.Holds start last span :=
    (holds_keyword _).orElse ((holds_keyword _).orElse (holds_keyword _))
  exact word.bind fun behind ⟨last, read, held⟩ => .after regular_blanks fun further =>
    (lies_optionalList _ (lies_parameter lie) held.hasPlace).bind fun _ parameters =>
      .after regular_blanks fun ended => (lies_block lie).bind fun _ body =>
        .pure (.branch held.hasPlace
          (.cons (.leaf (Nat.le_refl _) held (Nat.le_trans read further))
            ((parameters.higher ended).pair body)))

theorem lies_overloads : (overloads nested).YieldsFrom source start (LiesIn source start) := by
  refine (place_keyword _).bind fun behind placed => .after regular_blanks fun further =>
    .after (regular_literal (by decide)) fun opened =>
      between_blanks ((lies_lambda lie).label _) LiesIn.widen fun entered first =>
        (YieldsFrom.many (lies_keepLeft (lies_lambda lie) regular_blanks)).bind fun _ rest =>
          .after ((regular_literal (by decide)).label _) fun last => .pure (.branch placed ?_)
  exact .cons (first.lower (by omega)) ((LieIn.of_consecutive rest).higher last)

theorem lies_definition : (definition nested).YieldsFrom source start (LiesIn source start) :=
  (lies_classDefinition lie).orElse ((lies_lambda lie).orElse (lies_overloads lie))

end

/-- A suffix goes on from an operand that ends where the suffix starts. -/
def Suffix.Lies (source : Source) (low high : Nat) (suffix : Suffix) : Prop :=
  ∀ start operand, LiesIn source start low operand →
    LiesIn source start high (suffix.attach operand)

theorem lies_attached {low middle high : Nat} {operand : Tree} {suffixes : List Suffix}
    (lies : LiesIn source low middle operand)
    (attached : Consecutive (Suffix.Lies source) middle high suffixes) :
    LiesIn source low high (suffixes.foldl Suffix.attach operand) := by
  induction attached generalizing operand with
  | nil => exact lies
  | cons first rest ih => exact ih (first low operand lies)

theorem lie_flatten {low high : Nat} {links : List (List Tree)}
    (linked : Consecutive (LieIn source) low high links) :
    LieIn source low high links.flatten := by
  induction linked with
  | nil position => exact .nil (Nat.le_refl position)
  | cons first rest ih => exact first.append ih

section

variable (lie : nested.Lie source)
include lie

theorem lies_suffix : (suffix nested).YieldsFrom source start (Suffix.Lies source start) := by
  have property : (Suffix.property <$> keepRight (literal ".") simpleReference).YieldsFrom source
      start (Suffix.Lies source start) :=
    .map (.keepRight (regular_literal (by decide)) fun behind =>
      holds_simpleReference.mono fun _ held _ operand lies =>
        have name : LiesIn source start _ (.leaf "name" _) := .leaf behind held (Nat.le_refl _)
        .branch held.hasPlace (lies.pair name))
  exact property.orElse <| (lie_parenthesizedList lie.expression).bind
    fun _ ⟨opening, arguments⟩ => .pure fun _ operand lies =>
      .branch opening (lies.pair (.branch opening arguments))

theorem lies_suffixes {low : Nat} {operand : Tree} (lies : LiesIn source low start operand) :
    (suffixes nested operand).YieldsFrom source start (LiesIn source low) :=
  (YieldsFrom.many (lies_suffix lie)).bind fun _ attached => .pure (lies_attached lies attached)

theorem lies_parenthesized : (parenthesized nested).YieldsFrom source start (LiesIn source start) :=
  .after (regular_literal (by decide)) fun behind =>
    between_blanks lie.expression LiesIn.widen fun _ inner =>
      .after (regular_literal (by decide)) fun last => .pure (inner.widen behind last)

theorem lies_atom : (atom nested).YieldsFrom source start (LiesIn source start) :=
  (lies_construct lie).orElse <| (lies_definition lie).orElse <| (lies_map lie).orElse <|
    (lies_list lie).orElse <| (lies_ledBySimple lie).orElse <|
      (lies_parenthesized lie).orElse lies_ledByReference

theorem lies_operand : (operand nested).YieldsFrom source start (LiesIn source start) :=
  (lies_atom lie).bind fun _ first => lies_suffixes lie first

theorem lie_operatorLink : (operatorLink nested).YieldsFrom source start (LieIn source start) :=
  .after regular_spaces fun behind => holds_simpleReference.bind fun _ held =>
    .after regular_spaces fun ended => lie.operand.bind fun _ operand =>
      have operator : LiesIn source start _ (.leaf "operator" _) := .leaf behind held ended
      .pure (operator.pair operand)

theorem lies_expression : (expression nested).YieldsFrom source start (LiesIn source start) :=
  (lies_operand lie).bind fun _ first => (YieldsFrom.many (lie_operatorLink lie)).bind
    fun further linked => by
      split
      · exact .pure (first.higher further)
      · exact .pure (.branch first.hasPlace (.cons first (lie_flatten linked)))

theorem lies_assignment : (assignment nested).YieldsFrom source start (LiesIn source start) :=
  lies_reference.bind fun _ name => (lies_suffixes lie name).bind fun _ target =>
    .after regular_spaces fun further => (YieldsFrom.literal _).bind fun opened held =>
      .after regular_spaces fun ended => lie.expression.bind fun _ value =>
        .pure (.branch held.hasPlace ((target.higher (by omega)).pair value))

theorem lies_statement : (statement nested).YieldsFrom source start (LiesIn source start) :=
  lies_comment.orElse ((lies_assignment lie).orElse (lies_expression lie))

theorem lie_lines : (lines nested).YieldsFrom source start (LieIn source start) :=
  .after (regular_charWhere _ _).many fun behind =>
    (YieldsFrom.many (lies_keepLeft (lies_statement lie) (regular_charWhere _ _).many)).mono
      fun _ statements => (LieIn.of_consecutive statements).lower behind

theorem lies_module : (module nested).YieldsFrom source start (LiesIn source start) := by
  have sequence : (lines nested >>= fun statements => endOfInput >>= fun _ =>
      pure (Tree.branch "module" (source.placeOf 0) statements)).YieldsFrom source start
        (LiesIn source start) :=
    (lie_lines lie).bind fun _ statements => .after regular_endOfInput fun further =>
      .pure (.branch ⟨0, Nat.zero_le _, rfl⟩ (statements.higher further))
  exact fun cursor tree after same inside matched =>
    sequence cursor tree after same inside matched

theorem lies_over (rule : Rule) :
    (rule.over nested).YieldsFrom source start (LiesIn source start) := by
  cases rule with
  | character => exact lies_character
  | decimal => exact lies_decimal
  | integer => exact lies_integer
  | numeric => exact lies_numeric
  | regularExpression => exact lies_regularExpression lie
  | string => exact lies_string lie
  | keyValue => exact lies_keyValue lie
  | list => exact lies_list lie
  | map => exact lies_map lie
  | range => exact lies_range
  | reference => exact lies_reference
  | block => exact lies_block lie
  | statement => exact lies_statement lie
  | comment => exact lies_comment
  | assignment => exact lies_assignment lie
  | expression => exact lies_expression lie
  | operand => exact lies_operand lie
  | module => exact lies_module lie

end

/-- By induction on the levels. -/
theorem lie_within (levels : Nat) : (Nested.within levels).Lie source := by
  induction levels with
  | zero => exact ⟨by nofun, by nofun, by nofun, by nofun, by nofun⟩
  | succ levels ih =>
      exact ⟨lie_lines ih, lies_expression ih, lies_operand ih, lies_classDefinition ih,
        fun word => lies_conditional ih word⟩

/-- Whatever a rule makes of a text follows it, wherever the rule starts. -/
theorem follows_of_matched {rule : Rule} {origin text : String} {cursor after : Cursor}
    {tree : Tree} (inside : cursor.position ≤ text.length)
    (matched : rule.parser (.ofText origin text) cursor = .matched tree after) :
    tree.Follows origin text := by
  rw [← Source.size_ofText origin text] at inside
  obtain ⟨-, within, lies⟩ :=
    lies_over (lie_within _) rule cursor tree after rfl inside matched
  exact lies.follows within

/-- The tree of every text that parses follows the text. -/
theorem trees_follow_texts {origin text : String} {tree : Tree}
    (parsed : Tree.ofText origin text = .ok tree) : tree.Follows origin text := by
  obtain ⟨after, matched⟩ := ofText_eq_ok.mp parsed
  exact follows_of_matched (Nat.zero_le _) matched

/-- A text with a line end and with characters that take more than one byte. -/
theorem trees_follow_texts_of_lines :
    ∃ tree, Tree.ofText "sample" "é = ['ü',\n  f(1)]" = .ok tree ∧
      tree.Follows "sample" "é = ['ü',\n  f(1)]" ∧
      tree.leaves.map (fun leaf => (leaf.text, leaf.location.line, leaf.location.column)) =
        [("é", 1, 0), ("ü", 1, 6), ("f", 2, 2), ("1", 2, 4)] := by
  have checked : ((Tree.ofText "sample" "é = ['ü',\n  f(1)]").toOption.any fun tree =>
      tree.leaves.map (fun leaf => (leaf.text, leaf.location.line, leaf.location.column)) =
        [("é", 1, 0), ("ü", 1, 6), ("f", 2, 2), ("1", 2, 4)]) = true := by decide +kernel
  cases parsed : Tree.ofText "sample" "é = ['ü',\n  f(1)]" with
  | error error =>
      rw [parsed] at checked
      cases checked
  | ok tree =>
      rw [parsed] at checked
      exact ⟨tree, rfl, trees_follow_texts parsed, of_decide_eq_true checked⟩

end RipInterpreter.Concrete
