import RipInterpreter.Proofs.Concrete.Productions
import RipInterpreter.Proofs.Parsing.Yields

namespace RipInterpreter

namespace Parsing.Parser

theorem Yields.widen {parser : Parser Concrete.Tree} {labels more : List String}
    (yields : parser.Yields (Concrete.Tree.Among labels)) (wider : ∀ label ∈ labels, label ∈ more) :
    parser.Yields (Concrete.Tree.Among more) := yields.mono fun _ among => among.mono wider

end Parsing.Parser

namespace Concrete

open Parsing Parser

open RipInterpreter.Concrete.Tree

variable {nested : Nested} {label word : String}

/-- What may be nested is derived, too. -/
structure Nested.Derived (nested : Nested) : Prop where
  lines : nested.lines.Yields (AllAmong statementLabels)
  expression : nested.expression.Yields (Among valueLabels)
  operand : nested.operand.Yields (Among valueLabels)
  classDefinition : nested.classDefinition.Yields (Among ["class"])
  conditional : ∀ word ∈ ["if", "unless"], (nested.conditional word).Yields (Among ["if", "unless"])

theorem yields_word {parser : Parser Span} (known : label ∈ wordLabels) :
    (Tree.leaf label <$> parser).Yields (Among [label]) :=
  .map <| (Yields.any parser).mono fun _ _ =>
    among_leaf (.word known _) (List.mem_singleton_self label)

theorem yields_characterWhere {parser : Parser Span}
    (single : parser.Yields fun span => ∃ c, span.text = .singleton c) :
    (Tree.leaf "character" <$> parser).Yields (Among ["character"]) :=
  .map <| single.mono fun _ ⟨c, spelled⟩ =>
    among_leaf (spelled ▸ .character c) (List.mem_singleton_self _)

theorem yields_charWhere (accepts : Char → Bool) (expected : String) :
    (charWhere accepts expected).Yields fun span => ∃ c, span.text = .singleton c := by
  intro source cursor span after matched
  unfold charWhere at matched
  split at matched
  · split at matched
    · cases matched
      exact ⟨_, rfl⟩
    · cases matched
  · cases matched

theorem yields_reference : reference.Yields (Among ["reference"]) := yields_word (by decide)

theorem yields_integer : integer.Yields (Among ["integer"]) := yields_word (by decide)

theorem yields_decimal : decimal.Yields (Among ["decimal"]) := yields_word (by decide)

theorem yields_numeric : numeric.Yields (Among numberLabels) :=
  (yields_decimal.widen (by decide)).orElse (yields_integer.widen (by decide))

theorem yields_character : character.Yields (Among ["character"]) :=
  yields_characterWhere (.keepRight _ (yields_charWhere _ _))

theorem yields_rawCharacter : rawCharacter.Yields (Among ["character"]) :=
  yields_characterWhere (yields_charWhere _ _)

theorem yields_comment : comment.Yields (Among ["comment"]) :=
  .after fun _ => .after fun _ => yields_word (by decide)

theorem slice_two {source : Source} {index : Nat} {a b : Char}
    (first : source.chars[index]? = some a) (second : source.chars[index + 1]? = some b) :
    source.slice index (index + 2) = .ofList [a, b] := by
  obtain ⟨bound, rfl⟩ := Array.getElem?_eq_some_iff.mp first
  obtain ⟨bound₁, rfl⟩ := Array.getElem?_eq_some_iff.mp second
  unfold Source.slice
  rw [Array.toList_extract, List.extract_eq_take_drop, List.drop_eq_getElem_cons bound,
    List.drop_eq_getElem_cons bound₁, Nat.add_sub_cancel_left]
  rfl

/-- An escape spells the backslash and one character. -/
theorem yields_escape : escape.Yields (Among ["escape"]) := by
  refine .map fun source cursor span after matched => ?_
  unfold capture at matched
  split at matched
  · rename_i ended captured
    cases matched
    obtain ⟨backslash, between, first, second⟩ := matched_bind captured
    have spelled : "\\".toList = ['\\'] := rfl
    obtain ⟨stands, moved⟩ := matched_literal first spelled
    have moved : between.position = cursor.position + 1 := moved
    obtain ⟨reached, c, stands₁, -⟩ := matched_charWhere second
    have two : source.slice cursor.position after.position = .ofList ['\\', c] := by
      rw [reached, moved]
      exact slice_two stands (moved ▸ stands₁)
    rw [two]
    exact among_leaf (.escape c) (List.mem_singleton_self _)
  · cases matched
  · cases matched

theorem yields_textBranch {pieces : List Tree} {place : Location} (kind : label ∈ textLabels)
    (inside : AllAmong pieceLabels pieces) {start : Parser Span} :
    (start >>= fun _ => pure (.branch label place pieces) : Parser Tree).Yields (Among [label]) :=
  have other : label ≠ "switch" := by
    rintro rfl
    exact absurd kind (by decide)
  .after fun _ =>
    .pure (among_own other (.text kind inside.labelled) inside.derived)

theorem among_piece {tree : Tree} (among : tree.Among ["character"]) : tree.Among pieceLabels :=
  among.mono (by decide)

theorem yields_symbolString : symbolString.Yields (Among ["string"]) :=
  .after fun _ => .after fun _ =>
    (yields_characterWhere (yields_charWhere _ _)).manyOne.bind fun _ characters => .pure
      (among_branch (by decide) (by decide)
        (.text (by decide) (AllAmong.labelled fun tree listed => among_piece (characters tree listed)))
        (AllAmong.derived characters))

theorem yields_singleQuoted : singleQuoted.Yields (Among ["string"]) :=
  .after fun _ => .after fun _ =>
    (Yields.keepRight _ yields_rawCharacter).many.bind fun _ characters =>
      yields_textBranch (by decide) fun tree listed => among_piece (characters tree listed)

section

variable (derived : nested.Derived)
include derived

theorem yields_interpolation : (interpolation nested).Yields (Among ["interpolation"]) := by
  refine .after fun _ => derived.lines.bind fun statements inside => .after fun closing => .pure ?_
  have ending : (Tree.leaf "interpolation_end" closing).Derived := .leaf (.word (by decide) _)
  refine among_own (by decide) ?_ (List.forall_mem_append.mpr
    ⟨inside.derived, List.forall_mem_singleton.mpr ending⟩)
  rw [List.map_append]
  exact .interpolation inside.labelled

theorem yields_marked {kind mark : String} (known : kind ∈ textLabels) :
    (marked nested kind mark).Yields (Among [kind]) := by
  have piece : (firstOf (interpolation nested) [escape,
      keepRight (notFollowedBy (literal mark) mark) rawCharacter]).Yields (Among pieceLabels) :=
    ((yields_interpolation derived).widen (by decide)).orElse <|
      (yields_escape.widen (by decide)).orElse <|
        (Yields.keepRight _ yields_rawCharacter).mono fun _ => among_piece
  exact .after fun _ => .after fun _ => piece.many.bind fun _ inside =>
    yields_textBranch known inside

theorem yields_hereDocument : (hereDocument nested).Yields (Among ["string"]) := by
  have piece : ((interpolation nested).orElse (Parser.label "here-doc terminator"
      rawCharacter)).Yields (Among pieceLabels) :=
    ((yields_interpolation derived).widen (by decide)).orElse
      ((yields_rawCharacter.label _).mono fun _ => among_piece)
  exact .after fun _ => .after fun _ => .after fun _ => .after fun _ =>
    (piece.manyUntil _).bind fun _ inside => .after fun _ => .pure
      (among_branch (by decide) (by decide) (.text (by decide) (AllAmong.labelled inside))
        (AllAmong.derived inside))

theorem yields_string : (string nested).Yields (Among ["string"]) :=
  yields_symbolString.orElse <| yields_singleQuoted.orElse <|
    (yields_marked derived (by decide)).orElse (yields_hereDocument derived)

theorem yields_regularExpression :
    (regularExpression nested).Yields (Among ["regular_expression"]) :=
  yields_marked derived (by decide)

theorem yields_simpleValue : (simpleValue nested).Yields (Among simpleLabels) :=
  (yields_numeric.widen (by decide)).orElse <|
    (yields_character.widen (by decide)).orElse <|
      ((yields_string derived).widen (by decide)).orElse <|
        (yields_regularExpression derived).widen (by decide)

theorem yields_block : (block nested).Yields (Among ["block"]) :=
  .after fun _ => derived.lines.bind fun _ inside => .after fun _ => .pure
    (among_own (by decide) (.statements (by decide) inside.labelled) inside.derived)

end

theorem yields_listOf {labels : List String} {item : Parser Tree}
    (yields : item.Yields (Among labels)) : (listOf item).Yields (AllAmong labels) := yields.separated

theorem yields_parenthesizedList {labels : List String} {item : Parser Tree}
    (yields : item.Yields (Among labels)) :
    (parenthesizedList item).Yields fun found => AllAmong labels found.2 :=
  .after fun _ => .after fun _ => (yields_listOf yields).bind fun _ inside =>
    .after fun _ => .after fun _ => .pure inside

theorem yields_rangeable : rangeable.Yields (Among rangeableLabels) :=
  (yields_integer.widen (by decide)).orElse <|
    (yields_character.widen (by decide)).orElse <|
      yields_reference.widen (by decide)

theorem yields_rangeRest {start : Tree} (first : start.Among rangeableLabels) :
    (rangeRest start).Yields fun found => ∀ range ∈ found,
      range.Among ["range", "exclusive_range"] := by
  have ended : (do
      let _ ← literal ".."
      let exclusive ← optional (literal ".")
      let last ← rangeable
      return (exclusive.isSome, last) : Parser (Bool × Tree)).Yields
        fun found => found.2.Among rangeableLabels :=
    .after fun _ => .after fun _ => yields_rangeable.bind fun _ among => .pure among
  refine ended.optional.bind fun found met => .pure ?_
  intro range listed
  obtain ⟨⟨exclusive, last⟩, same, rfl⟩ := Option.map_eq_some_iff.mp listed
  have second : last.Among rangeableLabels := met _ same
  have kind : (if exclusive = true then "exclusive_range" else "range") ∈
      ["range", "exclusive_range"] := by
    cases exclusive <;> decide
  exact among_branch (by cases exclusive <;> decide) kind (.range kind first.2 second.2)
    (derived_pair first.1 second.1)

theorem yields_range : range.Yields (Among ["range", "exclusive_range"]) :=
  yields_rangeable.bind fun _ first => (yields_rangeRest first).bind fun found met => by
    cases found with
    | some range => exact .pure (met range rfl)
    | none => exact .failFurthest _

theorem yields_ledByReference : ledByReference.Yields (Among valueLabels) := by
  refine yields_reference.bind fun start first => ?_
  refine (yields_rangeRest (first.mono (by decide))).bind fun found met => .pure ?_
  cases found with
  | some range => exact (met range rfl).mono (by decide)
  | none => exact first.mono (by decide)

section

variable (derived : nested.Derived)
include derived

theorem yields_pairRest {key : Tree} (first : key.Among simpleLabels) :
    (pairRest nested key).Yields fun found => ∀ pair ∈ found, pair.Among ["key_value"] := by
  have value : (do
      let _ ← optional spaces
      let _ ← literal ":"
      let _ ← optional spaces
      nested.operand : Parser Tree).Yields (Among valueLabels) :=
    .after fun _ => .after fun _ => .after fun _ => derived.operand
  refine value.optional.bind fun found met => .pure ?_
  intro pair listed
  obtain ⟨value, same, rfl⟩ := Option.map_eq_some_iff.mp listed
  have second : value.Among valueLabels := met _ same
  exact among_branch (by decide) (by decide) (.keyValue first.2 second.2)
    (derived_pair first.1 second.1)

theorem yields_keyValue : (keyValue nested).Yields (Among ["key_value"]) :=
  (yields_simpleValue derived).bind fun _ first =>
    (yields_pairRest derived first).bind fun found met => by
      cases found with
      | some pair => exact .pure (met pair rfl)
      | none => exact .failFurthest _

theorem yields_ledBySimple : (ledBySimple nested).Yields (Among valueLabels) := by
  refine (yields_simpleValue derived).bind fun first simple => ?_
  have alone : first.Among valueLabels := simple.mono (by decide)
  refine (yields_pairRest derived simple).bind fun found met => ?_
  cases found with
  | some pair => exact .pure ((met pair rfl).mono (by decide))
  | none =>
      change Yields _ (ite _ _ _)
      split
      · rename_i rangeable
        have start : first.Among rangeableLabels := by
          refine ⟨simple.1, ?_⟩
          simp only [Bool.or_eq_true, decide_eq_true_eq] at rangeable
          rcases rangeable with label | label <;> rw [label] <;> decide
        refine (yields_rangeRest start).bind fun found met => .pure ?_
        cases found with
        | some range => exact (met range rfl).mono (by decide)
        | none => exact alone
      · exact .pure alone

theorem yields_map : (map nested).Yields (Among ["map"]) :=
  .after fun _ => .after fun _ => (yields_listOf (yields_keyValue derived)).bind fun _ inside =>
    .after fun _ => .after fun _ => .pure
      (among_own (by decide) (.map inside.labelled) inside.derived)

theorem yields_list : (list nested).Yields (Among ["list"]) :=
  .after fun _ => .after fun _ => (yields_listOf derived.expression).bind fun _ inside =>
    .after fun _ => .after fun _ => .pure
      (among_own (by decide) (.values (by decide) inside.labelled) inside.derived)

theorem yields_condition : (condition nested).Yields (Among valueLabels) :=
  .after fun _ => .after fun _ => derived.expression.bind fun _ among =>
    .after fun _ => .after fun _ => .pure among

theorem yields_elseBranch : (elseBranch nested).Yields (Among ["else"]) := by
  have body : (firstOf (block nested) [nested.conditional "if", nested.conditional "unless"]).Yields
      (Among ["block", "if", "unless"]) :=
    ((yields_block derived).widen (by decide)).orElse <|
      ((derived.conditional "if" (by decide)).widen (by decide)).orElse
        ((derived.conditional "unless" (by decide)).widen (by decide))
  exact .after fun _ => .after fun _ => .after fun _ => body.bind fun _ among => .pure
    (among_own (by decide) (.otherwise among.2)
      (List.forall_mem_singleton.mpr among.1))

theorem yields_conditional (kind : word ∈ ["if", "unless"]) :
    (conditional nested word).Yields (Among ["if", "unless"]) := by
  refine .after fun _ => .after fun _ => (yields_condition derived).bind fun condition value =>
    .after fun _ => (yields_block derived).bind fun body block =>
      (yields_elseBranch derived).optional.bind fun found met => .pure ?_
  obtain ⟨branch, inside⟩ := labels_optional met
  have named : body.label = "block" := List.mem_singleton.mp block.2
  have other : word ≠ "switch" := by
    rintro rfl
    exact absurd kind (by decide)
  refine among_branch other kind ?_ (List.forall_mem_cons.mpr ⟨value.1, List.forall_mem_cons.mpr
    ⟨block.1, inside⟩⟩)
  rw [List.map_cons, List.map_cons, named]
  exact .conditional kind value.2 branch

theorem yields_wordAndBlock {word : String} (production : Production word ["block"])
    (other : word ≠ "switch") :
    (wordAndBlock nested word).Yields fun tree =>
      tree.Among [word] ∧ tree.children.map Tree.label = ["block"] := by
  refine .after fun _ => .after fun _ => (yields_block derived).bind fun body block => .pure ?_
  have named : [body].map Tree.label = ["block"] :=
    congrArg (fun label => [label]) (List.mem_singleton.mp block.2)
  refine ⟨among_own other ?_ (List.forall_mem_singleton.mpr block.1),
    named⟩
  rw [named]
  exact production

theorem yields_case : (case nested).Yields (Among ["case"]) := by
  refine .after fun _ => .after fun _ => (yields_parenthesizedList derived.expression).bind
    fun opening inside => .after fun _ => (yields_block derived).bind fun body block => .pure ?_
  have matchers : (Tree.branch "matchers" opening.1.location opening.2).Among ["matchers"] :=
    among_own (by decide) (.values (by decide) inside.labelled) inside.derived
  have named : body.label = "block" := List.mem_singleton.mp block.2
  refine among_own (by decide) ?_ (derived_pair matchers.1 block.1)
  rw [List.map_cons, List.map_singleton, named]
  exact .case

theorem yields_switch : (switch nested).Yields (Among ["switch"]) := by
  refine .after fun _ => .after fun _ => (yields_condition derived).bind fun subject value =>
    .after fun _ => .after fun _ => .after fun _ =>
      ((yields_case derived).keepLeft _).many.bind fun cases arms =>
        ((yields_wordAndBlock derived (.otherwise (by decide)) (by decide)).keepLeft _).optional.bind
          fun found met => .after fun _ => .pure ?_
  obtain ⟨branch, inside⟩ := labels_optional fun tree listed => (met tree listed).1
  refine ⟨.branch _ ?_ (fun _ arm listed other => ?_) (List.forall_mem_append.mpr
    ⟨List.forall_mem_cons.mpr ⟨value.1, AllAmong.derived arms⟩, inside⟩), List.mem_singleton_self _⟩
  · rw [List.map_append, List.map_cons]
    exact .switch value.2 (AllAmong.labelled arms) branch
  · rcases List.mem_append.mp listed with listed | listed
    · have labelled : arm.label ∈ "case" :: valueLabels := by
        rcases List.mem_cons.mp listed with rfl | listed
        · exact List.mem_cons_of_mem _ value.2
        · exact List.mem_cons.mpr (.inl (List.mem_singleton.mp (arms arm listed).2))
      rw [other] at labelled
      exact absurd labelled (by decide)
    · exact (met arm (Option.mem_toList.mp listed)).2

theorem yields_catchBranch : (catchBranch nested).Yields (Among ["catch"]) := by
  refine .after fun _ => .after fun _ => .after fun _ => .after fun _ =>
    yields_reference.bind fun first name =>
      (Yields.keepRight spaces yields_reference).optional.bind fun found met =>
        .after fun _ => .after fun _ => .after fun _ =>
          (yields_block derived).bind fun body block => .pure ?_
  obtain ⟨matcher, inside⟩ := labels_optional met
  have named : first.label = "reference" := List.mem_singleton.mp name.2
  have last : body.label = "block" := List.mem_singleton.mp block.2
  refine among_own (by decide) ?_ (List.forall_mem_append.mpr
    ⟨List.forall_mem_cons.mpr ⟨name.1, inside⟩, List.forall_mem_singleton.mpr block.1⟩)
  rw [List.map_append, List.map_cons, List.map_singleton, named, last]
  exact .handler matcher

theorem yields_tryBlock : (tryBlock nested).Yields (Among ["try"]) := by
  refine .after fun _ => .after fun _ => (yields_block derived).bind fun body block =>
    (Yields.keepRight blanks (yields_catchBranch derived)).many.bind fun handlers caught =>
      (Yields.keepRight blanks (yields_wordAndBlock derived .cleanup (by decide))).optional.bind
        fun found met => ?_
  split
  · exact .after fun _ => .refuse _
  · rename_i some
    obtain ⟨branch, inside⟩ := labels_optional fun tree listed => (met tree listed).1
    have named : body.label = "block" := List.mem_singleton.mp block.2
    refine .pure (among_own (by decide) ?_ (List.forall_mem_append.mpr
      ⟨List.forall_mem_cons.mpr ⟨block.1, AllAmong.derived caught⟩, inside⟩))
    rw [List.map_append, List.map_cons, named]
    refine .attempt (AllAmong.labelled caught) branch ?_
    rw [← List.map_append]
    intro empty
    have none := List.append_eq_nil_iff.mp (List.map_eq_nil_iff.mp empty)
    cases found <;> simp_all

theorem yields_throwing : (throwing nested).Yields (Among ["throw"]) :=
  .after fun _ => .after fun _ => derived.expression.bind fun _ value => .pure
    (among_own (by decide) (.throwing value.2)
      (List.forall_mem_singleton.mpr value.1))

theorem yields_leaving {word : String} (kind : word ∈ ["return", "exit"]) :
    (leaving nested word).Yields (Among [word]) := by
  refine .after fun _ => (Yields.keepRight spaces derived.expression).optional.bind
    fun found met => .pure ?_
  have inside : AllAmong valueLabels found.toList := fun tree listed =>
    met tree (Option.mem_toList.mp listed)
  have single : (found.toList.map Tree.label).length ≤ 1 := by
    cases found <;> simp
  have other : word ≠ "switch" := by
    rintro rfl
    exact absurd kind (by decide)
  exact among_own other (.leaving kind single inside.labelled)
    inside.derived

theorem yields_construct : (construct nested).Yields (Among valueLabels) :=
  ((yields_conditional derived (by decide)).widen (by decide)).orElse <|
    ((yields_conditional derived (by decide)).widen (by decide)).orElse <|
      ((yields_switch derived).widen (by decide)).orElse <|
        ((yields_tryBlock derived).widen (by decide)).orElse <|
          ((yields_throwing derived).widen (by decide)).orElse <|
            ((yields_leaving derived (by decide)).widen (by decide)).orElse <|
              (yields_leaving derived (by decide)).widen (by decide)

end

theorem yields_optionalList {labels : List String} {item : Parser Tree} (start : Location)
    (yields : item.Yields (Among labels))
    (production : ∀ parts, (∀ part ∈ parts, part ∈ labels) → Production label parts)
    (other : label ≠ "switch") : (optionalList label item start).Yields (Among [label]) := by
  refine (yields_parenthesizedList yields).optional.bind fun found met => ?_
  cases found with
  | none =>
      exact .pure (among_own other
        (production [] (List.forall_mem_nil _)) (List.forall_mem_nil _))
  | some found =>
      have inside : AllAmong labels found.2 := met found rfl
      exact .pure (among_own other (production _ inside.labelled)
        inside.derived)

/-- A suffix makes a property or an invocation of any value. -/
def Suffix.Derived (suffix : Suffix) : Prop :=
  ∀ operand : Tree, operand.Among valueLabels → (suffix.attach operand).Among ["property", "invocation"]

/-- By induction on the suffixes: each is attached to a value. -/
theorem among_foldl_attach {labels : List String} {operand : Tree} {suffixes : List Suffix}
    (wider : ∀ label ∈ ["property", "invocation"], label ∈ labels)
    (narrow : ∀ label ∈ labels, label ∈ valueLabels) (among : operand.Among labels)
    (attached : ∀ suffix ∈ suffixes, suffix.Derived) :
    (suffixes.foldl Suffix.attach operand).Among labels := by
  induction suffixes generalizing operand with
  | nil => exact among
  | cons suffix rest ih =>
      obtain ⟨first, others⟩ := List.forall_mem_cons.mp attached
      exact ih ((first operand (among.mono narrow)).mono wider) others

/-- An operator and a value. -/
def IsLink (link : List Tree) : Prop :=
  ∃ operator operand, link = [.leaf "operator" operator, operand] ∧ operand.Among valueLabels

theorem labels_links {links : List (List Tree)} (all : ∀ link ∈ links, IsLink link) :
    (∀ child ∈ links.flatten, child.Derived) ∧ ∃ operands : List String,
      (∀ operand ∈ operands, operand ∈ valueLabels) ∧
      links.flatten.map Tree.label = operands.flatMap fun operand => ["operator", operand] := by
  induction links with
  | nil => exact ⟨List.forall_mem_nil _, [], by simp⟩
  | cons link rest ih =>
      obtain ⟨⟨operator, operand, rfl, value⟩, others⟩ := List.forall_mem_cons.mp all
      obtain ⟨inside, operands, values, labels⟩ := ih others
      have word : (Tree.leaf "operator" operator).Derived := .leaf (.word (by decide) _)
      refine ⟨List.forall_mem_append.mpr ⟨derived_pair word value.1, inside⟩,
        operand.label :: operands, List.forall_mem_cons.mpr ⟨value.2, values⟩, ?_⟩
      rw [List.flatten_cons, List.map_append, labels, List.flatMap_cons]
      rfl

section

variable (derived : nested.Derived)
include derived

theorem yields_classDefinition : (classDefinition nested).Yields (Among ["class"]) := by
  have parent : (nested.classDefinition.orElse reference).Yields (Among ["class", "reference"]) :=
    (derived.classDefinition.widen (by decide)).orElse (yields_reference.widen (by decide))
  refine .after fun start => .after fun _ =>
    (yields_optionalList start.location parent (fun _ => .ancestors)
      (by decide)).bind fun ancestors parents =>
      .after fun _ => (yields_block derived).bind fun body block => .pure ?_
  have first : ancestors.label = "ancestors" := List.mem_singleton.mp parents.2
  have last : body.label = "block" := List.mem_singleton.mp block.2
  refine among_own (by decide) ?_ (derived_pair parents.1 block.1)
  rw [List.map_cons, List.map_singleton, first, last]
  exact .classDefinition

theorem yields_parameter : (parameter nested).Yields (Among parameterLabels) :=
  (yields_numeric.widen (by decide)).orElse <|
    (yields_character.widen (by decide)).orElse <|
      ((yields_string derived).widen (by decide)).orElse (yields_reference.widen (by decide))

theorem yields_lambda : (lambda nested).Yields (Among ["lambda"]) := by
  refine .after fun start => .after fun _ =>
    (yields_optionalList start.location (yields_parameter derived) (fun _ => .parameters)
      (by decide)).bind
      fun parameters heads => .after fun _ => (yields_block derived).bind fun body block => .pure ?_
  have word : (Tree.leaf "keyword" start).Derived := .leaf (.word (by decide) _)
  have middle : parameters.label = "parameters" := List.mem_singleton.mp heads.2
  have last : body.label = "block" := List.mem_singleton.mp block.2
  refine among_own (by decide) ?_ (List.forall_mem_cons.mpr
    ⟨word, derived_pair heads.1 block.1⟩)
  rw [List.map_cons, List.map_cons, List.map_singleton, middle, last]
  exact .lambda

theorem yields_overloads : (overloads nested).Yields (Among ["overloads"]) := by
  refine .after fun _ => .after fun _ => .after fun _ => .after fun _ =>
    ((yields_lambda derived).label _).bind fun first one => .after fun _ =>
      ((yields_lambda derived).keepLeft _).many.bind fun rest more => .after fun _ => .pure ?_
  have all : AllAmong ["lambda"] (first :: rest) := List.forall_mem_cons.mpr ⟨one, more⟩
  exact among_own (by decide)
    (.overloads (by simp) all.labelled) all.derived

theorem yields_definition : (definition nested).Yields (Among valueLabels) :=
  ((yields_classDefinition derived).widen (by decide)).orElse <|
    ((yields_lambda derived).widen (by decide)).orElse <|
      (yields_overloads derived).widen (by decide)

theorem yields_suffix : (suffix nested).Yields Suffix.Derived := by
  refine .orElse (.map ((Yields.any _).mono fun name _ operand value => ?_))
    ((yields_parenthesizedList derived.expression).bind fun found inside => .pure ?_)
  · have last : (Tree.leaf "name" name).Derived := .leaf (.word (by decide) _)
    exact among_branch (by decide) (by decide) (.property value.2) (derived_pair value.1 last)
  · intro operand value
    have last : (Tree.branch "arguments" found.1.location found.2).Among ["arguments"] :=
      among_own (by decide) (.values (by decide) inside.labelled) inside.derived
    exact among_branch (by decide) (by decide) (.invocation value.2) (derived_pair value.1 last.1)

theorem yields_suffixes {labels : List String} {operand : Tree}
    (wider : ∀ label ∈ ["property", "invocation"], label ∈ labels)
    (narrow : ∀ label ∈ labels, label ∈ valueLabels) (among : operand.Among labels) :
    (suffixes nested operand).Yields (Among labels) :=
  (yields_suffix derived).many.bind fun _ attached =>
    .pure (among_foldl_attach wider narrow among attached)

theorem yields_parenthesized : (parenthesized nested).Yields (Among valueLabels) :=
  .after fun _ => .after fun _ => derived.expression.bind fun _ value =>
    .after fun _ => .after fun _ => .pure value

theorem yields_atom : (atom nested).Yields (Among valueLabels) :=
  (yields_construct derived).orElse <| (yields_definition derived).orElse <|
    ((yields_map derived).widen (by decide)).orElse <|
      ((yields_list derived).widen (by decide)).orElse <|
        (yields_ledBySimple derived).orElse <| (yields_parenthesized derived).orElse
          yields_ledByReference

theorem yields_operand : (operand nested).Yields (Among valueLabels) :=
  (yields_atom derived).bind fun _ value =>
    yields_suffixes derived (by decide) (fun _ listed => listed) value

theorem yields_operatorLink : (operatorLink nested).Yields IsLink :=
  .after fun _ => .after fun operator => .after fun _ => derived.operand.bind fun operand value =>
    .pure ⟨operator, operand, rfl, value⟩

theorem yields_expression : (expression nested).Yields (Among valueLabels) := by
  refine (yields_operand derived).bind fun first value =>
    (yields_operatorLink derived).many.bind fun links all => ?_
  split
  · exact .pure value
  · obtain ⟨inside, operands, values, labels⟩ := labels_links all
    refine .pure (among_branch (by decide) (by decide) ?_ (List.forall_mem_cons.mpr ⟨value.1, inside⟩))
    rw [List.map_cons, labels]
    exact .binary value.2 values

theorem yields_assignment : (assignment nested).Yields (Among ["assignment"]) := by
  refine yields_reference.bind fun target name => ?_
  have start : target.Among targetLabels := name.mono (by decide)
  exact (yields_suffixes derived (by decide) (by decide) start).bind fun whole assigned =>
    .after fun _ => .after fun _ => .after fun _ => derived.expression.bind fun _ value => .pure
      (among_own (by decide) (.assignment assigned.2 value.2)
        (derived_pair assigned.1 value.1))

theorem yields_statement : (statement nested).Yields (Among statementLabels) :=
  (yields_comment.widen (by decide)).orElse <|
    ((yields_assignment derived).widen (by decide)).orElse <|
      (yields_expression derived).widen (by decide)

theorem yields_lines : (lines nested).Yields (AllAmong statementLabels) :=
  .after fun _ => ((yields_statement derived).keepLeft _).many

theorem yields_module : (module nested).Yields (Among ["module"]) := by
  intro source cursor tree after matched
  obtain ⟨statements, between, first, rest⟩ := matched_bind matched
  obtain ⟨_, last, -, ⟨⟩⟩ := matched_bind rest
  have inside := yields_lines derived source cursor statements between first
  exact among_own (by decide) (.statements (by decide) inside.labelled)
    inside.derived

/-- Every rule makes derivations. -/
theorem yields_over (rule : Rule) : (rule.over nested).Yields (Among rule.labels) := by
  cases rule with
  | character => exact yields_character.widen (by decide)
  | decimal => exact yields_decimal.widen (by decide)
  | integer => exact yields_integer.widen (by decide)
  | numeric => exact yields_numeric.widen (by decide)
  | regularExpression => exact (yields_regularExpression derived).widen (by decide)
  | string => exact (yields_string derived).widen (by decide)
  | keyValue => exact (yields_keyValue derived).widen (by decide)
  | list => exact (yields_list derived).widen (by decide)
  | map => exact (yields_map derived).widen (by decide)
  | range => exact yields_range.widen (by decide)
  | reference => exact yields_reference.widen (by decide)
  | block => exact (yields_block derived).widen (by decide)
  | statement => exact (yields_statement derived).widen (by decide)
  | comment => exact yields_comment.widen (by decide)
  | assignment => exact (yields_assignment derived).widen (by decide)
  | expression => exact (yields_expression derived).widen (by decide)
  | operand => exact (yields_operand derived).widen (by decide)
  | module => exact yields_module derived

end

/-- By induction on the levels. -/
theorem derived_within (levels : Nat) : (Nested.within levels).Derived := by
  induction levels with
  | zero =>
      have exhausted {α : Type} {expected : α → Prop} :
          Yields expected fun _ _ => .exhausted := by
        rintro source cursor value after ⟨⟩
      exact ⟨exhausted, exhausted, exhausted, exhausted, fun _ _ => exhausted⟩
  | succ levels ih =>
      exact ⟨yields_lines ih, yields_expression ih, yields_operand ih, yields_classDefinition ih,
        fun word kind => yields_conditional ih kind⟩

/-- A module is what its rule makes of the text. -/
theorem ofText_eq_ok {origin text : String} {tree : Tree} :
    Tree.ofText origin text = .ok tree ↔
      ∃ after, Rule.module.parser (.ofText origin text) .initial = .matched tree after := by
  unfold Tree.ofText readAll
  generalize Rule.module.parser (.ofText origin text) .initial = reply
  constructor
  · intro accepted
    cases reply with
    | exhausted => cases accepted
    | failed failure after => cases accepted
    | matched value after =>
        cases accepted
        exact ⟨after, rfl⟩
  · rintro ⟨after, rfl⟩
    rfl

/-- The tree of a module is a derivation. -/
theorem derived_of_text {origin text : String} {tree : Tree}
    (parsed : Tree.ofText origin text = .ok tree) : tree.Among ["module"] := by
  obtain ⟨after, matched⟩ := ofText_eq_ok.mp parsed
  exact yields_module (derived_within _) _ _ _ _ matched

end Concrete

end RipInterpreter
