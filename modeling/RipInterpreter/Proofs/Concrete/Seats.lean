import RipInterpreter.Proofs.Concrete.OperatorChains
import RipInterpreter.Proofs.Concrete.ReferenceTexts

/-!
What the references of a tree may spell. References are tried last: where a value is read, a
reference never spells what a literal rule or a word that needs nothing behind it takes, and ends of
ranges and parameters come after some of these rules. Names that are set or bound, and the ancestors
of a class, are read before anything else or at once, so that they may spell what they like.
-/

namespace RipInterpreter.Concrete

open Parsing Parser

/-- Where a reference may stand. -/
inductive Seat where
  /-- Where a value is read. -/
  | operand
  /-- At the start of what an assignment sets. -/
  | target
  | rangeEnd
  | parameter
  | handler
  | ancestor
deriving DecidableEq

namespace Seat

/-- The seat of a part of a tree, by the label of the tree and the index of the part. What
properties and calls start with keeps the seat of the whole. -/
def part (own : Seat) (label : String) (index : Nat) : Seat :=
  match label with
  | "assignment" => if index = 0 then .target else .operand
  | "property" => if index = 0 then own else .operand
  | "invocation" => if index = 0 then own else .operand
  | "range" => if index = 0 then .operand else .rangeEnd
  | "exclusive_range" => if index = 0 then .operand else .rangeEnd
  | "parameters" => .parameter
  | "catch" => .handler
  | "ancestors" => .ancestor
  | _ => .operand

/-- The reserved words that no reference at the seat spells. -/
def words : Seat → List String
  | .operand => ["return", "exit"]
  | _ => []

/-- The rules that are tried in front of a reference at the seat and that need nothing behind what
they take. -/
def rules : Seat → List Rule
  | .operand => [.numeric, .character, .string, .regularExpression]
  | .rangeEnd => [.numeric, .character]
  | .parameter => [.numeric, .character, .string]
  | _ => []

def Excludes (seat : Seat) (text : String) : Prop :=
  text ∈ seat.words ∨ ∃ rule ∈ seat.rules, rule.Accepts text

end Seat

/-- A part of a tree stands at a seat, if the tree stands at its own. -/
inductive Tree.Seats : (own : Seat) → Tree → (seat : Seat) → Tree → Prop
  | whole (seat : Seat) (tree : Tree) : Seats seat tree seat tree
  | inside {own seat : Seat} {tree child piece : Tree} {index : Nat}
    (listed : tree.children[index]? = some child)
    (within : Seats (own.part tree.label index) child seat piece) : Seats own tree seat piece

/-- No reference of the tree spells what its seat excludes. -/
def Tree.Seated (own : Seat) (tree : Tree) : Prop :=
  ∀ seat piece, Seats own tree seat piece → piece.label = "reference" →
    ¬ seat.Excludes piece.content

open RipInterpreter.Concrete.Tree (Seated)

variable {own seat : Seat} {label : String} {place : Location} {span : Span} {children : List Tree}
  {tree first second : Tree} {nested : Nested} {source : Source} {position : Nat}

theorem seated_leaf (other : label ≠ "reference") : (Tree.leaf label span).Seated own := by
  intro seat piece seats named
  cases seats with
  | whole => exact absurd named other
  | inside listed within => cases listed

theorem seated_reference (allowed : ¬ own.Excludes span.text) :
    (Tree.leaf "reference" span).Seated own := by
  intro seat piece seats named
  cases seats with
  | whole => exact allowed
  | inside listed within => cases listed

theorem seated_branch (other : label ≠ "reference")
    (inside : ∀ (index : Nat) (child : Tree), children[index]? = some child →
      child.Seated (own.part label index)) :
    (Tree.branch label place children).Seated own := by
  intro seat piece seats named
  cases seats with
  | whole => exact absurd named other
  | inside listed within => exact inside _ _ listed seat piece within named

/-- A branch whose parts all have the same seat. -/
theorem seated_alike (other : label ≠ "reference") (alike : ∀ index, own.part label index = seat)
    (inside : ∀ child ∈ children, child.Seated seat) :
    (Tree.branch label place children).Seated own :=
  seated_branch other fun index child listed =>
    alike index ▸ inside child (List.mem_of_getElem? listed)

/-- A branch of two parts with different seats. -/
theorem seated_pair (other : label ≠ "reference") (left : first.Seated (own.part label 0))
    (right : second.Seated (own.part label 1)) :
    (Tree.branch label place [first, second]).Seated own := by
  refine seated_branch other fun index child listed => ?_
  match index, listed with
  | 0, listed => exact Option.some.inj listed ▸ left
  | 1, listed => exact Option.some.inj listed ▸ right

/-- The labels of the branches whose parts are not all operands, and that of references. -/
def specialLabels : List String :=
  ["reference", "assignment", "property", "invocation", "range", "exclusive_range", "parameters",
    "catch", "ancestors"]

/-- Any other branch has operands as its parts. -/
theorem seated_operands (kind : label ∉ specialLabels)
    (inside : ∀ child ∈ children, child.Seated .operand) :
    (Tree.branch label place children).Seated own := by
  have named {special : String} (listed : special ∈ specialLabels) : label ≠ special :=
    fun same => kind (same ▸ listed)
  refine seated_alike (named (by decide)) (fun index => ?_) inside
  unfold Seat.part
  split
  case h_9 => rfl
  all_goals exact absurd rfl (named (by decide))

theorem seated_reference_unless (reading : Seat)
    (excluded : ∀ word rest, IsReference word → EndsWord rest →
      source.Remains position (word ++ rest) → ¬ reading.Excludes (.ofList word)) :
    reference.YieldsAt source position (Seated reading) := by
  rintro cursor tree after rfl matched
  obtain ⟨word, rest, isReference, ends, remains, rfl⟩ := matched_reference matched
  exact seated_reference (excluded word rest isReference ends remains)

theorem seated_reference_anywhere (words : own.words = []) (rules : own.rules = []) :
    reference.Yields (Seated own) := by
  refine .of_positions fun _ _ => seated_reference_unless own ?_
  rintro word rest - - - (listed | ⟨rule, listed, -⟩)
  · rw [words] at listed
    cases listed
  · rw [rules] at listed
    cases listed

/-- Neither a pair nor a range fails where the value that it starts with does not. -/
theorem ledBySimple_passes (passes : (simpleValue nested).PassesAt source position) :
    (ledBySimple nested).PassesAt source position := by
  refine passes.bind fun first middle => .bind (.bind (.optional _) fun _ _ => .pure _) ?_
  intro found last
  cases found with
  | some pair => exact .pure pair
  | none =>
      change PassesAt source last (ite _ _ _)
      split
      · exact .bind (.bind (.optional _) fun _ _ => .pure _) fun _ _ => .pure _
      · exact .pure first

/-- A word with an optional value behind it is read where it stands. -/
theorem leaving_passes {word : String} {rest : List Char}
    (remains : source.Remains position (word.toList ++ rest)) (ends : EndsWord rest) :
    (leaving nested word).PassesAt source position :=
  (keyword_of_word remains ends).bind_passes (.bind (.optional _) fun _ _ => .pure _)

theorem simpleValue_passes {word rest : List Char} {rule : Rule} (isReference : IsReference word)
    (remains : source.Remains position (word ++ rest)) (simple : rule ∈ Seat.operand.rules)
    (accepts : rule.Accepts (.ofList word)) : (simpleValue nested).PassesAt source position := by
  simp only [Seat.rules, List.mem_cons, List.not_mem_nil, or_false] at simple
  rcases simple with rfl | rfl | rfl | rfl
  · exact .orElse (.otherwise _ (integer_passes remains (signed_of_accepts isReference accepts))) _
  · exact .otherwise _ (.orElse (character_passes remains
      (marked_of_accepts isReference accepts) isReference.chars) _)
  · exact .otherwise _ (.otherwise _ (.orElse (string_passes remains isReference.chars
      (string_of_accepts isReference accepts)) _))
  · exact .otherwise _ (.otherwise _ (.otherwise _ (marked_passes rfl _ (by decide) remains
      isReference.chars (enclosed_of_accepts isReference accepts))))

theorem construct_passes {word rest : List Char}
    (remains : source.Remains position (word ++ rest)) (ends : EndsWord rest)
    (listed : .ofList word ∈ Seat.operand.words) : (construct nested).PassesAt source position := by
  simp only [Seat.words, List.mem_cons, List.not_mem_nil, or_false] at listed
  have standing {text : String} (same : .ofList word = text) :
      source.Remains position (text.toList ++ rest) := by
    rw [← same, String.toList_ofList]
    exact remains
  refine .otherwise _ (.otherwise _ (.otherwise _ (.otherwise _ (.otherwise _ ?_))))
  rcases listed with same | same
  · exact .orElse (leaving_passes (standing same) ends) _
  · exact .otherwise _ (leaving_passes (standing same) ends)

theorem seated_operand_reference (unconstructed : ¬ (construct nested).PassesAt source position)
    (unled : ¬ (ledBySimple nested).PassesAt source position) :
    reference.YieldsAt source position (Seated .operand) := by
  refine seated_reference_unless .operand fun word rest isReference ends remains => ?_
  rintro (listed | ⟨rule, simple, accepts⟩)
  · exact unconstructed (construct_passes remains ends listed)
  · exact unled (ledBySimple_passes (simpleValue_passes isReference remains simple accepts))

theorem seated_numeric : numeric.Yields (Seated own) :=
  .orElse (.map ((Yields.any _).mono fun _ _ => seated_leaf (by decide)))
    (.map ((Yields.any _).mono fun _ _ => seated_leaf (by decide)))

theorem seated_integer : integer.Yields (Seated own) :=
  .map ((Yields.any _).mono fun _ _ => seated_leaf (by decide))

theorem seated_character : character.Yields (Seated own) :=
  .map ((Yields.any _).mono fun _ _ => seated_leaf (by decide))

theorem seated_rawCharacter : rawCharacter.Yields (Seated own) :=
  .map ((Yields.any _).mono fun _ _ => seated_leaf (by decide))

/-- The end of a range is a number or a character, if it can be one. -/
theorem seated_rangeable : rangeable.Yields (Seated .rangeEnd) := by
  refine .of_positions fun source position => (seated_integer.at source position).orElse
    fun unnumbered => (seated_character.at source position).orElse fun unmarked =>
      seated_reference_unless .rangeEnd fun word rest isReference ends remains => ?_
  rintro (⟨⟨⟩⟩ | ⟨rule, listed, accepts⟩)
  simp only [Seat.rules, List.mem_cons, List.not_mem_nil, or_false] at listed
  rcases listed with rfl | rfl
  · exact unnumbered (integer_passes remains (signed_of_accepts isReference accepts))
  · exact unmarked (character_passes remains (marked_of_accepts isReference accepts)
      isReference.chars)

/-- The trees of a list all stand at a seat. -/
def AllSeated (seat : Seat) (trees : List Tree) : Prop := ∀ tree ∈ trees, tree.Seated seat

/-- What is nested keeps to its seats, too. -/
structure Nested.Seated (nested : Nested) : Prop where
  lines : nested.lines.Yields (AllSeated .operand)
  expression : nested.expression.Yields (Tree.Seated .operand)
  operand : nested.operand.Yields (Tree.Seated .operand)
  classDefinition : ∀ seat, nested.classDefinition.Yields (Tree.Seated seat)
  conditional : ∀ word ∈ ["if", "unless"], ∀ seat, (nested.conditional word).Yields (Tree.Seated seat)

theorem seated_symbolString : symbolString.Yields (Seated own) :=
  .after fun _ => .after fun _ => (Yields.map ((Yields.any _).mono fun _ _ =>
    seated_leaf (by decide))).manyOne.bind fun _ inside =>
      .pure (seated_operands (by decide) inside)

theorem seated_singleQuoted : singleQuoted.Yields (Seated own) :=
  .after fun _ => .after fun _ => (Yields.keepRight _ seated_rawCharacter).many.bind fun _ inside =>
    .after fun _ => .pure (seated_operands (by decide) inside)

theorem seated_optional {trees : List Tree} {found : Option Tree} (before : AllSeated seat trees)
    (met : ∀ tree ∈ found, tree.Seated seat) : AllSeated seat (trees ++ found.toList) :=
  List.forall_mem_append.mpr ⟨before, fun tree listed => met tree (Option.mem_toList.mp listed)⟩

section

variable (seated : nested.Seated)
include seated

theorem seated_interpolation : (interpolation nested).Yields (Seated own) :=
  .after fun _ => seated.lines.bind fun _ inside => .after fun _ => .pure <|
    seated_operands (by decide) <| List.forall_mem_append.mpr
      ⟨inside, List.forall_mem_singleton.mpr (seated_leaf (by decide))⟩

theorem seated_marked {kind : String} (mark : String) (known : kind ∉ specialLabels) :
    (marked nested kind mark).Yields (Seated own) := by
  have part : (piece nested mark).Yields (Seated .operand) :=
    (seated_interpolation seated).orElse <|
      (Yields.map ((Yields.any _).mono fun _ _ => seated_leaf (by decide))).orElse
        (.keepRight _ seated_rawCharacter)
  exact .after fun _ => .after fun _ => part.many.bind fun _ inside => .after fun _ =>
    .pure (seated_operands known inside)

theorem seated_hereDocument : (hereDocument nested).Yields (Seated own) :=
  .after fun _ => .after fun _ => .after fun _ => .after fun _ =>
    (((seated_interpolation seated).orElse (seated_rawCharacter.label _)).manyUntil _).bind
      fun _ inside => .after fun _ => .pure (seated_operands (by decide) inside)

theorem seated_string : (string nested).Yields (Seated own) :=
  seated_symbolString.orElse <| seated_singleQuoted.orElse <|
    (seated_marked seated _ (by decide)).orElse (seated_hereDocument seated)

theorem seated_simpleValue : (simpleValue nested).Yields (Seated own) :=
  seated_numeric.orElse <| seated_character.orElse <|
    (seated_string seated).orElse (seated_marked seated _ (by decide))

theorem seated_block : (block nested).Yields (Seated own) :=
  .after fun _ => seated.lines.bind fun _ inside => .after fun _ =>
    .pure (seated_operands (by decide) inside)

end

theorem seated_listOf {item : Parser Tree} (yields : item.Yields (Seated seat)) :
    (listOf item).Yields (AllSeated seat) := yields.separated

theorem seated_parenthesizedList {item : Parser Tree} (yields : item.Yields (Seated seat)) :
    (parenthesizedList item).Yields fun found => AllSeated seat found.2 :=
  .after fun _ => .after fun _ => (seated_listOf yields).bind fun _ inside =>
    .after fun _ => .after fun _ => .pure inside

theorem seated_rangeRest {start : Tree} (first : start.Seated .operand) :
    (rangeRest start).Yields fun found => ∀ range ∈ found, range.Seated .operand := by
  have ended : (do
      let _ ← literal ".."
      let exclusive ← optional (literal ".")
      let last ← rangeable
      return (exclusive.isSome, last) : Parser (Bool × Tree)).Yields
        fun found => found.2.Seated .rangeEnd :=
    .after fun _ => .after fun _ => seated_rangeable.bind fun _ last => .pure last
  refine ended.optional.bind fun found met => .pure ?_
  intro range listed
  obtain ⟨⟨exclusive, last⟩, same, rfl⟩ := Option.map_eq_some_iff.mp listed
  cases exclusive <;> exact seated_pair (by decide) first (met _ same)

/-- A range, or else its start alone. -/
theorem seated_rangeOr {start : Tree} (first : start.Seated .operand) :
    (rangeRest start >>= fun found => pure (found.getD start)).Yields (Seated .operand) :=
  (seated_rangeRest first).bind fun found met => .pure <| by
    cases found with
    | some range => exact met range rfl
    | none => exact first

section

variable (seated : nested.Seated)
include seated

theorem seated_pairRest {key : Tree} (first : key.Seated .operand) :
    (pairRest nested key).Yields fun found => ∀ pair ∈ found, pair.Seated .operand := by
  have value : (do
      let _ ← optional spaces
      let _ ← literal ":"
      let _ ← optional spaces
      nested.operand : Parser Tree).Yields (Seated .operand) :=
    .after fun _ => .after fun _ => .after fun _ => seated.operand
  refine value.optional.bind fun found met => .pure ?_
  intro pair listed
  obtain ⟨value, same, rfl⟩ := Option.map_eq_some_iff.mp listed
  exact seated_operands (by decide)
    (List.forall_mem_cons.mpr ⟨first, List.forall_mem_singleton.mpr (met _ same)⟩)

theorem seated_keyValue : (keyValue nested).Yields (Seated .operand) :=
  (seated_simpleValue seated).bind fun _ first =>
    (seated_pairRest seated first).bind fun found met => by
      cases found with
      | some pair => exact .pure (met pair rfl)
      | none => exact .failFurthest _

theorem seated_ledBySimple : (ledBySimple nested).Yields (Seated .operand) := by
  refine (seated_simpleValue seated).bind fun first simple =>
    (seated_pairRest seated simple).bind fun found met => ?_
  cases found with
  | some pair => exact .pure (met pair rfl)
  | none =>
      change Yields _ (ite _ _ _)
      split
      · exact seated_rangeOr simple
      · exact .pure simple

theorem seated_map : (map nested).Yields (Seated own) :=
  .after fun _ => .after fun _ => (seated_listOf (seated_keyValue seated)).bind fun _ inside =>
    .after fun _ => .after fun _ => .pure (seated_operands (by decide) inside)

theorem seated_list : (list nested).Yields (Seated own) :=
  .after fun _ => .after fun _ => (seated_listOf seated.expression).bind fun _ inside =>
    .after fun _ => .after fun _ => .pure (seated_operands (by decide) inside)

theorem seated_condition : (condition nested).Yields (Seated .operand) :=
  .after fun _ => .after fun _ => seated.expression.bind fun _ value =>
    .after fun _ => .after fun _ => .pure value

theorem seated_elseBranch : (elseBranch nested).Yields (Seated own) := by
  have body : (firstOf (block nested) [nested.conditional "if", nested.conditional "unless"]).Yields
      (Seated .operand) :=
    (seated_block seated).orElse <| (seated.conditional "if" (by decide) _).orElse
      (seated.conditional "unless" (by decide) _)
  exact .after fun _ => .after fun _ => .after fun _ => body.bind fun _ inside => .pure
    (seated_operands (by decide) (List.forall_mem_singleton.mpr inside))

theorem seated_conditional {word : String} (kind : word ∈ ["if", "unless"]) :
    (conditional nested word).Yields (Seated own) := by
  have other : word ∉ specialLabels :=
    (by decide : ∀ word ∈ ["if", "unless"], word ∉ specialLabels) word kind
  exact .after fun _ => .after fun _ => (seated_condition seated).bind fun condition value =>
    .after fun _ => (seated_block seated).bind fun body block =>
      (seated_elseBranch seated).optional.bind fun _ met => .pure (seated_operands other <|
        @seated_optional _ [condition, body] _
          (List.forall_mem_cons.mpr ⟨value, List.forall_mem_singleton.mpr block⟩) met)

theorem seated_wordAndBlock {word : String} (other : word ∉ specialLabels) :
    (wordAndBlock nested word).Yields (Seated own) :=
  .after fun _ => .after fun _ => (seated_block seated).bind fun _ block => .pure
    (seated_operands other (List.forall_mem_singleton.mpr block))

theorem seated_case : (case nested).Yields (Seated own) :=
  .after fun _ => .after fun _ => (seated_parenthesizedList seated.expression).bind fun _ inside =>
    .after fun _ => (seated_block seated).bind fun _ block => .pure <|
      seated_operands (by decide) <| List.forall_mem_cons.mpr
        ⟨seated_operands (by decide) inside, List.forall_mem_singleton.mpr block⟩

theorem seated_switch : (switch nested).Yields (Seated own) :=
  .after fun _ => .after fun _ => (seated_condition seated).bind fun _ value =>
    .after fun _ => .after fun _ => .after fun _ =>
      ((seated_case seated).keepLeft _).many.bind fun _ arms =>
        ((seated_wordAndBlock seated (by decide)).keepLeft _).optional.bind fun _ met =>
          .after fun _ => .pure (seated_operands (by decide)
            (seated_optional (List.forall_mem_cons.mpr ⟨value, arms⟩) met))

theorem seated_catchBranch : (catchBranch nested).Yields (Seated own) := by
  have name : reference.Yields (Seated .handler) := seated_reference_anywhere rfl rfl
  exact .after fun _ => .after fun _ => .after fun _ => .after fun _ =>
    name.bind fun binding first => (Yields.keepRight spaces name).optional.bind fun _ met =>
      .after fun _ => .after fun _ => .after fun _ => (seated_block seated).bind fun _ block =>
        .pure <| seated_alike (by decide) (fun _ => rfl) <| List.forall_mem_append.mpr
          ⟨@seated_optional _ [binding] _ (List.forall_mem_singleton.mpr first) met,
            List.forall_mem_singleton.mpr block⟩

theorem seated_tryBlock : (tryBlock nested).Yields (Seated own) := by
  have handler : (keepRight blanks (catchBranch nested)).Yields (Seated .operand) :=
    .keepRight _ (seated_catchBranch seated)
  have last : (keepRight blanks (wordAndBlock nested "finally")).Yields (Seated .operand) :=
    .keepRight _ (seated_wordAndBlock seated (by decide))
  have body : (block nested).Yields (Seated .operand) := seated_block seated
  refine .after fun _ => .after fun _ => body.bind fun body block =>
    handler.many.bind fun handlers caught => last.optional.bind fun found met => ?_
  split
  · exact .after fun _ => .refuse _
  · exact .pure (seated_operands (by decide)
      (seated_optional (List.forall_mem_cons.mpr ⟨block, caught⟩) met))

theorem seated_throwing : (throwing nested).Yields (Seated own) :=
  .after fun _ => .after fun _ => seated.expression.bind fun _ value => .pure
    (seated_operands (by decide) (List.forall_mem_singleton.mpr value))

theorem seated_leaving {word : String} (other : word ∉ specialLabels) :
    (leaving nested word).Yields (Seated own) :=
  .after fun _ => (Yields.keepRight spaces seated.expression).optional.bind fun _ met => .pure
    (seated_operands other fun tree listed => met tree (Option.mem_toList.mp listed))

theorem seated_construct : (construct nested).Yields (Seated own) :=
  (seated_conditional seated (by decide)).orElse <|
    (seated_conditional seated (by decide)).orElse <| (seated_switch seated).orElse <|
      (seated_tryBlock seated).orElse <| (seated_throwing seated).orElse <|
        (seated_leaving seated (by decide)).orElse (seated_leaving seated (by decide))

end

theorem seated_optionalList {item : Parser Tree} (start : Location)
    (yields : item.Yields (Seated seat)) (other : label ≠ "reference")
    (alike : ∀ index, own.part label index = seat) :
    (optionalList label item start).Yields (Seated own) :=
  (seated_parenthesizedList yields).optional.bind fun found met => by
    cases found with
    | none => exact .pure (seated_alike other alike (List.forall_mem_nil _))
    | some found => exact .pure (seated_alike other alike (met found rfl))

section

variable (seated : nested.Seated)
include seated

theorem seated_classDefinition : (classDefinition nested).Yields (Seated own) := by
  have parent : (nested.classDefinition.orElse reference).Yields (Seated .ancestor) :=
    (seated.classDefinition _).orElse (seated_reference_anywhere rfl rfl)
  exact .after fun start => .after fun _ =>
    (seated_optionalList start.location parent (by decide) fun _ => rfl).bind fun _ ancestors =>
      .after fun _ => (seated_block seated).bind fun _ block => .pure <|
        seated_operands (by decide) <| List.forall_mem_cons.mpr
          ⟨ancestors, List.forall_mem_singleton.mpr block⟩

/-- A parameter is a literal, if it can be one that is no pattern. -/
theorem seated_parameter : (parameter nested).Yields (Seated .parameter) := by
  refine .of_positions fun source position => (seated_numeric.at source position).orElse
    fun unnumbered => (seated_character.at source position).orElse fun unmarked =>
      ((seated_string seated).at source position).orElse fun unquoted =>
        seated_reference_unless .parameter fun word rest isReference ends remains => ?_
  rintro (⟨⟨⟩⟩ | ⟨rule, listed, accepts⟩)
  simp only [Seat.rules, List.mem_cons, List.not_mem_nil, or_false] at listed
  rcases listed with rfl | rfl | rfl
  · exact unnumbered
      (.otherwise _ (integer_passes remains (signed_of_accepts isReference accepts)))
  · exact unmarked (character_passes remains (marked_of_accepts isReference accepts)
      isReference.chars)
  · exact unquoted (string_passes remains isReference.chars
      (string_of_accepts isReference accepts))

theorem seated_lambda : (lambda nested).Yields (Seated own) :=
  .after fun start => .after fun _ =>
    (seated_optionalList start.location (seated_parameter seated) (by decide) fun _ => rfl).bind
      fun _ parameters => .after fun _ => (seated_block seated).bind fun _ block => .pure <|
        seated_operands (by decide) <| List.forall_mem_cons.mpr ⟨seated_leaf (by decide),
          List.forall_mem_cons.mpr ⟨parameters, List.forall_mem_singleton.mpr block⟩⟩

theorem seated_overloads : (overloads nested).Yields (Seated own) :=
  .after fun _ => .after fun _ => .after fun _ => .after fun _ =>
    ((seated_lambda seated).label _).bind fun _ first => .after fun _ =>
      ((seated_lambda seated).keepLeft _).many.bind fun _ rest => .after fun _ => .pure
        (seated_operands (by decide) (List.forall_mem_cons.mpr ⟨first, rest⟩))

theorem seated_definition : (definition nested).Yields (Seated own) :=
  (seated_classDefinition seated).orElse <| (seated_lambda seated).orElse (seated_overloads seated)

end

/-- A suffix keeps the seat of what it is attached to. -/
def Suffix.Seated (suffix : Suffix) : Prop :=
  ∀ seat operand, operand.Seated seat → (suffix.attach operand).Seated seat

theorem seated_attached {suffixes : List Suffix} (attached : ∀ suffix ∈ suffixes, suffix.Seated)
    (first : tree.Seated seat) : (suffixes.foldl Suffix.attach tree).Seated seat := by
  induction suffixes generalizing tree with
  | nil => exact first
  | cons suffix rest ih =>
      obtain ⟨next, others⟩ := List.forall_mem_cons.mp attached
      exact ih others (next seat tree first)

section

variable (seated : nested.Seated)
include seated

theorem seated_suffix : (suffix nested).Yields Suffix.Seated :=
  .orElse (.map ((Yields.any _).mono fun _ _ _ _ first =>
      seated_pair (by decide) first (seated_leaf (by decide))))
    ((seated_parenthesizedList seated.expression).bind fun _ inside => .pure fun _ _ first =>
      seated_pair (by decide) first (seated_operands (by decide) inside))

theorem seated_suffixes (first : tree.Seated seat) :
    (suffixes nested tree).Yields (Tree.Seated seat) :=
  (seated_suffix seated).many.bind fun _ attached => .pure (seated_attached attached first)

theorem seated_parenthesized : (parenthesized nested).Yields (Tree.Seated .operand) :=
  .after fun _ => .after fun _ => seated.expression.bind fun _ value =>
    .after fun _ => .after fun _ => .pure value

/-- A reference is what is left where the constructs and the literals have failed. -/
theorem seated_atom : (atom nested).Yields (Tree.Seated .operand) := by
  refine .of_positions fun source position =>
    ((seated_construct seated).at source position).orElse fun unconstructed =>
      ((seated_definition seated).at source position).orElse fun _ =>
        ((seated_map seated).at source position).orElse fun _ =>
          ((seated_list seated).at source position).orElse fun _ =>
            ((seated_ledBySimple seated).at source position).orElse fun unled =>
              ((seated_parenthesized seated).at source position).orElse fun _ => ?_
  intro cursor tree after same matched
  obtain ⟨first, between, read, rest⟩ := matched_bind matched
  have start : first.Seated .operand :=
    seated_operand_reference unconstructed unled cursor first between same read
  exact seated_rangeOr start source between tree after rest

theorem seated_operand : (operand nested).Yields (Tree.Seated .operand) :=
  (seated_atom seated).bind fun _ first => seated_suffixes seated first

theorem seated_operatorLink : (operatorLink nested).Yields (AllSeated .operand) :=
  .after fun _ => .after fun _ => .after fun _ => seated.operand.bind fun _ operand => .pure
    (List.forall_mem_cons.mpr ⟨seated_leaf (by decide), List.forall_mem_singleton.mpr operand⟩)

theorem seated_expression : (expression nested).Yields (Tree.Seated .operand) := by
  refine (seated_operand seated).bind fun first value =>
    (seated_operatorLink seated).many.bind fun links linked => ?_
  split
  · exact .pure value
  · exact .pure (seated_operands (by decide)
      (List.forall_mem_cons.mpr ⟨value, fun tree listed => by
        obtain ⟨link, among, inside⟩ := List.mem_flatten.mp listed
        exact linked link among tree inside⟩))

theorem seated_assignment : (assignment nested).Yields (Tree.Seated own) := by
  have name : reference.Yields (Tree.Seated .target) := seated_reference_anywhere rfl rfl
  exact name.bind fun _ first => (seated_suffixes seated first).bind fun _ target =>
    .after fun _ => .after fun _ => .after fun _ => seated.expression.bind fun _ value => .pure
      (seated_pair (by decide) target value)

theorem seated_statement : (statement nested).Yields (Tree.Seated .operand) :=
  Yields.orElse (.after fun _ => .after fun _ =>
      .map ((Yields.any _).mono fun _ _ => seated_leaf (by decide))) <|
    (seated_assignment seated).orElse (seated_expression seated)

theorem seated_lines : (lines nested).Yields (AllSeated .operand) :=
  .after fun _ => ((seated_statement seated).keepLeft _).many

theorem seated_module : (module nested).Yields (Tree.Seated own) := by
  intro source cursor tree after matched
  obtain ⟨statements, between, first, rest⟩ := matched_bind matched
  obtain ⟨_, last, -, ⟨⟩⟩ := matched_bind rest
  exact seated_operands (by decide) (seated_lines seated source cursor statements between first)

end

/-- By induction on the levels. -/
theorem seated_within (levels : Nat) : (Nested.within levels).Seated := by
  induction levels with
  | zero =>
      have exhausted {α : Type} {expected : α → Prop} :
          Yields expected fun _ _ => .exhausted := by
        rintro source cursor value after ⟨⟩
      exact ⟨exhausted, exhausted, exhausted, fun _ => exhausted, fun _ _ _ => exhausted⟩
  | succ levels ih =>
      exact ⟨seated_lines ih, seated_expression ih, seated_operand ih,
        fun _ => seated_classDefinition ih, fun _ kind _ => seated_conditional ih kind⟩

theorem Tree.PartOf.seats {tree piece : Tree} (part : PartOf piece tree) (own : Seat) :
    ∃ seat, Seats own tree seat piece := by
  induction part generalizing own with
  | whole => exact ⟨own, .whole own piece⟩
  | @inside child tree listed within ih =>
      obtain ⟨index, found⟩ := List.getElem?_of_mem listed
      obtain ⟨seat, seats⟩ := ih (own.part tree.label index)
      exact ⟨seat, .inside found seats⟩

/-- In the tree of a text every reference has a seat and spells nothing that a seat of it excludes. -/
theorem references_spell_nothing_excluded {origin text : String} {tree piece : Tree}
    (parsed : Tree.ofText origin text = .ok tree) (part : Tree.PartOf piece tree)
    (named : piece.label = "reference") :
    (∃ seat, Tree.Seats .operand tree seat piece) ∧
      ∀ seat, Tree.Seats .operand tree seat piece → ¬ seat.Excludes piece.content := by
  obtain ⟨after, matched⟩ := ofText_eq_ok.mp parsed
  have seated : tree.Seated .operand := seated_module (seated_within _) _ _ _ _ matched
  exact ⟨part.seats .operand, fun seat seats => seated seat piece seats named⟩

/-- The first end of a range is read where a value may stand, the second one is not. -/
theorem references_spell_nothing_excluded_of_range :
    ∃ tree piece, Tree.ofText "rspec" "x = if..return" = .ok tree ∧
      Tree.Seats .operand tree .operand piece ∧ piece.label = "reference" ∧ piece.content = "if" ∧
      ¬ Seat.operand.Excludes piece.content := by
  have checked : ((Tree.ofText "rspec" "x = if..return").toOption.any fun tree =>
      tree.label = "module" && tree.children[0]?.any fun statement =>
        statement.label = "assignment" && statement.children[1]?.any fun range =>
          range.label = "range" && range.children[0]?.any fun piece =>
            piece.label = "reference" && piece.content = "if") = true := by decide +kernel
  cases parsed : Tree.ofText "rspec" "x = if..return" with
  | error error =>
      rw [parsed] at checked
      cases checked
  | ok tree =>
      rw [parsed] at checked
      simp only [Except.toOption, Option.any_some, Bool.and_eq_true, decide_eq_true_eq,
        Option.any_eq_true] at checked
      obtain ⟨root, statement, first, assigns, range, second, ranges, piece, third, named, spelled⟩ :=
        checked
      have inRange : Tree.Seats .operand range .operand piece := by
        refine .inside third ?_
        rw [ranges]
        exact .whole .operand piece
      have inStatement : Tree.Seats .operand statement .operand piece := by
        refine .inside second ?_
        rw [assigns]
        exact inRange
      have seats : Tree.Seats .operand tree .operand piece := by
        refine .inside first ?_
        rw [root]
        exact inStatement
      have part : Tree.PartOf piece tree :=
        .inside (List.mem_of_getElem? first) <| .inside (List.mem_of_getElem? second) <|
          .inside (List.mem_of_getElem? third) (.whole piece)
      exact ⟨tree, piece, rfl, seats, named, spelled,
        (references_spell_nothing_excluded parsed part named).2 .operand seats⟩

/-- The words that constructs and definitions are made of. -/
def reservedWords : List String :=
  ["if", "unless", "switch", "case", "else", "try", "catch", "finally", "throw", "return", "exit",
    "class", "lambda", "λ", "->", "=>"]

/-- Those that need something behind them are references where they stand alone. -/
example : ∀ word ∈ reservedWords, word ∉ Seat.operand.words →
    ((Tree.ofText "rspec" word).toOption.any fun tree => tree.children.map
      (fun piece => (piece.label, piece.content)) = [("reference", word)]) = true := by
  decide +kernel

/-- What an assignment sets is read before all constructs and literals. -/
theorem reserved_word_assigned : ¬ ∀ (origin text : String) (tree piece : Tree),
    Tree.ofText origin text = .ok tree → Tree.PartOf piece tree → piece.label = "reference" →
      piece.content ∉ reservedWords ∧ ¬ ∃ rule ∈ [Rule.numeric, .character, .string,
        .regularExpression], rule.Accepts piece.content := by
  intro claimed
  have isReference : IsReference "if".toList :=
    ⟨by decide, List.all_eq_true.mp (by decide), by simp⟩
  obtain ⟨equals, place, parsed⟩ :=
    references_are_assignable "rspec" isReference (.numeral "3" (by decide) (by simp))
  have reserved := (claimed _ _ _ _ parsed
    (.inside List.mem_cons_self <| .inside List.mem_cons_self <| .whole _) rfl).1
  exact reserved (by decide)

end RipInterpreter.Concrete
