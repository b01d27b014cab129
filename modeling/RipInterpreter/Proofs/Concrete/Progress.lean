import RipInterpreter.Proofs.Concrete.Approximation
import RipInterpreter.Proofs.Concrete.Regular
import RipInterpreter.Proofs.Parsing.Progress

/-!
The grammar terminates. The measure is the number of characters left: a rule nests another one only
behind a character that it has taken, so that it answers even if nested rules are cut off at its own
start, and every round of every repetition takes a character.
-/

namespace RipInterpreter.Concrete

open Parsing Parser

variable {α : Type} {levels least : Nat} {nested nested₁ : Nested} {source : Source}
  {cursor : Cursor}

/-- Nested rules that answer only at the positions of a kind. -/
def Nested.onlyWhere (allowed : Source → Nat → Bool) (nested : Nested) : Nested where
  lines := nested.lines.onlyWhere allowed
  expression := nested.expression.onlyWhere allowed
  operand := nested.operand.onlyWhere allowed
  classDefinition := nested.classDefinition.onlyWhere allowed
  conditional word := (nested.conditional word).onlyWhere allowed

namespace Nested

theorem Approximates.onlyWhere {allowed allowed₁ : Source → Nat → Bool}
    (approximates : nested.Approximates source nested₁)
    (included : ∀ position, allowed source position = true → allowed₁ source position = true) :
    (nested.onlyWhere allowed).Approximates source (nested₁.onlyWhere allowed₁) :=
  ⟨approximates.lines.onlyWhere included, approximates.expression.onlyWhere included,
    approximates.operand.onlyWhere included, approximates.classDefinition.onlyWhere included,
    fun word => (approximates.conditional word).onlyWhere included⟩

theorem Approximates.onlyWhere_left {allowed : Source → Nat → Bool}
    (approximates : nested.Approximates source nested₁) :
    (nested.onlyWhere allowed).Approximates source nested₁ :=
  ⟨approximates.lines.onlyWhere_left, approximates.expression.onlyWhere_left,
    approximates.operand.onlyWhere_left, approximates.classDefinition.onlyWhere_left,
    fun word => (approximates.conditional word).onlyWhere_left⟩

/-- Rules that answer where few enough characters are left need no more levels than that. -/
theorem Regular.nearEnd {left : Nat} (regular : nested.Regular levels) (fewer : left ≤ levels) :
    (nested.onlyWhere fun source position => source.size < left + position).Regular left := by
  have nearEnd {α : Type} {least : Nat} {parser : Parser α}
      (regular : parser.Regular levels least) :
      (parser.onlyWhere fun source position => source.size < left + position).Regular left
        least := by
    intro source cursor cursor₁ same inside deep
    unfold Parser.onlyWhere
    rw [same, if_pos (decide_eq_true deep), if_pos (decide_eq_true deep)]
    exact regular source cursor cursor₁ same inside (by omega)
  exact ⟨nearEnd regular.lines, nearEnd regular.expression, nearEnd regular.operand,
    nearEnd regular.classDefinition,
    fun word nonempty => nearEnd (regular.conditional word nonempty)⟩

end Nested

/-- How a rule ends that starts at a cursor and takes at least so many characters. -/
structure Ends (rule : Nested → Parser α) (least : Nat) (source : Source) (cursor : Cursor) :
    Prop where
  answers : complete rule source cursor ≠ .exhausted
  /-- As many levels of nesting as characters left are enough: more lead to the same answer. -/
  enough : ∀ levels, source.size ≤ levels + cursor.position →
    rule (.within levels) source cursor = complete rule source cursor
  /-- Nothing is nested before a character is taken. -/
  behind : rule ((Nested.within (source.size + 1)).onlyWhere fun _ position =>
    cursor.position < position) source cursor = complete rule source cursor
  matched : ∀ value after, complete rule source cursor = .matched value after →
    cursor.position + least ≤ after.position ∧ after.position ≤ source.size
  failed : ∀ failure after, complete rule source cursor = .failed failure after →
    cursor.position ≤ after.position

theorem answers_of_regular {parser : Parser α} (regular : parser.Regular (levels + 1) least)
    (inside : cursor.position ≤ source.size) (enough : source.size ≤ levels + cursor.position) :
    parser source cursor ≠ .exhausted := by
  intro missing
  have agree := regular source cursor cursor rfl inside (by omega)
  rw [missing] at agree
  cases agree

/-- A rule ends if it is regular and respects approximations: it answers over few nested rules, and
over more of them it answers the same. -/
theorem ends {rule : Nested → Parser α}
    (regular : ∀ {levels nested}, nested.Regular levels → (rule nested).Regular (levels + 1) least)
    (approximates : ∀ {nested nested₁}, nested.Approximates source nested₁ →
      (rule nested).Approximates source (rule nested₁))
    (inside : cursor.position ≤ source.size) : Ends rule least source cursor := by
  have whole : (rule (.within (source.size + 1))).Regular (source.size + 1 + 1) least :=
    regular (regular_within (source.size + 1))
  have answers : rule (.within (source.size + 1)) source cursor ≠ .exhausted :=
    answers_of_regular whole inside (by omega)
  have reflexive : (Nested.within (source.size + 1)).Approximates source
      (.within (source.size + 1)) := Nested.approximates_more (Nat.le_refl (source.size + 1))
  refine ⟨answers, fun levels enough => ?_, ?_, fun value after matched => ?_,
    fun failure after failed => ?_⟩
  · have answered : rule (.within levels) source cursor ≠ .exhausted :=
      answers_of_regular (regular (regular_within levels)) inside enough
    rcases Nat.le_total levels (source.size + 1) with fewer | more
    · exact (approximates (Nested.approximates_more fewer) cursor).eq answered
    · exact ((approximates (Nested.approximates_more more) cursor).eq answers).symm
  · -- a position behind the start is one with fewer characters left than there
    obtain ⟨left, counted⟩ : ∃ left, left = source.size - cursor.position := ⟨_, rfl⟩
    let near : Nested := (Nested.within (source.size + 1)).onlyWhere
      fun source position => source.size < left + position
    let behind : Nested := (Nested.within (source.size + 1)).onlyWhere
      fun _ position => cursor.position < position
    have nearEnd : near.Regular left := (regular_within _).nearEnd (by omega)
    have answered : rule near source cursor ≠ .exhausted :=
      answers_of_regular (regular nearEnd) inside (by omega)
    have included : near.Approximates source behind := reflexive.onlyWhere fun position held =>
      decide_eq_true (by have fewer := of_decide_eq_true held; omega)
    have same : rule near source cursor = rule behind source cursor :=
      (approximates included cursor).eq answered
    have cut : behind.Approximates source (.within (source.size + 1)) := reflexive.onlyWhere_left
    exact (approximates cut cursor).eq (same ▸ answered)
  · exact whole.bounds inside (by omega) matched
  · have follows := approximates reflexive cursor
    change rule (.within (source.size + 1)) source cursor = .failed failure after at failed
    rw [failed] at follows
    cases follows with
    | failed behind => exact behind

/-- The parsers that the grammar repeats. -/
inductive Loop (nested : Nested) : {α : Type} → Parser α → Prop
  | characters (accepts : Char → Bool) (expected : String) :
    Loop nested (charWhere accepts expected)
  | digitGroup : Loop nested (keepRight (optional (literal "_")) (manyOne digit))
  | symbolCharacter (accepts : Char → Bool) (expected : String) :
    Loop nested (Tree.leaf "character" <$> charWhere accepts expected)
  | commentCharacter :
    Loop nested (keepRight (notFollowedBy lineEnd "end of line")
      (charWhere (fun _ => true) "comment text"))
  | quotedCharacter :
    Loop nested (keepRight (notFollowedBy (literal "'") "'") rawCharacter)
  | markedPart (mark : String) (nonempty : 1 ≤ mark.length) :
    Loop nested (firstOf (interpolation nested)
      [escape, keepRight (notFollowedBy (literal mark) mark) rawCharacter])
  | hereDocumentPart :
    Loop nested ((interpolation nested).orElse (label "here-doc terminator" rawCharacter))
  | nextItem (item : Parser Tree)
    (listed : item ∈ [nested.expression, keyValue nested, parameter nested,
      nested.classDefinition.orElse reference]) :
    Loop nested (keepRight (keepLeft (keepRight blanks (literal ",")) blanks) item)
  | statement (separators : String) (accepts : Char → Bool) :
    Loop nested (keepLeft (statement nested) (many (charWhere accepts separators)))
  | operatorLink : Loop nested (operatorLink nested)
  | suffix : Loop nested (suffix nested)
  | overload : Loop nested (keepLeft (lambda nested) blanks)
  | switchCase : Loop nested (keepLeft (case nested) blanks)
  | handler : Loop nested (keepRight blanks (catchBranch nested))

/-- One case for each loop. -/
theorem Loop.regular {body : Parser α} (loop : Loop nested body) (regular : nested.Regular levels) :
    body.Regular (levels + 1) 1 := by
  cases loop with
  | characters accepts expected => exact regular_charWhere accepts expected
  | digitGroup =>
      have digit : digit.Regular (levels + 1) 1 := regular_charWhere _ _
      exact (regular_literal (by decide)).optional.keepRight digit.manyOne
  | symbolCharacter accepts expected => exact (regular_charWhere accepts expected).map _
  | commentCharacter => exact (regular_lineEnd.notFollowedBy _).keepRight (regular_charWhere _ _)
  | quotedCharacter =>
      exact ((regular_literal (by decide)).notFollowedBy _).keepRight regular_rawCharacter
  | markedPart mark nonempty =>
      exact (regular_interpolation regular).orElse <| regular_escape.orElse <|
        ((regular_literal nonempty).notFollowedBy mark).keepRight regular_rawCharacter
  | hereDocumentPart =>
      exact (regular_interpolation regular).orElse (regular_rawCharacter.label _)
  | nextItem item listed =>
      have itemRegular : item.Regular levels 1 := by
        simp only [List.mem_cons, List.not_mem_nil, or_false] at listed
        rcases listed with rfl | rfl | rfl | rfl
        · exact regular.expression
        · exact (regular_keyValue regular).shallow
        · exact (regular_parameter regular).shallow
        · exact regular.classDefinition.orElse regular_reference
      exact ((regular_blanks.keepRight (regular_literal (by decide))).keepLeft
        regular_blanks).enter fun _ => itemRegular.zero
  | statement separators accepts =>
      exact (regular_statement regular).keepLeft (regular_charWhere _ _).many
  | operatorLink => exact (regular_operatorLink regular)
  | suffix => exact (regular_suffix regular)
  | overload => exact (regular_lambda regular).keepLeft regular_blanks
  | switchCase => exact (regular_case regular).keepLeft regular_blanks
  | handler => exact regular_blanks.keepRight (regular_catchBranch regular)

/-- Statements take a character each. -/
theorem length_statements {found : List Tree} {after : Cursor}
    (inside : cursor.position ≤ source.size)
    (matched : statements source cursor = .matched found after) :
    cursor.position + found.length ≤ after.position := by
  have regular : (Nested.within (source.size + 1)).Regular (source.size + 1) := regular_within _
  obtain ⟨_, between, separated, repeated⟩ := matched_bind matched
  have separators : (many (charWhere (fun c => Text.isBlank c || c = ';') "separator")).Regular
      (source.size + 1) 0 := (regular_charWhere _ _).many
  obtain ⟨start, within⟩ := separators.bounds inside (by omega) separated
  have counted := ((regular_statement regular).keepLeft (regular_charWhere _ _).many).length_many
    within (by omega) repeated
  omega

/-- Every rule ends wherever it starts: it answers, and does so without nesting a rule before it has
taken a character; what it matches lies between its start and the end of the text and is empty for
a module and for statements at most; and no failure leads back in front of the start. Each round of
each repetition takes a character, so that every repetition goes on until its parser fails. -/
theorem grammar_terminates (source : Source) (cursor : Cursor)
    (inside : cursor.position ≤ source.size) :
    (∀ rule : Rule, Ends (fun nested => rule.over nested) rule.least source cursor) ∧
      Ends lines 0 source cursor ∧ Ends (fun _ => simpleReference) 1 source cursor ∧
      (∀ found after, statements source cursor = .matched found after →
        cursor.position + found.length ≤ after.position) ∧
      ∀ levels, source.size ≤ levels + cursor.position →
        ∀ {α : Type} (body : Parser α), Loop (.within levels) body →
          (∀ value after, body source cursor = .matched value after →
            cursor.position < after.position ∧ after.position ≤ source.size) ∧
          many body source cursor ≠ .exhausted ∧
          many body source cursor =
            repeatToFailure body (source.size - cursor.position + 1) source cursor := by
  refine ⟨fun rule => ?_, ?_, ?_, fun found after matched => length_statements inside matched,
    fun levels enough α body loop => ?_⟩
  · exact ends (fun regular => regular_over regular rule)
      (fun approximates => approximates_over approximates rule) inside
  · exact ends regular_lines approximates_lines inside
  · exact ends (fun _ => regular_simpleReference) (fun _ => approximates_simpleReference) inside
  · have regular := loop.regular (regular_within levels)
    refine ⟨fun value after matched => regular.bounds inside (by omega) matched,
      answers_of_regular regular.many inside enough, regular.many_eq inside (by omega)⟩

/-- The rule for statements ends behind a call. -/
theorem grammar_terminates_at_call :
    0 ≤ (Source.ofText "sample" "f(1).g").size ∧
      Ends (fun nested => Rule.over nested .statement) 1 (.ofText "sample" "f(1).g") .initial :=
  have inside := Nat.zero_le (Source.ofText "sample" "f(1).g").size
  ⟨inside, (grammar_terminates (.ofText "sample" "f(1).g") .initial inside).1 .statement⟩

end RipInterpreter.Concrete
