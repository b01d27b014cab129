import Mathlib.Data.List.SplitBy
import RipInterpreter.Proofs.Syntax.Standing
import RipInterpreter.Proofs.Syntax.WrittenTexts

namespace RipInterpreter.Syntax

open Concrete (Production Spelled Tree)

/-- The operands of a chain of calls of `+` from the left, with the places of the calls. A call of an
operator has one argument, and its property and its invocation stand at the same place. -/
def Node.unfolded : Node → Node × List (Location × Node)
  | .invocation (.property receiver operator place) [argument] last =>
    if operator = "+" ∧ place = last then
      (receiver.unfolded.1, receiver.unfolded.2 ++ [(place, argument)])
    else (.invocation (.property receiver operator place) [argument] last, [])
  | node => (node, [])

def isInterpolation (part : Tree) : Bool := part.label == "interpolation"

/-- The maximal runs of characters and escapes among the parts of a text, and each interpolation
alone. -/
def runsOf (parts : List Tree) : List (List Tree) :=
  parts.splitBy fun part next => !(isInterpolation part || isInterpolation next)

/-- The runs that the operands of a text are made of. The only one of a text without parts is empty,
and so is one in front of a pattern that starts with an interpolation. -/
def TextKind.operandRuns (kind : TextKind) (parts : List Tree) : List (List Tree) :=
  match parts with
  | [] => [[]]
  | first :: rest =>
    if kind = .regularExpression ∧ isInterpolation first = true then [] :: runsOf (first :: rest)
    else runsOf (first :: rest)

/-- The glyphs that a character, or a backslash and a character, make in a text of the kind. A string
has what the escape stands for, and a pattern keeps the backslash and the character behind it. -/
inductive TextKind.Resolves (part : Tree) : TextKind → List Glyph → Prop
  | character {kind : TextKind} {c : Char} (label : part.label = "character")
    (content : part.content.toList = [c]) : Resolves part kind [⟨c, part.location⟩]
  | escape {c resolved : Char} (label : part.label = "escape")
    (content : part.content.toList = ['\\', c]) (standsFor : StandsFor c resolved) :
    Resolves part .string [⟨resolved, part.location⟩]
  | keptEscape {c : Char} (label : part.label = "escape")
    (content : part.content.toList = ['\\', c]) :
    Resolves part .regularExpression [⟨'\\', part.location⟩,
      ⟨c, { part.location with
        position := part.location.position + 1, column := part.location.column + 1 }⟩]

theorem TextKind.resolves_escaped {part : Tree} {c : Char} (kind : TextKind)
    (label : part.label = "escape") (content : part.content.toList = ['\\', c]) :
    Resolves part kind (kind.escaped c part.location) := by
  cases kind
  · exact .escape label content (standsFor_resolveEscape c)
  · exact .keptEscape label content

/-- The statements of an interpolation are all its parts but the closing brace. -/
def IsBody (part : Tree) (body : List Node) : Prop :=
  List.Forall₂ (fun child node => Node.ofTree child = .ok node)
    (part.children.filter fun child => child.label != "interpolation_end") body

/-- The operand that a run of a text at a place makes. -/
inductive TextKind.Makes (kind : TextKind) (place : Location) : List Tree → Node → Prop
  | empty {node : Node} (isLiteral : kind.IsLiteral [] place node) : kind.Makes place [] node
  | literal {first : Tree} {rest : List Tree} {glyphs : List (List Glyph)} {node : Node}
    (resolves : List.Forall₂ (TextKind.Resolves · kind) (first :: rest) glyphs)
    (isLiteral : kind.IsLiteral glyphs.flatten first.location node) :
    kind.Makes place (first :: rest) node
  | interpolation {part : Tree} {body : List Node} (interpolates : isInterpolation part = true)
    (isBody : IsBody part body) : kind.Makes place [part] (.interpolation body part.location)

/-- The place of the brace that closes an interpolation. -/
def closingBrace (part : Tree) : Option Location :=
  if isInterpolation part then
    (part.children.find? fun child => child.label == "interpolation_end").map Tree.location
  else none

/-- Where the `+` between two runs stands: at the closing brace of an interpolation in front of it,
otherwise at the first place of what it appends. -/
def plusPlace (before next : List Tree) : Option Location :=
  (before.head?.bind closingBrace).or (next.head?.map Tree.location)

variable {kind : TextKind} {part : Tree} {parts : List Tree} {place : Location}

theorem unfolded_operatorCall (receiver : Node) (place : Location) (argument : Node) :
    (operatorCall receiver "+" place argument).unfolded =
      (receiver.unfolded.1, receiver.unfolded.2 ++ [(place, argument)]) := by
  rw [operatorCall, Node.unfolded, if_pos ⟨rfl, rfl⟩]

theorem unfolded_literal (kind : TextKind) (glyphs : List Glyph) (place : Location) :
    (kind.literal glyphs place).unfolded = (kind.literal glyphs place, []) := by
  cases kind <;> rw [TextKind.literal, Node.unfolded] <;> simp

/-- A character holds one character, an escape a backslash and one character. -/
structure WellSpelled (part : Tree) : Prop where
  character : part.label = "character" → ∃ c, part.content.toList = [c]
  escape : part.label = "escape" → ∃ c, part.content.toList = ['\\', c]

theorem not_produced {label : String} {labels : List String}
    (production : Production label labels) : label ∉ ["character", "escape"] := by
  cases production with
  | text kind | range kind | values kind | statements kind | conditional kind | leaving kind =>
      revert kind label
      decide
  | _ => decide

theorem chars_of_spelled {label text : String} (spelled : Spelled label text) :
    (label = "character" → ∃ c, text.toList = [c]) ∧
    (label = "escape" → ∃ c, text.toList = ['\\', c]) := by
  cases spelled with
  | character c => exact ⟨fun _ => ⟨c, String.toList_singleton c⟩, fun same => absurd same (by decide)⟩
  | escape c => exact ⟨fun same => absurd same (by decide), fun _ => ⟨c, String.toList_ofList⟩⟩
  | word kind =>
      refine ⟨?_, ?_⟩ <;> rintro rfl <;> exact absurd kind (by decide)

/-- The parts that the grammar builds are spelled like this. -/
theorem wellSpelled_of_derived (derived : part.Derived) : WellSpelled part := by
  cases derived with
  | leaf spelled => exact ⟨(chars_of_spelled spelled).1, (chars_of_spelled spelled).2⟩
  | @branch label children place production last inside =>
      have other := not_produced production
      refine ⟨?_, ?_⟩ <;> rintro rfl <;> exact absurd other (by decide)

/-- The pieces that a part of a text gives: the glyphs that it resolves, or an interpolation. -/
inductive TextKind.Gives (kind : TextKind) (part : Tree) : List Piece → Prop
  | spelled {glyphs : List Glyph} (plain : isInterpolation part = false)
    (resolves : Resolves part kind glyphs) : kind.Gives part (glyphs.map .glyph)
  | interpolated {body : List Node} {closing : Location}
    (closes : closingBrace part = some closing) (isBody : IsBody part body) :
    kind.Gives part [.interpolated body part.location closing]

theorem isInterpolation_of_closingBrace {closing : Location}
    (closes : closingBrace part = some closing) : isInterpolation part = true := by
  unfold closingBrace at closes
  split at closes
  · assumption
  · cases closes

theorem Reading.interpolationBody_each {body : List Node}
    (read : interpolationBody (part.children.map ofTree) = .ok body) : IsBody part body := by
  rw [interpolationBody, List.filter_map, nodes, List.mapM_map] at read
  have each := Ensures.mapM_each _ read
  simp only [Function.comp_def, ofTree_tree] at each
  exact each

/-- A part of a text is a character, an escape or an interpolation. -/
theorem gives_of_pieces {found : List Piece} (spelled : WellSpelled part)
    (read : Reading.pieces kind part (part.children.map Reading.ofTree) = .ok found) :
    kind.Gives part found := by
  by_cases character : part.label = "character"
  · obtain ⟨c, content⟩ := spelled.character character
    have glyph : Reading.glyph part = .ok ⟨c, part.location⟩ := by rw [Reading.glyph, content]
    rw [Reading.pieces_character character, glyph] at read
    cases read
    exact .spelled (by rw [isInterpolation, character]; rfl) (.character character content)
  by_cases escape : part.label = "escape"
  · obtain ⟨c, content⟩ := spelled.escape escape
    rw [Reading.pieces_escape escape content] at read
    cases read
    exact .spelled (by rw [isInterpolation, escape]; rfl) (kind.resolves_escaped escape content)
  unfold Reading.pieces at read
  rw [if_neg character, if_neg escape, List.find?_map] at read
  split at read
  · rename_i interpolation
    simp only [Function.comp_def, Reading.ofTree_tree] at read
    split at read
    · rename_i closing found
      obtain ⟨brace, stands, rfl⟩ := Option.map_eq_some_iff.mp found
      cases statements : Reading.interpolationBody (part.children.map Reading.ofTree) with
      | error reason =>
          rw [statements] at read
          cases read
      | ok body =>
          rw [statements] at read
          cases read
          refine .interpolated ?_ (Reading.interpolationBody_each statements)
          rw [closingBrace, isInterpolation, interpolation, if_pos (beq_self_eq_true _), stands,
            Reading.ofTree_tree]
          rfl
    · cases read
  · cases read

/-- The fragment that a run makes. -/
inductive TextKind.Gathers (kind : TextKind) : List Tree → Fragment → Prop
  | literal {first : Tree} {rest : List Tree} {glyphs : List (List Glyph)}
    (plain : ∀ part ∈ first :: rest, isInterpolation part = false)
    (resolves : List.Forall₂ (TextKind.Resolves · kind) (first :: rest) glyphs) :
    kind.Gathers (first :: rest) (.literal glyphs.flatten)
  | interpolated {part : Tree} {body : List Node} {closing : Location}
    (closes : closingBrace part = some closing) (isBody : IsBody part body) :
    kind.Gathers [part] (.interpolated body part.location closing)

theorem TextKind.Resolves.starts {glyphs : List Glyph} (resolves : Resolves part kind glyphs) :
    ∃ c rest, glyphs = ⟨c, part.location⟩ :: rest := by
  cases resolves <;> exact ⟨_, _, rfl⟩

theorem runsOf_join {first : Tree} {rest : List Tree} {runs : List (List Tree)}
    (behind : runsOf parts = (first :: rest) :: runs) (plain : isInterpolation part = false)
    (next : isInterpolation first = false) :
    runsOf (part :: parts) = (part :: first :: rest) :: runs := by
  obtain ⟨rfl, nonempty, together, apart⟩ := List.splitBy_eq_iff.mp behind
  obtain ⟨first_together, others⟩ := List.forall_mem_cons.mp together
  refine List.splitBy_eq_iff.mpr ⟨rfl, ?_, List.forall_mem_cons.mpr ⟨?_, others⟩, ?_⟩
  · exact fun listed => nonempty (List.mem_cons_of_mem _
      ((List.mem_cons.mp listed).resolve_left (List.cons_ne_nil _ _).symm))
  · exact List.isChain_cons_cons.mpr ⟨by rw [plain, next]; rfl, first_together⟩
  · rw [List.isChain_cons] at apart ⊢
    refine ⟨fun run listed => ?_, apart.2⟩
    obtain ⟨ends, starts, differ⟩ := apart.1 run listed
    exact ⟨List.cons_ne_nil _ _, starts, by rwa [List.getLast_cons ends]⟩

theorem runsOf_alone (apart : ∀ next ∈ parts.head?,
    (isInterpolation part || isInterpolation next) = true) :
    runsOf (part :: parts) = [part] :: runsOf parts := by
  change runsOf ([part] ++ parts) = runsOf [part] ++ runsOf parts
  refine List.splitBy_append fun last isLast next isNext => ?_
  obtain rfl : part = last := Option.some.inj isLast
  rw [apart next isNext]
  rfl

theorem gather_append_literal {glyphs more : List Glyph} {pieces : List Piece}
    {others : List Fragment} (behind : Fragment.gather pieces = .literal more :: others) :
    Fragment.gather (glyphs.map .glyph ++ pieces) = .literal (glyphs ++ more) :: others := by
  induction glyphs with
  | nil => exact behind
  | cons glyph glyphs ih => rw [List.map_cons, List.cons_append, Fragment.gather, ih, List.cons_append]

theorem gather_append_alone {glyphs : List Glyph} {pieces : List Piece} (nonempty : glyphs ≠ [])
    (other : ∀ more others, Fragment.gather pieces ≠ .literal more :: others) :
    Fragment.gather (glyphs.map .glyph ++ pieces) = .literal glyphs :: Fragment.gather pieces := by
  obtain ⟨front, last, rfl⟩ := (List.eq_nil_or_concat glyphs).resolve_left nonempty
  have single : Fragment.gather (.glyph last :: pieces) = .literal [last] :: Fragment.gather pieces := by
    rw [Fragment.gather]
    split
    · exact absurd ‹_› (other _ _)
    · rfl
  rw [List.concat_eq_append, List.map_append, List.append_assoc]
  exact gather_append_literal single

/-- The fragments of a text are made by its runs. By induction on the parts: the glyphs of a part
come to the run behind it, unless that is an interpolation. -/
theorem gathers_of_gives {found : List (List Piece)} (gives : List.Forall₂ kind.Gives parts found) :
    List.Forall₂ kind.Gathers (runsOf parts) (Fragment.gather found.flatten) := by
  induction gives with
  | nil => exact .nil
  | @cons part pieces parts found first gives ih =>
      cases first with
      | @interpolated body closing closes isBody =>
          rw [runsOf_alone fun next _ => by rw [isInterpolation_of_closingBrace closes]; rfl]
          exact .cons (.interpolated closes isBody) ih
      | @spelled glyphs plain resolves =>
          obtain ⟨c, rest, starts⟩ := resolves.starts
          have nonempty : glyphs ≠ [] := starts ▸ List.cons_ne_nil _ _
          have alone : kind.Gathers [part] (.literal glyphs) := by
            rw [← List.flatten_singleton (l := glyphs)]
            exact .literal (List.forall_mem_singleton.mpr plain) (.cons resolves .nil)
          rw [List.flatten_cons]
          generalize runs : runsOf parts = behind at ih
          generalize gathered : Fragment.gather found.flatten = fragments at ih
          cases ih with
          | nil =>
              obtain rfl := List.splitBy_eq_nil.mp runs
              rw [runsOf_alone (by rintro _ ⟨⟩), runs,
                gather_append_alone nonempty (by rw [gathered]; rintro _ _ ⟨⟩), gathered]
              exact .cons alone .nil
          | cons next others =>
              cases next with
              | literal unbroken following =>
                  rw [runsOf_join runs plain (unbroken _ List.mem_cons_self),
                    gather_append_literal gathered]
                  exact .cons (.literal (List.forall_mem_cons.mpr ⟨plain, unbroken⟩)
                    (.cons resolves following)) others
              | interpolated closes isBody =>
                  have apart : ∀ next ∈ parts.head?,
                      (isInterpolation part || isInterpolation next) = true := by
                    obtain ⟨rfl, -⟩ := List.splitBy_eq_iff.mp runs
                    rintro _ ⟨⟩
                    rw [isInterpolation_of_closingBrace closes, Bool.or_true]
                  rw [runsOf_alone apart, runs,
                    gather_append_alone nonempty (by rw [gathered]; rintro _ _ ⟨⟩), gathered]
                  exact .cons alone (.cons (.interpolated closes isBody) others)

/-- The glyphs of a run start where its first part does. -/
theorem firstPlace_of_resolves {first : Tree} {rest : List Tree} {glyphs : List (List Glyph)}
    (resolves : List.Forall₂ (TextKind.Resolves · kind) (first :: rest) glyphs) (otherwise : Location) :
    firstPlace glyphs.flatten otherwise = first.location := by
  cases resolves with
  | cons resolves others =>
      obtain ⟨c, rest, rfl⟩ := resolves.starts
      rfl

/-- Fragments that are appended become further operands. By induction on the fragments: what they
follow is known by its closing brace. -/
theorem appendFragments_unfolds {runs : List (List Tree)} {fragments : List Fragment}
    (gathers : List.Forall₂ kind.Gathers runs fragments) (before : List Tree) (joined : Node) :
    ∃ links, (appendFragments kind place joined (before.head?.bind closingBrace) fragments).unfolded =
        (joined.unfolded.1, joined.unfolded.2 ++ links) ∧
      List.Forall₂ (kind.Makes place) runs (links.map Prod.snd) ∧
      links.map (fun link => some link.1) = List.zipWith plusPlace (before :: runs) runs := by
  induction gathers generalizing before joined with
  | nil => exact ⟨[], by rw [appendFragments, List.append_nil], .nil, rfl⟩
  | @cons run fragment runs fragments first gathers ih =>
      have plus (start : Location) (starts : run.head?.map Tree.location = some start) :
          some ((before.head?.bind closingBrace).getD start) = plusPlace before run := by
        rw [plusPlace, starts]
        cases before.head?.bind closingBrace <;> rfl
      cases first with
      | @literal part rest glyphs plain resolves =>
          have ends : none = (part :: rest).head?.bind closingBrace := by
            rw [List.head?_cons, Option.bind_some, closingBrace, plain part List.mem_cons_self]
            rfl
          let place₁ := (before.head?.bind closingBrace).getD part.location
          let argument := kind.literal glyphs.flatten part.location
          obtain ⟨links, unfolded, makes, places⟩ :=
            ih (part :: rest) (operatorCall joined "+" place₁ argument)
          rw [← ends] at unfolded
          have made : kind.Makes place (part :: rest) argument :=
            .literal resolves (kind.isLiteral_literal _ _)
          refine ⟨(place₁, argument) :: links, ?_, .cons made makes, ?_⟩
          · rw [appendFragments, firstPlace_of_resolves resolves, firstPlace_of_resolves resolves, unfolded,
              unfolded_operatorCall, List.append_assoc]
            rfl
          · rw [List.map_cons, List.zipWith_cons_cons, places, plus _ rfl]
      | @interpolated part body closing closes isBody =>
          have ends : (some closing : Option Location) = [part].head?.bind closingBrace := closes.symm
          let place₁ := (before.head?.bind closingBrace).getD part.location
          let argument := Node.interpolation body part.location
          obtain ⟨links, unfolded, makes, places⟩ :=
            ih [part] (operatorCall joined "+" place₁ argument)
          rw [← ends] at unfolded
          refine ⟨(place₁, argument) :: links, ?_, .cons ?_ makes, ?_⟩
          · rw [appendFragments, unfolded, unfolded_operatorCall, List.append_assoc]
            rfl
          · exact .interpolation (isInterpolation_of_closingBrace closes) isBody
          · rw [List.map_cons, List.zipWith_cons_cons, places, plus _ rfl]

/-- The runs of a text start with its first part. -/
theorem head?_runsOf {run : List Tree} {runs : List (List Tree)} (split : runsOf parts = run :: runs) :
    parts.head? = run.head? := by
  obtain ⟨rfl, nonempty, -⟩ := List.splitBy_eq_iff.mp split
  cases run with
  | nil => exact absurd List.mem_cons_self nonempty
  | cons part run => rfl

/-- The runs of a text that is not to begin with a pattern. -/
theorem operandRuns_of_head {run : List Tree} {runs : List (List Tree)}
    (split : runsOf parts = run :: runs) (begins : kind = .string ∨
      ∀ first ∈ run.head?, isInterpolation first = false) :
    kind.operandRuns parts = run :: runs := by
  have start := head?_runsOf split
  cases parts with
  | nil => cases split
  | cons first rest =>
      rw [TextKind.operandRuns, if_neg, split]
      rintro ⟨rfl, interpolates⟩
      rcases begins with other | plain
      · cases other
      · rw [plain first start.symm] at interpolates
        cases interpolates

/-- In front of an interpolation a pattern begins with an empty run. -/
theorem operandRuns_of_interpolation {run : List Tree} {runs : List (List Tree)}
    (split : runsOf parts = (part :: run) :: runs) (interpolates : isInterpolation part = true) :
    TextKind.regularExpression.operandRuns parts = [] :: (part :: run) :: runs := by
  have start := head?_runsOf split
  cases parts with
  | nil => cases split
  | cons first rest =>
      cases start
      rw [TextKind.operandRuns, if_pos ⟨rfl, interpolates⟩, split]

/-- A text whose first operand is no chain itself. -/
theorem unfolds_from {runs : List (List Tree)} {fragments : List Fragment} {before : List Tree}
    {first : Node} (alone : first.unfolded = (first, [])) (makes : kind.Makes place before first)
    (gathers : List.Forall₂ kind.Gathers runs fragments) :
    ∃ operand links,
      (appendFragments kind place first (before.head?.bind closingBrace) fragments).unfolded =
        (operand, links) ∧
      List.Forall₂ (kind.Makes place) (before :: runs) (operand :: links.map Prod.snd) ∧
      links.map (fun link => some link.1) = List.zipWith plusPlace (before :: runs) runs := by
  obtain ⟨links, unfolded, others, places⟩ := appendFragments_unfolds gathers before first
  rw [alone] at unfolded
  exact ⟨first, links, unfolded, .cons makes others, places⟩

theorem joinFragments_unfolds {fragments : List Fragment}
    (gathers : List.Forall₂ kind.Gathers (runsOf parts) fragments) :
    ∃ first links, (joinFragments kind place fragments).unfolded = (first, links) ∧
      List.Forall₂ (kind.Makes place) (kind.operandRuns parts) (first :: links.map Prod.snd) ∧
      links.map (fun link => some link.1) =
        List.zipWith plusPlace (kind.operandRuns parts) (kind.operandRuns parts).tail := by
  generalize split : runsOf parts = runs at gathers
  cases gathers with
  | nil =>
      obtain rfl := List.splitBy_eq_nil.mp split
      exact ⟨_, [], unfolded_literal kind [] place,
        .cons (.empty (kind.isLiteral_literal [] place)) .nil, rfl⟩
  | @cons run fragment runs fragments first gathers =>
      cases first with
      | @literal part rest glyphs plain resolves =>
          rw [operandRuns_of_head split (.inr (by rintro _ ⟨⟩; exact plain _ List.mem_cons_self))]
          have unclosed : (part :: rest).head?.bind closingBrace = none := by
            rw [List.head?_cons, Option.bind_some, closingBrace, plain part List.mem_cons_self]
            rfl
          have unfolds := unfolds_from (unfolded_literal kind glyphs.flatten part.location)
            (.literal resolves (kind.isLiteral_literal _ _) : kind.Makes place _ _) gathers
          rw [unclosed] at unfolds
          rw [joinFragments, firstPlace_of_resolves resolves]
          exact unfolds
      | @interpolated part body closing closes isBody =>
          have interpolates := isInterpolation_of_closingBrace closes
          cases kind with
          | string =>
              rw [operandRuns_of_head split (.inl rfl)]
              have unfolds := unfolds_from (by rw [Node.unfolded]; simp)
                (.interpolation interpolates isBody : TextKind.string.Makes place _ _) gathers
              rw [List.head?_cons, Option.bind_some, closes] at unfolds
              exact unfolds
          | regularExpression =>
              rw [operandRuns_of_interpolation split interpolates]
              exact unfolds_from (unfolded_literal .regularExpression [] place)
                (.empty .regularExpression) (.cons (.interpolated closes isBody) gathers)

theorem flatten_operandRuns (kind : TextKind) (parts : List Tree) :
    (kind.operandRuns parts).flatten = parts := by
  unfold TextKind.operandRuns
  split
  · rfl
  · split
    · exact List.flatten_splitBy _ _
    · exact List.flatten_splitBy _ _

theorem ofTree_text {tree : Tree} (labelled : tree.label = kind.label) :
    Node.ofTree tree = Reading.text kind tree (tree.children.map Reading.ofTree) := by
  rw [Node.ofTree, Reading.ofTree_eq, Reading.nodeOf, labelled]
  cases kind <;> rfl

/-- A string or a pattern that reads as a node is a chain of calls of `+` from the left, whose operands
are made by the runs of its parts: a literal of the kind by each maximal run of characters and
escapes, an interpolation with all its statements by each interpolation, and an empty literal where
there are no parts and in front of a pattern that starts with an interpolation. No part is lost, and
each call stands at the closing brace of the interpolation in front of it, otherwise at the first
place of what it appends. -/
theorem texts_unfold {tree : Tree} {node : Node} (labelled : tree.label = kind.label)
    (read : Node.ofTree tree = .ok node) (spelled : ∀ part ∈ tree.children, WellSpelled part) :
    (kind.operandRuns tree.children).flatten = tree.children ∧
    ∃ first links, node.unfolded = (first, links) ∧
      List.Forall₂ (kind.Makes tree.location) (kind.operandRuns tree.children)
        (first :: links.map Prod.snd) ∧
      links.map (fun link => some link.1) =
        List.zipWith plusPlace (kind.operandRuns tree.children)
          (kind.operandRuns tree.children).tail := by
  refine ⟨flatten_operandRuns kind tree.children, ?_⟩
  rw [ofTree_text labelled, Reading.text, List.mapM_map] at read
  simp only [Function.comp_def, Reading.ofTree_tree, Reading.ofTree_parts] at read
  cases pieces : tree.children.mapM fun part =>
      Reading.pieces kind part (part.children.map Reading.ofTree) with
  | error reason =>
      rw [pieces] at read
      cases read
  | ok found =>
      rw [pieces] at read
      cases read
      have each := (List.forall₂_and_left _ _).mpr ⟨spelled, Ensures.mapM_each _ pieces⟩
      exact joinFragments_unfolds (gathers_of_gives (each.imp fun _ _ part =>
        gives_of_pieces part.1 part.2))

/-- The string `"a\n#{b}\#"` and the pattern `/#{b}\./`, as the grammar builds them. -/
theorem texts_unfold_of_escapes :
    let place (column : Nat) : Location := ⟨"text", column, 1, column⟩
    let interpolation (start : Nat) : Tree := .branch "interpolation" (place start)
      [.leaf "reference" ⟨"b", place (start + 2)⟩,
        .leaf "interpolation_end" ⟨"\x7d", place (start + 3)⟩]
    let body (start : Nat) : Node :=
      .interpolation [.reference ⟨"b", place (start + 2)⟩] (place start)
    let character : Tree := .leaf "character" ⟨"a", place 1⟩
    let escape (text : String) (start : Nat) : Tree := .leaf "escape" ⟨text, place start⟩
    let string : Tree := .branch "string" (place 0)
      [character, escape "\\n" 2, interpolation 4, escape "\\#" 8]
    let pattern : Tree := .branch "regular_expression" (place 0) [interpolation 1, escape "\\." 5]
    let front : Node := .string [⟨'a', place 1⟩, ⟨'\n', place 2⟩] (place 1)
    let last : Node := .string [⟨'#', place 8⟩] (place 8)
    let kept : Node := .regularExpression [⟨'\\', place 5⟩, ⟨'.', place 6⟩] (place 5)
    string.Derived ∧ pattern.Derived ∧
    (∃ node, Node.ofTree string = .ok node ∧
      node.unfolded = (front, [(place 4, body 4), (place 7, last)]) ∧
      List.Forall₂ (TextKind.string.Makes (place 0))
        [[character, escape "\\n" 2], [interpolation 4], [escape "\\#" 8]] [front, body 4, last]) ∧
    ∃ node, Node.ofTree pattern = .ok node ∧
      node.unfolded = (.regularExpression [] (place 0), [(place 1, body 1), (place 4, kept)]) ∧
      List.Forall₂ (TextKind.regularExpression.Makes (place 0))
        [[], [interpolation 1], [escape "\\." 5]] [.regularExpression [] (place 0), body 1, kept] := by
  intro place interpolation body character escape string pattern front last kept
  have inner (start : Nat) : (interpolation start).Derived := by
    have production : Production "interpolation" (["reference"] ++ ["interpolation_end"]) :=
      .interpolation (by decide)
    refine .branch _ production (fun same => absurd same (by decide)) ?_
    exact List.forall_mem_cons.mpr ⟨.leaf (.word (by decide) "b"),
      List.forall_mem_singleton.mpr (.leaf (.word (by decide) "\x7d"))⟩
  have escapes (c : Char) (start : Nat) : (escape (.ofList ['\\', c]) start).Derived :=
    .leaf (.escape c)
  have strings : string.Derived := by
    refine .branch _ (.text (by decide) (by decide)) (fun same => absurd same (by decide)) ?_
    exact List.forall_mem_cons.mpr ⟨.leaf (.character 'a'), List.forall_mem_cons.mpr
      ⟨escapes 'n' 2, List.forall_mem_cons.mpr
        ⟨inner 4, List.forall_mem_singleton.mpr (escapes '#' 8)⟩⟩⟩
  have patterns : pattern.Derived := by
    refine .branch _ (.text (by decide) (by decide)) (fun same => absurd same (by decide)) ?_
    exact List.forall_mem_cons.mpr ⟨inner 1, List.forall_mem_singleton.mpr (escapes '.' 5)⟩
  refine ⟨strings, patterns, ?_, ?_⟩
  · have labelled : string.label = TextKind.string.label := rfl
    have read : Node.ofTree string =
        .ok (operatorCall (operatorCall front "+" (place 4) (body 4)) "+" (place 7) last) := by
      rw [ofTree_text labelled]
      dsimp only [string, character, escape, interpolation, place]
      rfl
    obtain ⟨-, first, links, unfolded, makes, -⟩ := texts_unfold labelled read
      fun part listed => wellSpelled_of_derived (strings.inside part listed)
    cases unfolded
    exact ⟨_, read, rfl, makes⟩
  · have labelled : pattern.label = TextKind.regularExpression.label := rfl
    have read : Node.ofTree pattern = .ok (operatorCall
        (operatorCall (.regularExpression [] (place 0)) "+" (place 1) (body 1)) "+" (place 4) kept) := by
      rw [ofTree_text labelled]
      dsimp only [pattern, escape, interpolation, place]
      rfl
    obtain ⟨-, first, links, unfolded, makes, -⟩ := texts_unfold labelled read
      fun part listed => wellSpelled_of_derived (patterns.inside part listed)
    cases unfolded
    exact ⟨_, read, rfl, makes⟩

end RipInterpreter.Syntax
