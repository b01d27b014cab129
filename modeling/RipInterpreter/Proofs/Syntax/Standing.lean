import RipInterpreter.Proofs.Concrete.Positions
import RipInterpreter.Proofs.Syntax.Targets

namespace RipInterpreter

namespace Syntax

open Concrete (Tree)

variable {origin text : String}

/-- The character is written at its place. -/
def Glyph.Written (text : String) (glyph : Glyph) : Prop :=
  text.toList[glyph.location.position]? = some glyph.char

/-- What a character behind a backslash stands for in a string. -/
inductive StandsFor : Char → Char → Prop
  | lineFeed : StandsFor 'n' '\n'
  | tab : StandsFor 't' '\t'
  | carriageReturn : StandsFor 'r' '\r'
  | null : StandsFor '0' '\x00'
  | itself {c : Char} (other : c ∉ ['n', 't', 'r', '0']) : StandsFor c c

theorem standsFor_resolveEscape (c : Char) : StandsFor c (resolveEscape c) := by
  unfold resolveEscape
  split
  · exact .lineFeed
  · exact .tab
  · exact .carriageReturn
  · exact .null
  · exact .itself (by simp_all)

/-- A backslash is written at its place, and the character is what the one behind that stands for. -/
def Glyph.Escaped (text : String) (glyph : Glyph) : Prop :=
  text.toList[glyph.location.position]? = some '\\' ∧
    ∃ c, text.toList[glyph.location.position + 1]? = some c ∧ StandsFor c glyph.char

def TextKind.Spells (text : String) : TextKind → Glyph → Prop
  | .string, glyph => glyph.Written text ∨ glyph.Escaped text
  | .regularExpression, glyph => glyph.Written text

def positions (glyphs : List Glyph) : List Nat := glyphs.map fun glyph => glyph.location.position

def Lambda.places (definition : Lambda) : List Location :=
  [definition.location, definition.body.location]

def Case.places (case : Case) : List Location := [case.location, case.body.location]

def Handler.places (handler : Handler) : List Location :=
  handler.location :: handler.body.location ::
    (handler.matcher.toList ++ [handler.binding]).map Name.location

def Clause.places (clause : Clause) : List Location := [clause.location, clause.body.location]

namespace Node

/-- The places in a node, those in the nodes inside it left out. -/
def places : Node → List Location
  | .string glyphs place => place :: glyphs.map Glyph.location
  | .regularExpression glyphs place => place :: glyphs.map Glyph.location
  | .map pairs place => place :: pairs.map Pair.location
  | .lambda definition => definition.places
  | .overloads definitions place => place :: definitions.flatMap Lambda.places
  | .classDefinition _ body place => [place, body.location]
  | .conditional _ holds fails place => [place, holds.location, fails.location]
  | .switch _ cases otherwise place =>
    place :: cases.flatMap Case.places ++ otherwise.toList.flatMap Clause.places
  | .attempt body handlers cleanup place =>
    place :: body.location :: handlers.flatMap Handler.places ++
      cleanup.toList.flatMap Clause.places
  | node => [node.location]

/-- What the characters of a literal are in the text. -/
def Spells (text : String) : Node → Prop
  | .character glyph => glyph.Written text
  | .string glyphs _ => ∀ glyph ∈ glyphs, TextKind.string.Spells text glyph
  | .regularExpression glyphs _ => ∀ glyph ∈ glyphs, TextKind.regularExpression.Spells text glyph
  | _ => True

mutual
/-- The characters of the text literals that are joined by calls, in order. A literal with
interpolations is one chain of calls. -/
def glyphs : Node → List Glyph
  | .string glyphs _ => glyphs
  | .regularExpression glyphs _ => glyphs
  | .property object _ _ => object.glyphs
  | .invocation callable arguments _ => callable.glyphs ++ glyphsAll arguments
  | _ => []
def glyphsAll : List Node → List Glyph
  | [] => []
  | node :: rest => node.glyphs ++ glyphsAll rest
end

/-- The first node is the second one or stands somewhere in it. -/
inductive Within : Node → Node → Prop
  | whole (node : Node) : Within node node
  | inside {node inner tree : Node} (listed : inner ∈ tree.contents) (within : Within node inner) :
    Within node tree

/-- The node and everything inside it stands in the text where it says. -/
inductive Stands (origin text : String) : Node → Prop
  | intro {node : Node} (places : ∀ place ∈ node.places, place.StandsIn origin text)
    (spells : node.Spells text) (rising : (positions node.glyphs).Pairwise (· < ·))
    (inside : ∀ inner ∈ node.contents, inner.Stands origin text) : Stands origin text node

theorem glyphsAll_eq (nodes : List Node) : glyphsAll nodes = nodes.flatMap glyphs := by
  induction nodes with
  | nil => rfl
  | cons node rest ih => rw [glyphsAll, ih, List.flatMap_cons]

theorem Stands.places {node : Node} (stands : node.Stands origin text) :
    ∀ place ∈ node.places, place.StandsIn origin text := by
  cases stands with
  | intro places => exact places

theorem Stands.rising {node : Node} (stands : node.Stands origin text) :
    (positions node.glyphs).Pairwise (· < ·) := by
  cases stands with
  | intro _ _ rising => exact rising

theorem Stands.inner {node inner : Node} (stands : node.Stands origin text)
    (inside : inner ∈ node.contents) : inner.Stands origin text := by
  cases stands with
  | intro _ _ _ contents => exact contents inner inside

/-- The node stands in the text, and the characters of its text literals are among some, in order. -/
structure StandsAt (origin text : String) (room : List Nat) (node : Node) : Prop where
  stands : node.Stands origin text
  within : (positions node.glyphs).Sublist room

variable {room : List Nat}

/-- Most nodes join no text literals. -/
theorem StandsAt.intro {node : Node} (places : ∀ place ∈ node.places, place.StandsIn origin text)
    (spells : node.Spells text) (silent : node.glyphs = [])
    (inside : ∀ inner ∈ node.contents, inner.Stands origin text) :
    node.StandsAt origin text room where
  stands := .intro places spells (by rw [silent]; exact .nil) inside
  within := by
    rw [silent]
    exact List.nil_sublist room

end Node

structure Block.Stands (origin text : String) (block : Block) : Prop where
  own : block.location.StandsIn origin text
  statements : ∀ statement ∈ block.statements, statement.Stands origin text

structure Pair.Stands (origin text : String) (pair : Pair) : Prop where
  own : pair.location.StandsIn origin text
  key : pair.key.Stands origin text
  value : pair.value.Stands origin text

structure Lambda.Stands (origin text : String) (definition : Lambda) : Prop where
  own : definition.location.StandsIn origin text
  parameters : ∀ parameter ∈ definition.parameters, parameter.Stands origin text
  body : definition.body.Stands origin text

structure Case.Stands (origin text : String) (case : Case) : Prop where
  own : case.location.StandsIn origin text
  matchers : ∀ matcher ∈ case.matchers, matcher.Stands origin text
  body : case.body.Stands origin text

structure Handler.Stands (origin text : String) (handler : Handler) : Prop where
  own : handler.location.StandsIn origin text
  matcher : ∀ name ∈ handler.matcher.toList, name.location.StandsIn origin text
  binding : handler.binding.location.StandsIn origin text
  body : handler.body.Stands origin text

structure Clause.Stands (origin text : String) (clause : Clause) : Prop where
  own : clause.location.StandsIn origin text
  body : clause.body.Stands origin text

theorem Lambda.Stands.places {definition : Lambda} (stands : definition.Stands origin text) :
    ∀ place ∈ definition.places, place.StandsIn origin text :=
  List.forall_mem_cons.mpr ⟨stands.own, List.forall_mem_singleton.mpr stands.body.own⟩

theorem Lambda.Stands.contents {definition : Lambda} (stands : definition.Stands origin text) :
    ∀ inner ∈ definition.parameters ++ definition.body.statements, inner.Stands origin text :=
  List.forall_mem_append.mpr ⟨stands.parameters, stands.body.statements⟩

theorem Case.Stands.places {case : Case} (stands : case.Stands origin text) :
    ∀ place ∈ case.places, place.StandsIn origin text :=
  List.forall_mem_cons.mpr ⟨stands.own, List.forall_mem_singleton.mpr stands.body.own⟩

theorem Handler.Stands.places {handler : Handler} (stands : handler.Stands origin text) :
    ∀ place ∈ handler.places, place.StandsIn origin text :=
  List.forall_mem_cons.mpr ⟨stands.own, List.forall_mem_cons.mpr ⟨stands.body.own,
    List.forall_mem_map.mpr (List.forall_mem_append.mpr
      ⟨stands.matcher, List.forall_mem_singleton.mpr stands.binding⟩)⟩⟩

theorem Clause.Stands.places {clause : Clause} (stands : clause.Stands origin text) :
    ∀ place ∈ clause.places, place.StandsIn origin text :=
  List.forall_mem_cons.mpr ⟨stands.own, List.forall_mem_singleton.mpr stands.body.own⟩

namespace Node

variable {room : List Nat} {place : Location}

theorem stands_map {pairs : List Pair} (own : place.StandsIn origin text)
    (stands : ∀ pair ∈ pairs, pair.Stands origin text) :
    (Node.map pairs place).StandsAt origin text room := by
  refine .intro (List.forall_mem_cons.mpr ⟨own, List.forall_mem_map.mpr fun pair known =>
    (stands pair known).own⟩) trivial rfl (List.forall_mem_flatMap.mpr fun pair known => ?_)
  exact List.forall_mem_cons.mpr
    ⟨(stands pair known).key, List.forall_mem_singleton.mpr (stands pair known).value⟩

theorem stands_overloads {definitions : List Lambda} (own : place.StandsIn origin text)
    (stands : ∀ definition ∈ definitions, definition.Stands origin text) :
    (Node.overloads definitions place).StandsAt origin text room :=
  .intro (List.forall_mem_cons.mpr
      ⟨own, List.forall_mem_flatMap.mpr fun definition known => (stands definition known).places⟩)
    trivial rfl (List.forall_mem_flatMap.mpr fun definition known => (stands definition known).contents)

theorem stands_switch {subject : Node} {cases : List Case} {otherwise : Option Clause}
    (own : place.StandsIn origin text) (first : subject.Stands origin text)
    (arms : ∀ case ∈ cases, case.Stands origin text)
    (last : ∀ clause ∈ otherwise.toList, clause.Stands origin text) :
    (Node.switch subject cases otherwise place).StandsAt origin text room := by
  refine .intro (List.forall_mem_append.mpr
      ⟨List.forall_mem_cons.mpr ⟨own, List.forall_mem_flatMap.mpr fun case known => (arms case known).places⟩,
        List.forall_mem_flatMap.mpr fun clause known => (last clause known).places⟩)
    trivial rfl (List.forall_mem_append.mpr ⟨List.forall_mem_cons.mpr ⟨first, ?_⟩, ?_⟩)
  · exact List.forall_mem_flatMap.mpr fun case known => List.forall_mem_append.mpr
      ⟨(arms case known).matchers, (arms case known).body.statements⟩
  · exact List.forall_mem_flatMap.mpr fun clause known => (last clause known).body.statements

theorem stands_attempt {body : Block} {handlers : List Handler} {cleanup : Option Clause}
    (own : place.StandsIn origin text) (first : body.Stands origin text)
    (caught : ∀ handler ∈ handlers, handler.Stands origin text)
    (last : ∀ clause ∈ cleanup.toList, clause.Stands origin text) :
    (Node.attempt body handlers cleanup place).StandsAt origin text room := by
  refine .intro (List.forall_mem_append.mpr
      ⟨List.forall_mem_cons.mpr ⟨own, List.forall_mem_cons.mpr ⟨first.own,
          List.forall_mem_flatMap.mpr fun handler known => (caught handler known).places⟩⟩,
        List.forall_mem_flatMap.mpr fun clause known => (last clause known).places⟩)
    trivial rfl
    (List.forall_mem_append.mpr ⟨List.forall_mem_append.mpr ⟨first.statements, ?_⟩, ?_⟩)
  · exact List.forall_mem_flatMap.mpr fun handler known => (caught handler known).body.statements
  · exact List.forall_mem_flatMap.mpr fun clause known => (last clause known).body.statements

end Node

structure Glyph.Stands (origin text : String) (kind : TextKind) (glyph : Glyph) : Prop where
  own : glyph.location.StandsIn origin text
  spells : kind.Spells text glyph

def Piece.Stands (origin text : String) (kind : TextKind) : Piece → Prop
  | .glyph written => written.Stands origin text kind
  | .interpolated body location closing =>
    (∀ statement ∈ body, statement.Stands origin text) ∧ location.StandsIn origin text ∧
      closing.StandsIn origin text

def Piece.glyphs : Piece → List Glyph
  | .glyph written => [written]
  | .interpolated _ _ _ => []

def Fragment.Stands (origin text : String) (kind : TextKind) : Fragment → Prop
  | .literal glyphs => ∀ glyph ∈ glyphs, glyph.Stands origin text kind
  | .interpolated body location closing =>
    (∀ statement ∈ body, statement.Stands origin text) ∧ location.StandsIn origin text ∧
      closing.StandsIn origin text

def Fragment.glyphs : Fragment → List Glyph
  | .literal glyphs => glyphs
  | .interpolated _ _ _ => []

theorem Fragment.stands_gather {kind : TextKind} {pieces : List Piece}
    (stands : ∀ piece ∈ pieces, piece.Stands origin text kind) :
    ∀ fragment ∈ gather pieces, fragment.Stands origin text kind := by
  induction pieces with
  | nil => exact List.forall_mem_nil _
  | cons piece rest ih =>
      obtain ⟨one, more⟩ := List.forall_mem_cons.mp stands
      have others := ih more
      cases piece with
      | glyph glyph =>
          unfold gather
          split
          · rename_i glyphs fragments gathered
            rw [gathered] at others
            obtain ⟨first, further⟩ := List.forall_mem_cons.mp others
            exact List.forall_mem_cons.mpr ⟨List.forall_mem_cons.mpr ⟨one, first⟩, further⟩
          · exact List.forall_mem_cons.mpr ⟨List.forall_mem_singleton.mpr one, others⟩
      | interpolated body location closing => exact List.forall_mem_cons.mpr ⟨one, others⟩

theorem Fragment.glyphs_gather (pieces : List Piece) :
    (gather pieces).flatMap Fragment.glyphs = pieces.flatMap Piece.glyphs := by
  induction pieces with
  | nil => rfl
  | cons piece rest ih =>
      rw [List.flatMap_cons]
      cases piece with
      | glyph glyph =>
          unfold gather
          split
          · rename_i glyphs fragments gathered
            rw [← ih, gathered]
            rfl
          · rw [← ih]
            rfl
      | interpolated body location closing =>
          rw [← ih]
          rfl

namespace Node

variable {place : Location} {kind : TextKind}

theorem glyphs_literal (glyphs : List Glyph) : (kind.literal glyphs place).glyphs = glyphs := by
  cases kind <;> rfl

theorem glyphs_operatorCall (receiver argument : Node) (operator : String) :
    (operatorCall receiver operator place argument).glyphs = receiver.glyphs ++ argument.glyphs := by
  rw [operatorCall, Node.glyphs, Node.glyphs, glyphsAll, glyphsAll, List.append_nil]

theorem glyphs_appendFragments (joined : Node) (closing : Option Location)
    (fragments : List Fragment) :
    (appendFragments kind place joined closing fragments).glyphs =
      joined.glyphs ++ fragments.flatMap Fragment.glyphs := by
  induction fragments generalizing joined closing with
  | nil => exact (List.append_nil _).symm
  | cons fragment rest ih =>
      rw [List.flatMap_cons, ← List.append_assoc]
      cases fragment with
      | literal glyphs => rw [appendFragments, ih, glyphs_operatorCall, glyphs_literal]; rfl
      | interpolated body location next => rw [appendFragments, ih, glyphs_operatorCall]; rfl

theorem stands_literal {glyphs : List Glyph}
    (stands : ∀ glyph ∈ glyphs, glyph.Stands origin text kind)
    (own : place.StandsIn origin text) (rising : (positions glyphs).Pairwise (· < ·)) :
    (kind.literal glyphs place).Stands origin text := by
  have places : ∀ location ∈ place :: glyphs.map Glyph.location, location.StandsIn origin text :=
    List.forall_mem_cons.mpr ⟨own, List.forall_mem_map.mpr fun glyph listed =>
      (stands glyph listed).own⟩
  cases kind <;> exact .intro places (fun glyph listed => (stands glyph listed).spells) rising
    (List.forall_mem_nil _)

theorem stands_interpolation {body : List Node} (own : place.StandsIn origin text)
    (stands : ∀ statement ∈ body, statement.Stands origin text) :
    (Node.interpolation body place).Stands origin text :=
  .intro (List.forall_mem_singleton.mpr own) trivial .nil stands

theorem stands_firstPlace {glyphs : List Glyph}
    (stands : ∀ glyph ∈ glyphs, glyph.Stands origin text kind)
    (other : place.StandsIn origin text) : (firstPlace glyphs place).StandsIn origin text := by
  cases glyphs with
  | nil => exact other
  | cons glyph rest => exact (stands glyph List.mem_cons_self).own

theorem stands_operatorCall {receiver argument : Node} (first : receiver.Stands origin text)
    (second : argument.Stands origin text) (own : place.StandsIn origin text) (operator : String)
    (rising : (positions (receiver.glyphs ++ argument.glyphs)).Pairwise (· < ·)) :
    (operatorCall receiver operator place argument).Stands origin text := by
  have place := List.forall_mem_singleton.mpr own
  have property : (Node.property receiver operator _).Stands origin text :=
    .intro place trivial first.rising (List.forall_mem_singleton.mpr first)
  refine .intro place trivial ?_
    (List.forall_mem_cons.mpr ⟨property, List.forall_mem_singleton.mpr second⟩)
  exact (glyphs_operatorCall receiver argument operator).symm ▸ rising

theorem stands_appendFragments {joined : Node} {closing : Option Location}
    {fragments : List Fragment} (first : joined.Stands origin text)
    (own : place.StandsIn origin text) (closed : ∀ brace ∈ closing, brace.StandsIn origin text)
    (stands : ∀ fragment ∈ fragments, fragment.Stands origin text kind)
    (rising : (positions (joined.glyphs ++ fragments.flatMap Fragment.glyphs)).Pairwise (· < ·)) :
    (appendFragments kind place joined closing fragments).Stands origin text := by
  induction fragments generalizing joined closing with
  | nil => exact first
  | cons fragment rest ih =>
      obtain ⟨one, more⟩ := List.forall_mem_cons.mp stands
      have plus {start : Location} (known : start.StandsIn origin text) :
          (closing.getD start).StandsIn origin text := by
        cases closing with
        | none => exact known
        | some brace => exact closed brace rfl
      -- Each call on the way joins the characters in front, which rise as all of them do.
      rw [List.flatMap_cons, ← List.append_assoc] at rising
      have front : (positions (joined.glyphs ++ fragment.glyphs)).Pairwise (· < ·) := by
        rw [positions, List.map_append] at rising
        exact (List.pairwise_append.mp rising).1
      cases fragment with
      | literal glyphs =>
          have start := plus (stands_firstPlace one own)
          have own₁ : (positions glyphs).Pairwise (· < ·) := by
            rw [positions, List.map_append] at front
            exact (List.pairwise_append.mp front).2.1
          have appended := stands_literal one (stands_firstPlace one start) own₁
          refine ih (stands_operatorCall first appended start _ ?_) (by nofun) more ?_
          · rw [glyphs_literal]
            exact front
          · rw [glyphs_operatorCall, glyphs_literal]
            exact rising
      | interpolated body location next =>
          have inner := stands_interpolation one.2.1 one.1
          refine ih (stands_operatorCall first inner (plus one.2.1) _ front) ?_ more ?_
          · rintro _ ⟨⟩
            exact one.2.2
          · rw [glyphs_operatorCall]
            exact rising

theorem glyphs_joinFragments (fragments : List Fragment) :
    (joinFragments kind place fragments).glyphs = fragments.flatMap Fragment.glyphs := by
  cases fragments with
  | nil => exact glyphs_literal []
  | cons fragment rest =>
      cases fragment with
      | literal glyphs =>
          rw [joinFragments, glyphs_appendFragments, glyphs_literal]
          rfl
      | interpolated body location closing =>
          cases kind with
          | string =>
              rw [joinFragments, glyphs_appendFragments]
              rfl
          | regularExpression =>
              rw [joinFragments, glyphs_appendFragments, glyphs_literal]
              rfl

theorem stands_joinFragments {fragments : List Fragment} (own : place.StandsIn origin text)
    (stands : ∀ fragment ∈ fragments, fragment.Stands origin text kind)
    (rising : (positions (fragments.flatMap Fragment.glyphs)).Pairwise (· < ·)) :
    (joinFragments kind place fragments).Stands origin text := by
  have empty : (kind.literal [] place).Stands origin text :=
    stands_literal (List.forall_mem_nil _) own .nil
  cases fragments with
  | nil => exact empty
  | cons fragment rest =>
      obtain ⟨one, more⟩ := List.forall_mem_cons.mp stands
      cases fragment with
      | literal glyphs =>
          have start : (positions glyphs).Pairwise (· < ·) := by
            rw [List.flatMap_cons, positions, List.map_append] at rising
            exact (List.pairwise_append.mp rising).1
          refine stands_appendFragments (stands_literal one (stands_firstPlace one own) start) own
            (by nofun) more ?_
          rw [glyphs_literal]
          exact rising
      | interpolated body location closing =>
          cases kind with
          | string =>
              refine stands_appendFragments (stands_interpolation one.2.1 one.1) own ?_ more rising
              rintro _ ⟨⟩
              exact one.2.2
          | regularExpression =>
              exact stands_appendFragments empty own (by nofun) stands rising

end Node

end Syntax

end RipInterpreter
