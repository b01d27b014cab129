import Mathlib.Data.List.Forall2
import RipInterpreter.Proofs.Concrete.Derivations
import RipInterpreter.Proofs.Syntax.Targets
import RipInterpreter.Syntax.Reading

namespace RipInterpreter.Syntax

open Concrete (Tree Production parameterLabels)

variable {α β : Type}

/-- What comes out, if anything does, is as expected. -/
def Ensures (attempt : Except Error α) (expected : α → Prop) : Prop :=
  ∀ value, attempt = .ok value → expected value

namespace Ensures

variable {attempt : Except Error α} {next : α → Except Error β} {given : α → Prop}
  {expected : β → Prop}

theorem ok {value : α} (met : given value) : Ensures (.ok value) given := by
  rintro _ ⟨⟩
  exact met

theorem error (error : Error) : Ensures (.error error) given := by
  rintro _ ⟨⟩

theorem bind (first : Ensures attempt given)
    (later : ∀ value, given value → Ensures (next value) expected) :
    Ensures (attempt >>= next) expected := by
  intro value finished
  cases attempt with
  | error error => cases finished
  | ok middle => exact later middle (first middle rfl) value finished

/-- Whatever the first attempt gives does not matter. -/
theorem after (later : ∀ value, Ensures (next value) expected) :
    Ensures (attempt >>= next) expected :=
  have any : Ensures attempt fun _ => True := fun _ _ => trivial
  any.bind fun value _ => later value

theorem map {change : α → β} (first : Ensures attempt given)
    (changed : ∀ value, given value → expected (change value)) :
    Ensures (change <$> attempt) expected := by
  intro value finished
  cases attempt with
  | error error => cases finished
  | ok middle =>
      cases finished
      exact changed middle (first middle rfl)

theorem mapM {convert : α → Except Error β} {items : List α}
    (each : ∀ item ∈ items, Ensures (convert item) expected) :
    Ensures (items.mapM convert) fun values => ∀ value ∈ values, expected value := by
  induction items with
  | nil => exact ok (List.forall_mem_nil _)
  | cons item rest ih =>
      obtain ⟨first, others⟩ := List.forall_mem_cons.mp each
      rw [List.mapM_cons]
      exact first.bind fun _ met => (ih others).bind fun _ more =>
        ok (List.forall_mem_cons.mpr ⟨met, more⟩)

/-- One value for each item. -/
theorem mapM_each {convert : α → Except Error β} {items : List α} :
    Ensures (items.mapM convert) fun values =>
      List.Forall₂ (fun item value => convert item = .ok value) items values := by
  induction items with
  | nil => exact ok .nil
  | cons item rest ih =>
      have first : Ensures (convert item) fun value => convert item = .ok value := fun _ read => read
      rw [List.mapM_cons]
      exact first.bind fun _ read => ih.bind fun _ others => ok (.cons read others)

theorem and {first second : α → Prop} (one : Ensures attempt first)
    (other : Ensures attempt second) : Ensures attempt fun value => first value ∧ second value :=
  fun value read => ⟨one value read, other value read⟩

/-- What the values show of the items keeps their order. -/
theorem mapM_sublist {γ : Type} {convert : α → Except Error β} {items : List α} {look : β → List γ}
    {room : α → List γ} (each : ∀ item ∈ items,
      Ensures (convert item) fun value => (look value).Sublist (room item)) :
    Ensures (items.mapM convert) fun values =>
      (values.flatMap look).Sublist (items.flatMap room) := by
  induction items with
  | nil => exact ok (.refl _)
  | cons item rest ih =>
      obtain ⟨first, others⟩ := List.forall_mem_cons.mp each
      rw [List.mapM_cons]
      exact first.bind fun _ within => (ih others).bind fun _ more => ok (within.append more)

end Ensures

def Block.Plain (block : Block) : Prop := ∀ statement ∈ block.statements, statement.Plain

def Pair.Plain (pair : Pair) : Prop := pair.key.Plain ∧ pair.value.Plain

def Lambda.Plain (definition : Lambda) : Prop :=
  (∀ parameter ∈ definition.parameters, parameter.Literal ∧ parameter.Plain) ∧
    definition.body.Plain

def Case.Plain (case : Case) : Prop :=
  (∀ matcher ∈ case.matchers, matcher.Plain) ∧ case.body.Plain

def Piece.Plain : Piece → Prop
  | .glyph _ => True
  | .interpolated body _ _ => ∀ statement ∈ body, statement.Plain

def Fragment.Plain : Fragment → Prop
  | .literal _ => True
  | .interpolated body _ _ => ∀ statement ∈ body, statement.Plain

namespace Node

/-- Only lambdas have heads. -/
theorem Plain.headless {node : Node} (headless : node.parameters = [])
    (inside : ∀ inner ∈ node.contents, inner.Plain) : node.Plain :=
  .intro (by rw [headless]; exact List.forall_mem_nil _) inside

theorem Plain.leaf {node : Node} (headless : node.parameters = []) (empty : node.contents = []) :
    node.Plain :=
  .headless headless (by rw [empty]; exact List.forall_mem_nil _)

theorem plain_pairs {pairs : List Pair} (plain : ∀ pair ∈ pairs, pair.Plain) (place : Location) :
    (Node.map pairs place).Plain := by
  refine .headless rfl fun inner listed => ?_
  obtain ⟨pair, written, inside⟩ := List.mem_flatMap.mp listed
  rcases List.mem_cons.mp inside with rfl | inside
  · exact (plain pair written).1
  · exact List.mem_singleton.mp inside ▸ (plain pair written).2

theorem plain_overloads {definitions : List Lambda}
    (plain : ∀ definition ∈ definitions, definition.Plain) (place : Location) :
    (Node.overloads definitions place).Plain := by
  refine .intro (fun parameter listed => ?_) fun inner listed => ?_
  · obtain ⟨definition, written, inside⟩ := List.mem_flatMap.mp listed
    exact ((plain definition written).1 parameter inside).1
  · obtain ⟨definition, written, inside⟩ := List.mem_flatMap.mp listed
    rcases List.mem_append.mp inside with inside | inside
    · exact ((plain definition written).1 inner inside).2
    · exact (plain definition written).2 inner inside

theorem plain_lambda {definition : Lambda} (plain : definition.Plain) :
    (Node.lambda definition).Plain :=
  .intro (fun parameter listed => (plain.1 parameter listed).1) <| List.forall_mem_append.mpr
    ⟨fun parameter listed => (plain.1 parameter listed).2, plain.2⟩

theorem plain_operatorCall {receiver argument : Node} (first : receiver.Plain)
    (second : argument.Plain) (operator : String) (place : Location) :
    (operatorCall receiver operator place argument).Plain := by
  have property : (Node.property receiver operator place).Plain :=
    .headless rfl (List.forall_mem_singleton.mpr first)
  exact .headless rfl (List.forall_mem_cons.mpr ⟨property, List.forall_mem_singleton.mpr second⟩)

theorem plain_literal (kind : TextKind) (glyphs : List Glyph) (place : Location) :
    (kind.literal glyphs place).Plain := by
  cases kind <;> exact .leaf rfl rfl

theorem plain_appendFragments {kind : TextKind} {place : Location} {joined : Node}
    {closing : Option Location} {fragments : List Fragment} (first : joined.Plain)
    (plain : ∀ fragment ∈ fragments, fragment.Plain) :
    (appendFragments kind place joined closing fragments).Plain := by
  induction fragments generalizing joined closing with
  | nil => exact first
  | cons fragment rest ih =>
      obtain ⟨one, more⟩ := List.forall_mem_cons.mp plain
      cases fragment with
      | literal glyphs => exact ih (plain_operatorCall first (plain_literal _ _ _) _ _) more
      | interpolated body location next =>
          have inner : (Node.interpolation body location).Plain := .headless rfl one
          exact ih (plain_operatorCall first inner _ _) more

theorem plain_joinFragments {kind : TextKind} {place : Location} {fragments : List Fragment}
    (plain : ∀ fragment ∈ fragments, fragment.Plain) :
    (joinFragments kind place fragments).Plain := by
  cases fragments with
  | nil => exact plain_literal _ _ _
  | cons fragment rest =>
      obtain ⟨one, more⟩ := List.forall_mem_cons.mp plain
      cases fragment with
      | literal glyphs => exact plain_appendFragments (plain_literal _ _ _) more
      | interpolated body location closing =>
          cases kind with
          | string =>
              have inner : (Node.interpolation body location).Plain := .headless rfl one
              exact plain_appendFragments inner more
          | regularExpression => exact plain_appendFragments (plain_literal _ _ _) plain

/-- A string is a literal, also with interpolations. -/
theorem literal_appendFragments {place : Location} {joined : Node} {closing : Option Location}
    {fragments : List Fragment} (first : joined.Literal) :
    (appendFragments .string place joined closing fragments).Literal := by
  induction fragments generalizing joined closing with
  | nil => exact first
  | cons fragment rest ih =>
      cases fragment with
      | literal glyphs => exact ih (.joined _ first (.string _ _))
      | interpolated body location next => exact ih (.joined _ first (.interpolation _ _))

theorem literal_joinFragments (place : Location) (fragments : List Fragment) :
    (joinFragments .string place fragments).Literal := by
  cases fragments with
  | nil => exact .string _ _
  | cons fragment rest =>
      cases fragment with
      | literal glyphs => exact literal_appendFragments (.string _ _)
      | interpolated body location closing => exact literal_appendFragments (.interpolation _ _)

end Node

theorem Fragment.plain_gather {pieces : List Piece} (plain : ∀ piece ∈ pieces, piece.Plain) :
    ∀ fragment ∈ gather pieces, fragment.Plain := by
  induction pieces with
  | nil => exact List.forall_mem_nil _
  | cons piece rest ih =>
      obtain ⟨one, more⟩ := List.forall_mem_cons.mp plain
      have others := ih more
      cases piece with
      | glyph glyph =>
          unfold gather
          split
          · rename_i glyphs fragments gathered
            rw [gathered] at others
            exact List.forall_mem_cons.mpr ⟨trivial, (List.forall_mem_cons.mp others).2⟩
          · exact List.forall_mem_cons.mpr ⟨trivial, others⟩
      | interpolated body location closing => exact List.forall_mem_cons.mpr ⟨one, others⟩

namespace Reading

/-- The reading of a plain node, and of its parts. -/
inductive Plain : Reading → Prop
  | intro {reading : Reading} (plain : Ensures reading.node Node.Plain)
    (literal : reading.tree.label ∈ parameterLabels → Ensures reading.node Node.Literal)
    (heads : reading.tree.label = "lambda" → ∀ list, reading.parts[1]? = some list →
      ∀ parameter ∈ list.parts, parameter.tree.label ∈ parameterLabels)
    (inside : ∀ part ∈ reading.parts, part.Plain) : Plain reading

theorem Plain.node {reading : Reading} (plain : reading.Plain) :
    Ensures reading.node Node.Plain := by
  cases plain with
  | intro plain => exact plain

theorem Plain.parts {reading : Reading} (plain : reading.Plain) :
    ∀ part ∈ reading.parts, part.Plain := by
  cases plain with
  | intro _ _ _ inside => exact inside

theorem Plain.literal {reading : Reading} (plain : reading.Plain)
    (kind : reading.tree.label ∈ parameterLabels) : Ensures reading.node Node.Literal := by
  cases plain with
  | intro _ literal => exact literal kind

theorem Plain.heads {reading list : Reading} (plain : reading.Plain)
    (kind : reading.tree.label = "lambda") (second : reading.parts[1]? = some list) :
    ∀ parameter ∈ list.parts, parameter.tree.label ∈ parameterLabels := by
  cases plain with
  | intro _ _ heads => exact heads kind list second

variable {tree : Tree} {parts : List Reading}

theorem part_stands (index : Nat) :
    Ensures (part tree parts index) fun found => parts[index]? = some found := by
  unfold part
  split
  · exact .ok ‹_›
  · exact .error _

theorem requireLabel_known (labels : List String) :
    Ensures (requireLabel tree labels) fun _ => tree.label ∈ labels := by
  unfold requireLabel
  split
  · exact .ok (List.contains_iff_mem.mp ‹_›)
  · exact .error _

section

variable (plain : ∀ part ∈ parts, part.Plain)
include plain

theorem plain_part (index : Nat) : Ensures (part tree parts index) Plain :=
  fun found read => plain found (List.mem_of_getElem? (part_stands index found read))

theorem plain_nodes : Ensures (nodes parts) fun found => ∀ node ∈ found, node.Plain :=
  .mapM fun part listed => (plain part listed).node

theorem plain_block : Ensures (block tree parts) Block.Plain :=
  .after fun _ => (plain_nodes plain).bind fun _ statements => .ok statements

theorem plain_blockPart (index : Nat) : Ensures (blockPart tree parts index) Block.Plain :=
  (plain_part plain index).bind fun _ body => plain_block body.parts

theorem plain_pair : Ensures (pair tree parts) Pair.Plain :=
  .after fun _ => (plain_part plain 0).bind fun _ first => first.node.bind fun _ key =>
    (plain_part plain 1).bind fun _ second => second.node.bind fun _ value => .ok ⟨key, value⟩

theorem plain_assignment : Ensures (assignment tree parts) Node.Plain := by
  refine (plain_part plain 0).bind fun _ first => first.node.bind fun target assigned => ?_
  have valued : Ensures (do
      let value ← (← part tree parts 1).node
      return .assignment target value tree.location) Node.Plain :=
    (plain_part plain 1).bind fun _ second => second.node.bind fun value written =>
      .ok (.headless rfl (List.forall_mem_cons.mpr ⟨assigned, List.forall_mem_singleton.mpr written⟩))
  split
  · exact valued
  · exact valued
  · exact .error _

theorem plain_operatorCalls {joined : Node} (first : joined.Plain) :
    Ensures (operatorCalls joined parts) Node.Plain := by
  induction joined, parts using operatorCalls.induct with
  | case1 joined operator operand rest ih =>
      obtain ⟨-, more⟩ := List.forall_mem_cons.mp plain
      obtain ⟨second, others⟩ := List.forall_mem_cons.mp more
      exact second.node.bind fun argument written =>
        ih argument others (Node.plain_operatorCall first written _ _)
  | case2 joined links short =>
      unfold operatorCalls
      split
      · exact absurd rfl (short _ _ _)
      · exact .ok first

theorem plain_chain : Ensures (chain tree parts) Node.Plain := by
  cases parts with
  | nil => exact .error _
  | cons first links =>
      obtain ⟨one, more⟩ := List.forall_mem_cons.mp plain
      change Ensures (ite _ _ _) _
      split
      · exact one.node.bind fun _ first => plain_operatorCalls more first
      · exact .error _

theorem plain_elseBody : Ensures (elseBody tree parts) Block.Plain := by
  refine .after fun _ => (plain_part plain 0).bind fun body inside => ?_
  split
  · exact plain_block inside.parts
  · exact inside.node.bind fun _ node => .ok (List.forall_mem_singleton.mpr node)

theorem plain_conditional : Ensures (conditional tree parts) Node.Plain := by
  refine (plain_part plain 0).bind fun _ first => first.node.bind fun condition holds =>
    (plain_blockPart plain 1).bind fun given body => ?_
  have made {first second : Block} (body : first.Plain) (other : second.Plain) :
      (Node.conditional condition first second tree.location).Plain :=
    .headless rfl (List.forall_mem_append.mpr ⟨List.forall_mem_cons.mpr ⟨holds, body⟩, other⟩)
  have finished {other : Block} (last : other.Plain) : Ensures
      (if tree.label = "unless" then .ok (.conditional condition other given tree.location)
        else .ok (.conditional condition given other tree.location)) Node.Plain := by
    split
    · exact .ok (made last body)
    · exact .ok (made body last)
  dsimp only
  split
  · rename_i branch found
    have inside := (plain branch (List.mem_of_getElem? found)).parts
    exact (plain_elseBody inside).bind fun _ last => finished last
  · exact finished (List.forall_mem_nil _)

theorem plain_clause : Ensures (clause tree parts) fun clause => clause.body.Plain :=
  (plain_blockPart plain 0).bind fun _ body => .ok body

theorem plain_case : Ensures (case tree parts) Case.Plain :=
  (plain_part plain 0).bind fun _ first => (plain_nodes first.parts).bind fun _ matchers =>
    (plain_blockPart plain 1).bind fun _ body => .ok ⟨matchers, body⟩

theorem plain_arms {cases : List Case} {otherwise : Option Clause}
    (read : ∀ case ∈ cases, case.Plain) (branch : ∀ clause ∈ otherwise, clause.body.Plain) :
    Ensures (arms cases otherwise parts) fun found =>
      (∀ case ∈ found.1, case.Plain) ∧ ∀ clause ∈ found.2, clause.body.Plain := by
  induction parts generalizing cases otherwise with
  | nil => exact .ok ⟨read, branch⟩
  | cons arm rest ih =>
      obtain ⟨one, more⟩ := List.forall_mem_cons.mp plain
      unfold arms
      split
      · exact (plain_case one.parts).bind fun _ added =>
          ih more (List.forall_mem_append.mpr ⟨read, List.forall_mem_singleton.mpr added⟩) branch
      · split
        · refine (plain_clause one.parts).bind fun _ last => ih more read ?_
          rintro _ ⟨⟩
          exact last
        · exact .error _

theorem plain_switch : Ensures (switch tree parts) Node.Plain := by
  cases parts with
  | nil => exact .error _
  | cons subject rest =>
      obtain ⟨one, more⟩ := List.forall_mem_cons.mp plain
      have start : Ensures (arms [] none rest) fun found =>
          (∀ case ∈ found.1, case.Plain) ∧ ∀ clause ∈ found.2, clause.body.Plain :=
        plain_arms more (List.forall_mem_nil _) (by rintro _ ⟨⟩)
      refine start.bind fun found met => one.node.bind fun _ first => .ok (.headless rfl ?_)
      refine List.forall_mem_append.mpr ⟨List.forall_mem_cons.mpr ⟨first, fun inner listed => ?_⟩,
        fun inner listed => ?_⟩
      · obtain ⟨case, written, inside⟩ := List.mem_flatMap.mp listed
        exact List.forall_mem_append.mpr (met.1 case written) inner inside
      · obtain ⟨clause, written, inside⟩ := List.mem_flatMap.mp listed
        exact met.2 clause (Option.mem_toList.mp written) inner inside

theorem plain_handler : Ensures (handler tree parts) fun handler => handler.body.Plain := by
  unfold handler
  split
  · exact .after fun _ => (plain_block (plain _ (by simp)).parts).bind fun _ body => .ok body
  · exact .after fun _ => .after fun _ =>
      (plain_block (plain _ (by simp)).parts).bind fun _ body => .ok body
  · exact .error _

theorem plain_handlers {found : List Handler} {cleanup : Option Clause}
    (read : ∀ handler ∈ found, handler.body.Plain)
    (branch : ∀ clause ∈ cleanup, clause.body.Plain) :
    Ensures (handlers found cleanup parts) fun found =>
      (∀ handler ∈ found.1, handler.body.Plain) ∧ ∀ clause ∈ found.2, clause.body.Plain := by
  induction parts generalizing found cleanup with
  | nil => exact .ok ⟨read, branch⟩
  | cons part rest ih =>
      obtain ⟨one, more⟩ := List.forall_mem_cons.mp plain
      unfold handlers
      split
      · exact (plain_handler one.parts).bind fun _ added =>
          ih more (List.forall_mem_append.mpr ⟨read, List.forall_mem_singleton.mpr added⟩) branch
      · split
        · refine (plain_clause one.parts).bind fun _ last => ih more read ?_
          rintro _ ⟨⟩
          exact last
        · exact .error _

theorem plain_attempt : Ensures (attempt tree parts) Node.Plain := by
  cases parts with
  | nil => exact .error _
  | cons body rest =>
      obtain ⟨one, more⟩ := List.forall_mem_cons.mp plain
      have start : Ensures (handlers [] none rest) fun found =>
          (∀ handler ∈ found.1, handler.body.Plain) ∧ ∀ clause ∈ found.2, clause.body.Plain :=
        plain_handlers more (List.forall_mem_nil _) (by rintro _ ⟨⟩)
      refine start.bind fun found met => (plain_block one.parts).bind fun _ body =>
        .ok (.headless rfl ?_)
      refine List.forall_mem_append.mpr ⟨List.forall_mem_append.mpr ⟨body, fun inner listed => ?_⟩,
        fun inner listed => ?_⟩
      · obtain ⟨handler, written, inside⟩ := List.mem_flatMap.mp listed
        exact met.1 handler written inner inside
      · obtain ⟨clause, written, inside⟩ := List.mem_flatMap.mp listed
        exact met.2 clause (Option.mem_toList.mp written) inner inside

theorem plain_interpolationBody :
    Ensures (interpolationBody parts) fun body => ∀ statement ∈ body, statement.Plain :=
  plain_nodes fun part listed => plain part (List.mem_filter.mp listed).1

theorem plain_pieces (kind : TextKind) :
    Ensures (pieces kind tree parts) fun found => ∀ piece ∈ found, piece.Plain := by
  unfold pieces
  split
  · exact .after fun _ => .ok (List.forall_mem_singleton.mpr trivial)
  · split
    · split
      · refine .ok fun piece listed => ?_
        obtain ⟨glyph, -, rfl⟩ := List.mem_map.mp listed
        trivial
      · exact .error _
    · split
      · split
        · exact (plain_interpolationBody plain).bind fun _ body =>
            .ok (List.forall_mem_singleton.mpr body)
        · exact .error _
      · exact .error _

theorem plain_text (kind : TextKind) : Ensures (text kind tree parts) Node.Plain := by
  have found : Ensures (parts.mapM fun child => pieces kind child.tree child.parts) fun pieces =>
      ∀ list ∈ pieces, ∀ piece ∈ list, piece.Plain :=
    .mapM fun child listed => plain_pieces (plain child listed).parts kind
  refine found.bind fun pieces met => .ok (Node.plain_joinFragments (Fragment.plain_gather ?_))
  intro piece listed
  obtain ⟨list, written, inside⟩ := List.mem_flatten.mp listed
  exact met list written piece inside

theorem plain_payload :
    Ensures (payload parts) fun payload => ∀ node ∈ payload.toList, node.Plain := by
  cases parts with
  | nil => exact .ok (List.forall_mem_nil _)
  | cons first rest =>
      exact (plain first List.mem_cons_self).node.map fun _ node => List.forall_mem_singleton.mpr node

theorem plain_lambda (heads : tree.label = "lambda" → ∀ list, parts[1]? = some list →
      ∀ parameter ∈ list.parts, parameter.tree.label ∈ parameterLabels) :
    Ensures (lambda tree parts) Lambda.Plain := by
  refine (requireLabel_known _).bind fun _ kind => .after fun _ =>
    (part_stands 1).bind fun list second => ?_
  have inside := (plain list (List.mem_of_getElem? second)).parts
  have parameters : Ensures (nodes list.parts) fun found =>
      ∀ parameter ∈ found, parameter.Literal ∧ parameter.Plain :=
    .mapM fun parameter listed node read =>
      ⟨(inside parameter listed).literal
        (heads (List.mem_singleton.mp kind) list second parameter listed) node read,
        (inside parameter listed).node node read⟩
  exact parameters.bind fun _ known => (plain_blockPart plain 2).bind fun _ body => .ok ⟨known, body⟩

/-- By the label of the tree. -/
theorem plain_nodeOf (heads : tree.label = "lambda" → ∀ list, parts[1]? = some list →
      ∀ parameter ∈ list.parts, parameter.tree.label ∈ parameterLabels) :
    Ensures (nodeOf tree parts) Node.Plain := by
  have range (exclusive : Bool) : Ensures (nodeOf.range tree parts exclusive) Node.Plain :=
    (plain_part plain 0).bind fun _ first => first.node.bind fun _ start =>
      (plain_part plain 1).bind fun _ second => second.node.bind fun _ last =>
        .ok (.headless rfl (List.forall_mem_cons.mpr ⟨start, List.forall_mem_singleton.mpr last⟩))
  have one {inner : Node} (first : inner.Plain) : ∀ node ∈ [inner], node.Plain :=
    List.forall_mem_singleton.mpr first
  have exits : Ensures (payload parts) fun found => ∀ node ∈ found.toList, node.Plain :=
    plain_payload plain
  unfold nodeOf
  split
  · exact .ok (.leaf rfl rfl)
  · exact Ensures.map (fun _ _ => trivial) fun _ (_ : True) => .leaf rfl rfl
  · exact .ok (.leaf rfl rfl)
  · exact .ok (.leaf rfl rfl)
  · exact Ensures.map (fun _ _ => trivial) fun _ (_ : True) => .leaf rfl rfl
  · exact plain_text plain .string
  · exact plain_text plain .regularExpression
  · exact (plain_interpolationBody plain).bind fun _ body => .ok (.headless rfl body)
  · exact (plain_pair plain).map fun _ pair =>
      .headless rfl (List.forall_mem_cons.mpr ⟨pair.1, one pair.2⟩)
  · exact range false
  · exact range true
  · exact (plain_nodes plain).bind fun _ items => .ok (.headless rfl items)
  · exact (Ensures.mapM fun child listed => plain_pair (plain child listed).parts).bind
      fun _ pairs => .ok (Node.plain_pairs pairs _)
  · exact plain_assignment plain
  · exact (plain_part plain 0).bind fun _ first => first.node.bind fun _ object =>
      .after fun _ => .ok (.headless rfl (one object))
  · exact (plain_part plain 0).bind fun _ first => first.node.bind fun _ callable =>
      (plain_part plain 1).bind fun _ second => (plain_nodes second.parts).bind fun _ arguments =>
        .ok (.headless rfl (List.forall_mem_cons.mpr ⟨callable, arguments⟩))
  · exact plain_chain plain
  · exact (plain_lambda plain heads).map fun _ definition => Node.plain_lambda definition
  · have overload : ∀ child ∈ parts, Ensures (lambda child.tree child.parts) Lambda.Plain :=
      fun child listed => plain_lambda (plain child listed).parts
        fun kind _ second => (plain child listed).heads kind second
    exact (Ensures.mapM overload).bind fun _ definitions => .ok (Node.plain_overloads definitions _)
  · exact (plain_part plain 0).bind fun _ first => (plain_nodes first.parts).bind
      fun _ ancestors => (plain_blockPart plain 1).bind fun _ body =>
        .ok (.headless rfl (List.forall_mem_append.mpr ⟨ancestors, body⟩))
  · exact (plain_block plain).map fun _ body => .headless rfl body
  · exact plain_conditional plain
  · exact plain_conditional plain
  · exact plain_switch plain
  · exact plain_attempt plain
  · exact (plain_part plain 0).bind fun _ first => first.node.bind fun _ payload =>
      .ok (.headless rfl (one payload))
  · exact exits.bind fun _ payload => .ok (.headless rfl payload)
  · exact exits.bind fun _ payload => .ok (.headless rfl payload)
  · exact .error _

end

/-- What the grammar allows as a parameter reads as a name or a literal. -/
theorem literal_nodeOf (kind : tree.label ∈ parameterLabels) :
    Ensures (nodeOf tree parts) Node.Literal := by
  have spelled : tree.label = "decimal" ∨ tree.label = "integer" ∨ tree.label = "character" ∨
      tree.label = "string" ∨ tree.label = "reference" := by
    simpa [parameterLabels] using kind
  unfold nodeOf
  rcases spelled with label | label | label | label | label <;> rw [label]
  · exact .ok (.decimal _ _)
  · exact .ok (.integer _ _)
  · exact Ensures.map (fun _ _ => trivial) fun _ (_ : True) => .character _
  · exact .after fun _ => .ok (Node.literal_joinFragments _ _)
  · exact Ensures.map (fun _ _ => trivial) fun _ (_ : True) => .reference _

theorem ofTrees_eq_map (trees : List Tree) : ofTrees trees = trees.map ofTree := by
  induction trees with
  | nil => rfl
  | cons tree rest ih => rw [ofTrees, List.map_cons, ih]

theorem ofTree_eq (tree : Tree) :
    ofTree tree = ⟨tree, tree.children.map ofTree, nodeOf tree (tree.children.map ofTree)⟩ := by
  cases tree
  rw [ofTree, ofTrees_eq_map]

@[simp] theorem ofTree_tree (tree : Tree) : (ofTree tree).tree = tree := by rw [ofTree_eq]

@[simp] theorem ofTree_parts (tree : Tree) : (ofTree tree).parts = tree.children.map ofTree := by
  rw [ofTree_eq]

end Reading

/-- In the tree of a lambda the second part holds the parameters. -/
theorem heads_of_derived {tree list : Tree} (derived : tree.Derived) (kind : tree.label = "lambda")
    (second : tree.children[1]? = some list) :
    ∀ parameter ∈ list.children, parameter.label ∈ parameterLabels := by
  have listed : list ∈ tree.children := List.mem_of_getElem? second
  rcases derived.produced with empty | production
  · rw [empty] at listed
    exact absurd listed List.not_mem_nil
  · have found : (tree.children.map Tree.label)[1]? = some list.label := by
      rw [List.getElem?_map, second]
      rfl
    rw [production.lambda_parts kind] at found
    have named : list.label = "parameters" := (Option.some.inj found).symm
    rcases (derived.inside list listed).produced with empty | production
    · rw [empty]
      exact List.forall_mem_nil _
    · exact List.forall_mem_map.mp (production.parameters_parts named)

theorem Reading.plain_of_children {tree : Tree} (derived : tree.Derived)
    (inside : ∀ child ∈ tree.children, (Reading.ofTree child).Plain) :
    (Reading.ofTree tree).Plain := by
  have heads : tree.label = "lambda" → ∀ list, (tree.children.map Reading.ofTree)[1]? = some list →
      ∀ parameter ∈ list.parts, parameter.tree.label ∈ parameterLabels := by
    intro kind list second
    rw [List.getElem?_map] at second
    obtain ⟨child, found, rfl⟩ := Option.map_eq_some_iff.mp second
    rw [Reading.ofTree_eq]
    intro parameter listed
    obtain ⟨grandchild, inner, rfl⟩ := List.mem_map.mp listed
    rw [Reading.ofTree_eq]
    exact heads_of_derived derived kind found grandchild inner
  rw [Reading.ofTree_eq]
  exact .intro (Reading.plain_nodeOf (List.forall_mem_map.mpr inside) heads)
    Reading.literal_nodeOf heads (List.forall_mem_map.mpr inside)

/-- By induction on the derivation. -/
theorem Reading.plain_ofTree {tree : Tree} (derived : tree.Derived) :
    (Reading.ofTree tree).Plain := by
  induction derived with
  | leaf spelled =>
      exact Reading.plain_of_children (.leaf spelled) (List.forall_mem_nil _)
  | branch place production last inside ih =>
      exact Reading.plain_of_children (.branch place production last inside) ih

/-- The statements of a module that was read from a text are plain. -/
theorem Module.plain_of_text {origin text : String} {module : Module}
    (read : Module.ofText origin text = .ok module) :
    ∀ statement ∈ module.statements, statement.Plain := by
  have plain : Ensures (Module.ofText origin text) fun module =>
      ∀ statement ∈ module.statements, statement.Plain := by
    have parsed : Ensures (Tree.ofText origin text) Tree.Derived :=
      fun tree parsed => (Concrete.derived_of_text parsed).1
    refine parsed.bind fun tree derived => .after fun _ => ?_
    have inside : ∀ part ∈ Reading.ofTrees tree.children, part.Plain := by
      rw [Reading.ofTrees_eq_map]
      exact List.forall_mem_map.mpr fun child listed =>
        Reading.plain_ofTree (derived.inside child listed)
    exact (Reading.plain_nodes inside).bind fun _ statements => .ok statements
  exact plain module read

/-- The node stands somewhere in a module that was read from a text. -/
inductive Node.Written : Node → Prop
  | statement {origin text : String} {module : Module} {node : Node}
    (read : Module.ofText origin text = .ok module) (stands : node ∈ module.statements) :
    Written node
  | inner {node inner : Node} (written : Written node) (inside : inner ∈ node.contents) :
    Written inner

theorem Node.Written.plain {node : Node} (written : node.Written) : node.Plain := by
  induction written with
  | statement read stands => exact Module.plain_of_text read _ stands
  | inner _ inside ih => exact ih.inner inside

end RipInterpreter.Syntax
