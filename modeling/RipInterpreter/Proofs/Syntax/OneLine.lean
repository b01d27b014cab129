import RipInterpreter.Proofs.Concrete.OneLine
import RipInterpreter.Proofs.Syntax.PlainModules
import RipInterpreter.Syntax.Outline

namespace RipInterpreter.Syntax

open Concrete (Tree Production textLabels)
open Text (OneLine)

variable {origin text : String}

namespace Node

/-- What a node itself shows, unless it is a string or a regular expression. -/
def words : Node → List String
  | .comment text _ => [text]
  | .reference name => [name.text]
  | .integer digits _ => [digits]
  | .decimal digits _ => [digits]
  | .character glyph => [.singleton glyph.char]
  | .property _ key _ => [key]
  | .attempt _ handlers _ _ =>
    handlers.map fun handler => handlerText handler.matcher handler.binding
  | _ => []

/-- The words of the node and of everything inside it are on one line. -/
inductive Inline : Node → Prop
  | intro {node : Node} (own : ∀ word ∈ node.words, OneLine word)
    (inside : ∀ inner ∈ node.contents, inner.Inline) : Inline node

theorem Inline.own {node : Node} (inline : node.Inline) : ∀ word ∈ node.words, OneLine word := by
  cases inline with
  | intro own => exact own

theorem Inline.inside {node : Node} (inline : node.Inline) :
    ∀ inner ∈ node.contents, inner.Inline := by
  cases inline with
  | intro _ inside => exact inside

/-- Most nodes have no words of their own. -/
theorem Inline.silent {node : Node} (silent : node.words = [])
    (inside : ∀ inner ∈ node.contents, inner.Inline) : node.Inline :=
  .intro (by simp [silent]) inside

theorem Inline.word {node : Node} {word : String} (single : node.words = [word])
    (holds : OneLine word) (inside : ∀ inner ∈ node.contents, inner.Inline) : node.Inline :=
  .intro (by simp [single, holds]) inside

def AllInline (nodes : List Node) : Prop := ∀ node ∈ nodes, node.Inline

end Node

open Node (AllInline)

def Block.Inline (block : Block) : Prop := AllInline block.statements

def Pair.Inline (pair : Pair) : Prop := pair.key.Inline ∧ pair.value.Inline

def Lambda.Inline (definition : Lambda) : Prop :=
  AllInline (definition.parameters ++ definition.body.statements)

def Case.Inline (case : Case) : Prop := AllInline (case.matchers ++ case.body.statements)

def Clause.Inline (clause : Clause) : Prop := AllInline clause.body.statements

structure Handler.Inline (handler : Handler) : Prop where
  shows : OneLine (handlerText handler.matcher handler.binding)
  body : handler.body.Inline

namespace Node

variable {place : Location} {kind : TextKind} {fragments : List Fragment}

theorem inline_literal (glyphs : List Glyph) (place : Location) :
    (kind.literal glyphs place).Inline := by
  cases kind <;> exact .silent rfl (List.forall_mem_nil _)

theorem inline_operatorCall {receiver argument : Node} {operator : String} (first : receiver.Inline)
    (second : argument.Inline) (holds : OneLine operator) :
    (operatorCall receiver operator place argument).Inline := by
  have property : (Node.property receiver operator place).Inline :=
    .word rfl holds (List.forall_mem_singleton.mpr first)
  exact .silent rfl (List.forall_mem_cons.mpr ⟨property, List.forall_mem_singleton.mpr second⟩)

theorem inline_appendFragments {joined : Node} {closing : Option Location} (first : joined.Inline)
    (inside : ∀ body location next, .interpolated body location next ∈ fragments →
      AllInline body) : (appendFragments kind place joined closing fragments).Inline := by
  induction fragments generalizing joined closing with
  | nil => exact first
  | cons fragment rest ih =>
      have plus : OneLine "+" := by decide
      have others := fun body location next listed =>
        inside body location next (List.mem_cons_of_mem fragment listed)
      cases fragment with
      | literal glyphs => exact ih (inline_operatorCall first (inline_literal _ _) plus) others
      | interpolated body location next =>
          have inner : (Node.interpolation body location).Inline :=
            .silent rfl (inside body location next List.mem_cons_self)
          exact ih (inline_operatorCall first inner plus) others

theorem inline_joinFragments (inside : ∀ body location next,
      .interpolated body location next ∈ fragments → AllInline body) :
    (joinFragments kind place fragments).Inline := by
  cases fragments with
  | nil => exact inline_literal _ _
  | cons fragment rest =>
      have others := fun body location next listed =>
        inside body location next (List.mem_cons_of_mem fragment listed)
      cases fragment with
      | literal glyphs => exact inline_appendFragments (inline_literal _ _) others
      | interpolated body location next =>
          cases kind with
          | string =>
              have inner : (Node.interpolation body location).Inline :=
                .silent rfl (inside body location next List.mem_cons_self)
              exact inline_appendFragments inner others
          | regularExpression => exact inline_appendFragments (inline_literal _ _) inside

end Node

theorem Fragment.mem_gather {body : List Node} {location next : Location} {pieces : List Piece}
    (listed : .interpolated body location next ∈ gather pieces) :
    .interpolated body location next ∈ pieces := by
  induction pieces with
  | nil => cases listed
  | cons piece rest ih =>
      cases piece with
      | glyph glyph =>
          unfold gather at listed
          split at listed
          · rename_i glyphs more gathered
            have later := (List.mem_cons.mp listed).resolve_left nofun
            exact List.mem_cons_of_mem _ (ih (gathered ▸ List.mem_cons_of_mem _ later))
          · exact List.mem_cons_of_mem _ (ih ((List.mem_cons.mp listed).resolve_left nofun))
      | interpolated inner first closing =>
          rcases List.mem_cons.mp listed with same | later
          · cases same
            exact List.mem_cons_self
          · exact List.mem_cons_of_mem _ (ih later)

/-- The parts that are read for their own parts, whatever their label is. -/
def listSeats : List (String × Nat) :=
  [("lambda", 1), ("invocation", 1), ("case", 0), ("class", 0)]

theorem no_text_of_seat {label part : String} {parts : List String} {index : Nat}
    (production : Production label parts) (seat : (label, index) ∈ listSeats)
    (found : parts[index]? = some part) : part ∉ textLabels := by
  have labelled : label ∈ listSeats.map Prod.fst := List.mem_map.mpr ⟨_, seat, rfl⟩
  cases production with
  | lambda | invocation | case | classDefinition =>
      obtain rfl := by simpa [listSeats] using seat
      obtain rfl := by simpa using found
      decide
  | text kind | range kind | values kind | statements kind | conditional kind | leaving kind =>
      exfalso
      clear seat
      revert label
      decide
  | _ => exact absurd labelled (by decide)

namespace Reading

/-- The reading of a tree on one line, and of its parts. -/
inductive Inline : Reading → Prop
  | intro {reading : Reading} (content : OneLine reading.tree.content)
    (node : Ensures reading.node Node.Inline)
    (lists : ∀ index list, (reading.tree.label, index) ∈ listSeats →
      reading.parts[index]? = some list → list.tree.label ∉ textLabels)
    (inside : ∀ part ∈ reading.parts,
      (reading.tree.label ∈ textLabels → part.tree.label = "interpolation") → part.Inline) :
    Inline reading

theorem Inline.content {reading : Reading} (inline : reading.Inline) :
    OneLine reading.tree.content := by
  cases inline with
  | intro content => exact content

theorem Inline.node {reading : Reading} (inline : reading.Inline) :
    Ensures reading.node Node.Inline := by
  cases inline with
  | intro _ node => exact node

/-- What is known of the parts of a tree. -/
structure Inner (tree : Tree) (parts : List Reading) : Prop where
  lists : ∀ index list, (tree.label, index) ∈ listSeats → parts[index]? = some list →
    list.tree.label ∉ textLabels
  inside : ∀ part ∈ parts, (tree.label ∈ textLabels → part.tree.label = "interpolation") →
    part.Inline

theorem Inline.inner {reading : Reading} (inline : reading.Inline) :
    Inner reading.tree reading.parts := by
  cases inline with
  | intro _ _ lists inside => exact ⟨lists, inside⟩

variable {tree : Tree} {parts : List Reading} {labels : List String}

theorem Inner.each (inner : Inner tree parts) (other : tree.label ∉ textLabels) :
    ∀ part ∈ parts, part.Inline :=
  fun part listed => inner.inside part listed fun text => absurd text other

/-- The parts, if the label has been looked at. -/
theorem Inner.known (inner : Inner tree parts) (known : tree.label ∈ labels)
    (others : ∀ label ∈ labels, label ∉ textLabels) : ∀ part ∈ parts, part.Inline :=
  inner.each (others _ known)

theorem inline_name (content : OneLine tree.content) :
    Ensures (name tree) fun name => OneLine name.text := .after fun _ => .ok content

theorem inline_glyph (content : OneLine tree.content) :
    Ensures (glyph tree) fun glyph => OneLine (.singleton glyph.char) := by
  unfold glyph
  split
  · rename_i c rest read
    rw [OneLine, read] at content
    exact .ok (by simpa [OneLine] using List.ne_of_not_mem_cons content)
  · exact .error _

section

variable (inside : ∀ part ∈ parts, part.Inline)
include inside

theorem inline_part (index : Nat) : Ensures (part tree parts index) Inline :=
  fun found read => inside found (List.mem_of_getElem? (part_stands index found read))

theorem inline_nodes : Ensures (nodes parts) AllInline :=
  .mapM fun part listed => (inside part listed).node

theorem inline_interpolationBody : Ensures (interpolationBody parts) AllInline :=
  inline_nodes fun part listed => inside part (List.mem_filter.mp listed).1

theorem inline_payload :
    Ensures (payload parts) fun payload => AllInline payload.toList := by
  cases parts with
  | nil => exact .ok (List.forall_mem_nil _)
  | cons first rest =>
      exact (inside first List.mem_cons_self).node.map fun _ node =>
        List.forall_mem_singleton.mpr node

theorem inline_operatorCalls {joined : Node} (first : joined.Inline) :
    Ensures (operatorCalls joined parts) Node.Inline := by
  induction joined, parts using operatorCalls.induct with
  | case1 joined operator operand rest ih =>
      obtain ⟨sign, more⟩ := List.forall_mem_cons.mp inside
      obtain ⟨second, others⟩ := List.forall_mem_cons.mp more
      exact second.node.bind fun argument written =>
        ih argument others (Node.inline_operatorCall first written sign.content)
  | case2 joined links short =>
      unfold operatorCalls
      split
      · exact absurd rfl (short _ _ _)
      · exact .ok first

theorem inline_chain : Ensures (chain tree parts) Node.Inline := by
  cases parts with
  | nil => exact .error _
  | cons first links =>
      obtain ⟨one, more⟩ := List.forall_mem_cons.mp inside
      change Ensures (ite _ _ _) _
      split
      · exact one.node.bind fun _ first => inline_operatorCalls more first
      · exact .error _

end

theorem inline_block (inner : Inner tree parts) : Ensures (block tree parts) Block.Inline :=
  (requireLabel_known _).bind fun _ kind =>
    (inline_nodes (inner.known kind (by decide))).bind fun _ statements => .ok statements

theorem inline_pair (inner : Inner tree parts) : Ensures (pair tree parts) Pair.Inline := by
  refine (requireLabel_known _).bind fun _ kind => ?_
  have inside := inner.known kind (by decide)
  exact (inline_part inside 0).bind fun _ first => first.node.bind fun _ key =>
    (inline_part inside 1).bind fun _ second => second.node.bind fun _ value => .ok ⟨key, value⟩

section

variable (inside : ∀ part ∈ parts, part.Inline)
include inside

theorem inline_blockPart (index : Nat) : Ensures (blockPart tree parts index) Block.Inline :=
  (inline_part inside index).bind fun _ body => inline_block body.inner

theorem inline_clause : Ensures (clause tree parts) Clause.Inline :=
  (inline_blockPart inside 0).bind fun _ body => .ok body

theorem inline_assignment : Ensures (assignment tree parts) Node.Inline := by
  refine (inline_part inside 0).bind fun _ first => first.node.bind fun target assigned => ?_
  have valued : Ensures (do
      let value ← (← part tree parts 1).node
      return .assignment target value tree.location) Node.Inline :=
    (inline_part inside 1).bind fun _ second => second.node.bind fun value written =>
      .ok (.silent rfl (List.forall_mem_cons.mpr ⟨assigned, List.forall_mem_singleton.mpr written⟩))
  split
  · exact valued
  · exact valued
  · exact .error _

theorem inline_handler : Ensures (handler tree parts) Handler.Inline := by
  have named {part : Reading} (listed : part ∈ parts) := inline_name (inside part listed).content
  have body {part : Reading} (listed : part ∈ parts) := inline_block (inside part listed).inner
  have space : OneLine " " := by decide
  unfold handler
  split
  · exact (named (by simp)).bind fun _ binding => (body (by simp)).bind fun _ block =>
      .ok ⟨binding, block⟩
  · exact (named (by simp)).bind fun _ matcher => (named (by simp)).bind fun _ binding =>
      (body (by simp)).bind fun _ block => .ok ⟨by simp [handlerText, *], block⟩
  · exact .error _

end

/-- The part is a list, and its own parts are read. -/
theorem inline_list (index : Nat) (inner : Inner tree parts)
    (seat : (tree.label, index) ∈ listSeats) (other : tree.label ∉ textLabels) :
    Ensures (part tree parts index) fun list => ∀ part ∈ list.parts, part.Inline := by
  intro list read
  have stands := part_stands index list read
  have inline := inner.each other list (List.mem_of_getElem? stands)
  exact inline.inner.each (inner.lists index list seat stands)

theorem inline_lambda (inner : Inner tree parts) : Ensures (lambda tree parts) Lambda.Inline := by
  refine (requireLabel_known _).bind fun _ kind => .after fun _ => ?_
  have label : tree.label = "lambda" := List.mem_singleton.mp kind
  have inside := inner.known kind (by decide)
  have list := inline_list 1 inner (by rw [label]; decide) (by rw [label]; decide)
  exact list.bind fun _ each => (inline_nodes each).bind fun _ parameters =>
    (inline_blockPart inside 2).bind fun _ body =>
      .ok (List.forall_mem_append.mpr ⟨parameters, body⟩)

theorem inline_case (inner : Inner tree parts) (label : tree.label = "case") :
    Ensures (case tree parts) Case.Inline := by
  have inside := inner.known (List.mem_singleton.mpr label) (by decide)
  have list := inline_list 0 inner (by rw [label]; decide) (by rw [label]; decide)
  exact list.bind fun _ each => (inline_nodes each).bind fun _ matchers =>
    (inline_blockPart inside 1).bind fun _ body =>
      .ok (List.forall_mem_append.mpr ⟨matchers, body⟩)

theorem inline_elseBody (inner : Inner tree parts) :
    Ensures (elseBody tree parts) Block.Inline := by
  refine (requireLabel_known _).bind fun _ kind => ?_
  refine (inline_part (inner.known kind (by decide)) 0).bind fun body first => ?_
  split
  · exact inline_block first.inner
  · exact first.node.bind fun _ node => .ok (List.forall_mem_singleton.mpr node)

theorem inline_conditional (inside : ∀ part ∈ parts, part.Inline) :
    Ensures (conditional tree parts) Node.Inline := by
  refine (inline_part inside 0).bind fun _ first => first.node.bind fun condition holds =>
    (inline_blockPart inside 1).bind fun given body => ?_
  have made {first second : Block} (body : first.Inline) (other : second.Inline) :
      (Node.conditional condition first second tree.location).Inline :=
    .silent rfl (List.forall_mem_append.mpr ⟨List.forall_mem_cons.mpr ⟨holds, body⟩, other⟩)
  have finished {other : Block} (last : other.Inline) : Ensures
      (if tree.label = "unless" then .ok (.conditional condition other given tree.location)
        else .ok (.conditional condition given other tree.location)) Node.Inline := by
    split
    · exact .ok (made last body)
    · exact .ok (made body last)
  dsimp only
  split
  · rename_i branch found
    have inner := (inside branch (List.mem_of_getElem? found)).inner
    exact (inline_elseBody inner).bind fun _ last => finished last
  · exact finished (List.forall_mem_nil _)

section

variable (inside : ∀ part ∈ parts, part.Inline)
include inside

theorem inline_arms {cases : List Case} {otherwise : Option Clause}
    (read : ∀ case ∈ cases, case.Inline) (branch : ∀ clause ∈ otherwise.toList, clause.Inline) :
    Ensures (arms cases otherwise parts) fun found =>
      (∀ case ∈ found.1, case.Inline) ∧ ∀ clause ∈ found.2.toList, clause.Inline := by
  induction parts generalizing cases otherwise with
  | nil => exact .ok ⟨read, branch⟩
  | cons arm rest ih =>
      obtain ⟨one, more⟩ := List.forall_mem_cons.mp inside
      unfold arms
      split
      · exact (inline_case one.inner ‹_›).bind fun _ added =>
          ih more (List.forall_mem_append.mpr ⟨read, List.forall_mem_singleton.mpr added⟩) branch
      · split
        · have each := one.inner.known (List.mem_singleton.mpr ‹_›) (by decide)
          exact (inline_clause each).bind fun _ last =>
            ih more read (List.forall_mem_singleton.mpr last)
        · exact .error _

theorem inline_switch : Ensures (switch tree parts) Node.Inline := by
  cases parts with
  | nil => exact .error _
  | cons subject rest =>
      obtain ⟨one, more⟩ := List.forall_mem_cons.mp inside
      have start : Ensures (arms [] none rest) fun found =>
          (∀ case ∈ found.1, case.Inline) ∧ ∀ clause ∈ found.2.toList, clause.Inline :=
        inline_arms more (List.forall_mem_nil _) (List.forall_mem_nil _)
      refine start.bind fun found met => one.node.bind fun _ first => .ok (.silent rfl ?_)
      exact List.forall_mem_append.mpr ⟨List.forall_mem_cons.mpr
        ⟨first, List.forall_mem_flatMap.mpr met.1⟩, List.forall_mem_flatMap.mpr met.2⟩

theorem inline_handlers {found : List Handler} {cleanup : Option Clause}
    (read : ∀ handler ∈ found, handler.Inline) (branch : ∀ clause ∈ cleanup.toList, clause.Inline) :
    Ensures (handlers found cleanup parts) fun found =>
      (∀ handler ∈ found.1, handler.Inline) ∧ ∀ clause ∈ found.2.toList, clause.Inline := by
  induction parts generalizing found cleanup with
  | nil => exact .ok ⟨read, branch⟩
  | cons part rest ih =>
      obtain ⟨one, more⟩ := List.forall_mem_cons.mp inside
      unfold handlers
      split
      · have each := one.inner.known (List.mem_singleton.mpr ‹_›) (by decide)
        exact (inline_handler each).bind fun _ added =>
          ih more (List.forall_mem_append.mpr ⟨read, List.forall_mem_singleton.mpr added⟩) branch
      · split
        · have each := one.inner.known (List.mem_singleton.mpr ‹_›) (by decide)
          exact (inline_clause each).bind fun _ last =>
            ih more read (List.forall_mem_singleton.mpr last)
        · exact .error _

theorem inline_attempt : Ensures (attempt tree parts) Node.Inline := by
  cases parts with
  | nil => exact .error _
  | cons body rest =>
      obtain ⟨one, more⟩ := List.forall_mem_cons.mp inside
      have start : Ensures (handlers [] none rest) fun found =>
          (∀ handler ∈ found.1, handler.Inline) ∧ ∀ clause ∈ found.2.toList, clause.Inline :=
        inline_handlers more (List.forall_mem_nil _) (List.forall_mem_nil _)
      refine start.bind fun found met => (inline_block one.inner).bind fun _ body =>
        .ok (.intro ?_ ?_)
      · exact List.forall_mem_map.mpr fun handler listed => (met.1 handler listed).shows
      · exact List.forall_mem_append.mpr ⟨List.forall_mem_append.mpr ⟨body,
          List.forall_mem_flatMap.mpr fun handler listed => (met.1 handler listed).body⟩,
            List.forall_mem_flatMap.mpr met.2⟩

end

/-- Characters and escapes may hold line feeds, but interpolations do not. -/
theorem inline_pieces (kind : TextKind) {part : Reading}
    (inline : part.tree.label = "interpolation" → part.Inline) :
    Ensures (pieces kind part.tree part.parts) fun found => ∀ body location next,
      .interpolated body location next ∈ found → AllInline body := by
  unfold pieces
  split
  · exact .after fun _ => .ok (by simp)
  · split
    · split
      · exact .ok (by simp)
      · exact .error _
    · split
      · have inside := (inline ‹_›).inner.known (List.mem_singleton.mpr ‹_›) (by decide)
        split
        · refine (inline_interpolationBody inside).bind fun body each => .ok ?_
          intro found location next listed
          cases List.mem_singleton.mp listed
          exact each
        · exact .error _
      · exact .error _

theorem inline_text (kind : TextKind) (inner : Inner tree parts) :
    Ensures (Reading.text kind tree parts) Node.Inline := by
  have found : Ensures (parts.mapM fun child => pieces kind child.tree child.parts) fun lists =>
      ∀ list ∈ lists, ∀ body location next, .interpolated body location next ∈ list →
        AllInline body :=
    .mapM fun part listed => inline_pieces kind fun label => inner.inside part listed fun _ => label
  refine found.bind fun lists met => .ok (Node.inline_joinFragments ?_)
  intro body location next listed
  obtain ⟨list, known, inside⟩ := List.mem_flatten.mp (Fragment.mem_gather listed)
  exact met list known body location next inside

/-- By the label of the tree. -/
theorem inline_nodeOf (content : OneLine tree.content) (inner : Inner tree parts)
    (other : tree.label ∉ textLabels) : Ensures (nodeOf tree parts) Node.Inline := by
  have inside := inner.each other
  have one {node : Node} (first : node.Inline) : AllInline [node] :=
    List.forall_mem_singleton.mpr first
  have two {node another : Node} (first : node.Inline) (second : another.Inline) :
      AllInline [node, another] := List.forall_mem_cons.mpr ⟨first, one second⟩
  have range (exclusive : Bool) : Ensures (nodeOf.range tree parts exclusive) Node.Inline :=
    (inline_part inside 0).bind fun _ first => first.node.bind fun _ start =>
      (inline_part inside 1).bind fun _ second => second.node.bind fun _ last =>
        .ok (.silent rfl (two start last))
  have exits := inline_payload inside
  unfold nodeOf
  split
  · exact .ok (.word rfl content (List.forall_mem_nil _))
  · exact (inline_name content).map fun _ holds => .word rfl holds (List.forall_mem_nil _)
  · exact .ok (.word rfl content (List.forall_mem_nil _))
  · exact .ok (.word rfl content (List.forall_mem_nil _))
  · exact (inline_glyph content).map fun _ holds => .word rfl holds (List.forall_mem_nil _)
  · exact inline_text .string inner
  · exact inline_text .regularExpression inner
  · exact (inline_interpolationBody inside).bind fun _ body => .ok (.silent rfl body)
  · exact (inline_pair inner).map fun _ pair => .silent rfl (two pair.1 pair.2)
  · exact range false
  · exact range true
  · exact (inline_nodes inside).bind fun _ items => .ok (.silent rfl items)
  · have pairs : Ensures (parts.mapM fun child => pair child.tree child.parts) fun pairs =>
        ∀ pair ∈ pairs, pair.Inline :=
      .mapM fun child listed => inline_pair (inside child listed).inner
    exact pairs.bind fun _ met => .ok (.silent rfl (List.forall_mem_flatMap.mpr
      fun pair listed => two (met pair listed).1 (met pair listed).2))
  · exact inline_assignment inside
  · exact (inline_part inside 0).bind fun _ first => first.node.bind fun _ object =>
      (inline_part inside 1).bind fun _ key => .ok (.word rfl key.content (one object))
  · rename_i label
    have list := inline_list 1 inner (by rw [label]; decide) other
    exact (inline_part inside 0).bind fun _ first => first.node.bind fun _ callable =>
      list.bind fun _ each => (inline_nodes each).bind fun _ arguments =>
        .ok (.silent rfl (List.forall_mem_cons.mpr ⟨callable, arguments⟩))
  · exact inline_chain inside
  · exact (inline_lambda inner).map fun _ definition => .silent rfl definition
  · have definitions : Ensures (parts.mapM fun child => lambda child.tree child.parts)
        fun definitions => ∀ definition ∈ definitions, definition.Inline :=
      .mapM fun child listed => inline_lambda (inside child listed).inner
    exact definitions.bind fun _ met => .ok (.silent rfl (List.forall_mem_flatMap.mpr met))
  · rename_i label
    have list := inline_list 0 inner (by rw [label]; decide) other
    exact list.bind fun _ each => (inline_nodes each).bind fun _ ancestors =>
      (inline_blockPart inside 1).bind fun _ body =>
        .ok (.silent rfl (List.forall_mem_append.mpr ⟨ancestors, body⟩))
  · exact (inline_block inner).map fun _ body => .silent rfl body
  · exact inline_conditional inside
  · exact inline_conditional inside
  · exact inline_switch inside
  · exact inline_attempt inside
  · exact (inline_part inside 0).bind fun _ first => first.node.bind fun _ payload =>
      .ok (.silent rfl (one payload))
  · exact exits.bind fun _ payload => .ok (.silent rfl payload)
  · exact exits.bind fun _ payload => .ok (.silent rfl payload)
  · exact .error _

theorem inline_nodeOf_text (inner : Inner tree parts) (kind : tree.label ∈ textLabels) :
    Ensures (nodeOf tree parts) Node.Inline := by
  have spelled : tree.label = "string" ∨ tree.label = "regular_expression" := by
    simpa [textLabels] using kind
  unfold nodeOf
  rcases spelled with label | label <;> rw [label]
  · exact inline_text .string inner
  · exact inline_text .regularExpression inner

theorem inline_of_children (derived : tree.Derived) (inline : tree.Inline)
    (inside : ∀ child ∈ tree.children, child.Inline → (ofTree child).Inline) :
    (ofTree tree).Inline := by
  have inner : Inner tree (tree.children.map ofTree) := by
    refine ⟨fun index list seat found => ?_, fun part listed known => ?_⟩
    · rw [List.getElem?_map] at found
      obtain ⟨child, stands, rfl⟩ := Option.map_eq_some_iff.mp found
      rcases derived.produced with empty | production
      · simp [empty] at stands
      · exact no_text_of_seat production seat (by simp [stands])
    · obtain ⟨child, among, rfl⟩ := List.mem_map.mp listed
      exact inside child among (inline.inside among (by simpa using known))
  rw [ofTree_eq]
  refine .intro inline.content ?_ inner.lists inner.inside
  by_cases kind : tree.label ∈ textLabels
  · exact inline_nodeOf_text inner kind
  · exact inline_nodeOf inline.content inner kind

/-- By induction on the derivation. -/
theorem inline_ofTree (derived : tree.Derived) (inline : tree.Inline) : (ofTree tree).Inline := by
  induction derived with
  | leaf spelled => exact inline_of_children (.leaf spelled) inline (List.forall_mem_nil _)
  | branch place production last inside ih =>
      exact inline_of_children (.branch place production last inside) inline ih

end Reading

theorem Module.inline_of_text {module : Module} (read : Module.ofText origin text = .ok module) :
    AllInline module.statements := by
  have inline : Ensures (Module.ofText origin text) fun module => AllInline module.statements := by
    have parsed : Ensures (Tree.ofText origin text) fun tree => tree.Derived ∧ tree.Inline :=
      fun tree parsed => ⟨(Concrete.derived_of_text parsed).1, Concrete.inline_of_text parsed⟩
    refine parsed.bind fun tree met => (Reading.requireLabel_known _).bind fun _ kind => ?_
    have inner := (Reading.inline_ofTree met.1 met.2).inner
    rw [Reading.ofTree_eq] at inner
    rw [Reading.ofTrees_eq_map]
    exact (Reading.inline_nodes (inner.known kind (by decide))).bind fun _ statements =>
      .ok statements
  exact inline module read

end RipInterpreter.Syntax
