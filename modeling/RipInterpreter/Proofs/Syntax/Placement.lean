import RipInterpreter.Proofs.Syntax.PlainModules
import RipInterpreter.Proofs.Syntax.Standing

namespace RipInterpreter.Syntax

open Concrete (Tree)

variable {origin text : String}

namespace Reading

/-- The reading of a tree that stands in the text, part by part. -/
inductive Stands (origin text : String) : Reading → Prop
  | intro {reading : Reading} (own : reading.tree.StandsIn origin text)
    (node : Ensures reading.node (Node.StandsAt origin text reading.tree.positions))
    (covers : (reading.parts.flatMap fun part => part.tree.positions).Sublist
      reading.tree.positions)
    (inside : ∀ part ∈ reading.parts, part.Stands origin text) : Stands origin text reading

theorem Stands.own {reading : Reading} (stands : reading.Stands origin text) :
    reading.tree.StandsIn origin text := by
  cases stands with
  | intro own => exact own

theorem Stands.place {reading : Reading} (stands : reading.Stands origin text) :
    reading.tree.location.StandsIn origin text := stands.own.place

theorem Stands.nodeAt {reading : Reading} (stands : reading.Stands origin text) :
    Ensures reading.node (Node.StandsAt origin text reading.tree.positions) := by
  cases stands with
  | intro _ node => exact node

theorem Stands.node {reading : Reading} (stands : reading.Stands origin text) :
    Ensures reading.node (Node.Stands origin text) :=
  fun node read => (stands.nodeAt node read).stands

theorem Stands.covers {reading : Reading} (stands : reading.Stands origin text) :
    (reading.parts.flatMap fun part => part.tree.positions).Sublist reading.tree.positions := by
  cases stands with
  | intro _ _ covers => exact covers

theorem Stands.parts {reading : Reading} (stands : reading.Stands origin text) :
    ∀ part ∈ reading.parts, part.Stands origin text := by
  cases stands with
  | intro _ _ _ inside => exact inside

variable {tree : Tree} {parts : List Reading}

theorem stands_name (own : tree.location.StandsIn origin text) :
    Ensures (name tree) fun name => name.location.StandsIn origin text := .after fun _ => .ok own

theorem stands_glyph (own : tree.StandsIn origin text) :
    Ensures (glyph tree) fun glyph => glyph.location.StandsIn origin text ∧ glyph.Written text ∧
      (positions [glyph]).Sublist tree.positions := by
  unfold glyph
  split
  · rename_i c rest read
    obtain ⟨-, written, room⟩ := own.holds read
    refine .ok ⟨own.place, written 0 (Nat.zero_lt_succ _), .trans ?_ room⟩
    exact (List.nil_sublist _).cons_cons _
  · exact .error _

/-- A string has one character for an escape, at the backslash, and a pattern keeps both. -/
theorem stands_escaped {c : Char} {rest : List Char} (kind : TextKind)
    (own : tree.StandsIn origin text) (labelled : tree.label = "escape") {first : Char}
    (read : tree.content.toList = first :: c :: rest) :
    (∀ glyph ∈ kind.escaped c tree.location, glyph.Stands origin text kind) ∧
      (positions (kind.escaped c tree.location)).Sublist tree.positions := by
  obtain ⟨⟨content, holding, spelled⟩, written, room⟩ := own.holds read
  obtain ⟨escaped, same⟩ := own.escape labelled content holding
  -- The grammar has put the backslash in front, which the reading itself does not look at.
  cases spelled.symm.trans same
  have backslash : text.toList[tree.location.position]? = some '\\' :=
    written 0 (Nat.zero_lt_succ _)
  have behind : text.toList[tree.location.position + 1]? = some c :=
    written 1 (Nat.succ_lt_succ (Nat.zero_lt_succ _))
  cases kind with
  | string =>
      refine ⟨List.forall_mem_singleton.mpr ⟨own.place,
        .inr ⟨backslash, c, behind, standsFor_resolveEscape c⟩⟩, .trans ?_ room⟩
      exact (List.nil_sublist _).cons_cons _
  | regularExpression =>
      have next : (tree.location.advanceBy 1).StandsIn origin text := own.place.after backslash
      exact ⟨List.forall_mem_cons.mpr ⟨⟨own.place, backslash⟩,
        List.forall_mem_singleton.mpr ⟨next, behind⟩⟩, room⟩

section

variable (stands : ∀ part ∈ parts, part.Stands origin text)
include stands

theorem stands_part (index : Nat) : Ensures (part tree parts index) (Stands origin text) :=
  fun found read => stands found (List.mem_of_getElem? (part_stands index found read))

theorem stands_nodes : Ensures (nodes parts) fun found => ∀ node ∈ found, node.Stands origin text :=
  .mapM fun part listed => (stands part listed).node

/-- The statements of an interpolation. -/
theorem stands_interpolationBody : Ensures (interpolationBody parts) fun body =>
    ∀ statement ∈ body, statement.Stands origin text :=
  stands_nodes fun part listed => stands part (List.mem_filter.mp listed).1

theorem stands_payload : Ensures (payload parts) fun payload =>
    ∀ node ∈ payload.toList, node.Stands origin text := by
  cases parts with
  | nil => exact .ok (List.forall_mem_nil _)
  | cons first rest =>
      exact (stands first List.mem_cons_self).node.map fun _ node =>
        List.forall_mem_singleton.mpr node

/-- The glyphs of the operands come in the order of the operands. -/
theorem stands_operatorCalls {joined : Node} {before : List Nat}
    (first : joined.StandsAt origin text before)
    (rising : (before ++ parts.flatMap fun part => part.tree.positions).Pairwise (· < ·)) :
    Ensures (operatorCalls joined parts) (Node.StandsAt origin text
      (before ++ parts.flatMap fun part => part.tree.positions)) := by
  induction joined, parts using operatorCalls.induct generalizing before with
  | case1 joined operator operand rest ih =>
      obtain ⟨sign, more⟩ := List.forall_mem_cons.mp stands
      obtain ⟨second, others⟩ := List.forall_mem_cons.mp more
      rw [List.flatMap_cons, List.flatMap_cons, ← List.append_assoc, ← List.append_assoc] at rising ⊢
      refine second.nodeAt.bind fun argument found => ?_
      -- The operator between the operands holds characters of the tree, but none of a literal.
      have within : (positions (joined.glyphs ++ argument.glyphs)).Sublist
          (before ++ operator.tree.positions ++ operand.tree.positions) := by
        rw [positions, List.map_append]
        exact (first.within.trans (List.sublist_append_left _ _)).append found.within
      have front := (List.pairwise_append.mp rising).1.sublist within
      refine ih argument others
        ⟨Node.stands_operatorCall first.stands found.stands sign.place _ front, ?_⟩ rising
      rw [Node.glyphs_operatorCall]
      exact within
  | case2 joined links short =>
      unfold operatorCalls
      split
      · exact absurd rfl (short _ _ _)
      · exact .ok ⟨first.stands, first.within.trans (List.sublist_append_left _ _)⟩

theorem glyphs_nodes : Ensures (nodes parts) fun found =>
    (positions (Node.glyphsAll found)).Sublist (parts.flatMap fun part => part.tree.positions) := by
  have within : Ensures (nodes parts) fun found =>
      (found.flatMap fun node => positions node.glyphs).Sublist
        (parts.flatMap fun part => part.tree.positions) :=
    .mapM_sublist fun part listed node read => ((stands part listed).nodeAt node read).within
  intro found read
  rw [Node.glyphsAll_eq, positions, List.map_flatMap]
  exact within found read

variable (own : tree.StandsIn origin text)
include own

theorem stands_block : Ensures (block tree parts) (Block.Stands origin text) :=
  .after fun _ => (stands_nodes stands).bind fun _ statements => .ok ⟨own.place, statements⟩

omit own in
theorem stands_blockPart (index : Nat) :
    Ensures (blockPart tree parts index) (Block.Stands origin text) :=
  (stands_part stands index).bind fun _ body => stands_block body.parts body.own

theorem stands_pair : Ensures (pair tree parts) (Pair.Stands origin text) :=
  .after fun _ => (stands_part stands 0).bind fun _ first => first.node.bind fun _ key =>
    (stands_part stands 1).bind fun _ second => second.node.bind fun _ value =>
      .ok ⟨own.place, key, value⟩

theorem stands_lambda : Ensures (lambda tree parts) (Lambda.Stands origin text) :=
  .after fun _ => .after fun _ => (stands_part stands 1).bind fun _ list =>
    (stands_nodes list.parts).bind fun _ parameters => (stands_blockPart stands 2).bind
      fun _ body => .ok ⟨own.place, parameters, body⟩

theorem stands_clause : Ensures (clause tree parts) (Clause.Stands origin text) :=
  (stands_blockPart stands 0).bind fun _ body => .ok ⟨own.place, body⟩

theorem stands_case : Ensures (case tree parts) (Case.Stands origin text) :=
  (stands_part stands 0).bind fun _ first => (stands_nodes first.parts).bind fun _ matchers =>
    (stands_blockPart stands 1).bind fun _ body => .ok ⟨own.place, matchers, body⟩

theorem stands_handler : Ensures (handler tree parts) (Handler.Stands origin text) := by
  have body {part : Reading} (listed : part ∈ parts) :
      Ensures (block part.tree part.parts) (Block.Stands origin text) :=
    stands_block (stands part listed).parts (stands part listed).own
  have named {part : Reading} (listed : part ∈ parts) := stands_name (stands part listed).place
  unfold handler
  split
  · exact (named (by simp)).bind fun _ binding => (body (by simp)).bind fun _ body =>
      .ok ⟨own.place, List.forall_mem_nil _, binding, body⟩
  · exact (named (by simp)).bind fun _ matcher => (named (by simp)).bind fun _ binding =>
      (body (by simp)).bind fun _ body =>
        .ok ⟨own.place, List.forall_mem_singleton.mpr matcher, binding, body⟩
  · exact .error _

omit own in
theorem stands_elseBody : Ensures (elseBody tree parts) (Block.Stands origin text) := by
  refine .after fun _ => (stands_part stands 0).bind fun body inside => ?_
  split
  · exact stands_block inside.parts inside.own
  · exact inside.node.bind fun _ node => .ok ⟨inside.place, List.forall_mem_singleton.mpr node⟩

omit own in
theorem stands_arms {cases : List Case} {otherwise : Option Clause}
    (read : ∀ case ∈ cases, case.Stands origin text)
    (branch : ∀ clause ∈ otherwise.toList, clause.Stands origin text) :
    Ensures (arms cases otherwise parts) fun found =>
      (∀ case ∈ found.1, case.Stands origin text) ∧
        ∀ clause ∈ found.2.toList, clause.Stands origin text := by
  induction parts generalizing cases otherwise with
  | nil => exact .ok ⟨read, branch⟩
  | cons arm rest ih =>
      obtain ⟨one, more⟩ := List.forall_mem_cons.mp stands
      unfold arms
      split
      · exact (stands_case one.parts one.own).bind fun _ added =>
          ih more (List.forall_mem_append.mpr ⟨read, List.forall_mem_singleton.mpr added⟩) branch
      · split
        · exact (stands_clause one.parts one.own).bind fun _ last =>
            ih more read (List.forall_mem_singleton.mpr last)
        · exact .error _

omit own in
theorem stands_handlers {found : List Handler} {cleanup : Option Clause}
    (read : ∀ handler ∈ found, handler.Stands origin text)
    (branch : ∀ clause ∈ cleanup.toList, clause.Stands origin text) :
    Ensures (handlers found cleanup parts) fun found =>
      (∀ handler ∈ found.1, handler.Stands origin text) ∧
        ∀ clause ∈ found.2.toList, clause.Stands origin text := by
  induction parts generalizing found cleanup with
  | nil => exact .ok ⟨read, branch⟩
  | cons part rest ih =>
      obtain ⟨one, more⟩ := List.forall_mem_cons.mp stands
      unfold handlers
      split
      · exact (stands_handler one.parts one.own).bind fun _ added =>
          ih more (List.forall_mem_append.mpr ⟨read, List.forall_mem_singleton.mpr added⟩) branch
      · split
        · exact (stands_clause one.parts one.own).bind fun _ last =>
            ih more read (List.forall_mem_singleton.mpr last)
        · exact .error _

variable {room : List Nat}

theorem stands_assignment :
    Ensures (assignment tree parts) (Node.StandsAt origin text room) := by
  refine (stands_part stands 0).bind fun _ first => first.node.bind fun target assigned => ?_
  have valued : Ensures (do
      let value ← (← part tree parts 1).node
      return .assignment target value tree.location) (Node.StandsAt origin text room) :=
    (stands_part stands 1).bind fun _ second => second.node.bind fun value found =>
      .ok (.intro (List.forall_mem_singleton.mpr own.place) trivial rfl
        (List.forall_mem_cons.mpr ⟨assigned, List.forall_mem_singleton.mpr found⟩))
  split
  · exact valued
  · exact valued
  · exact .error _

theorem stands_conditional :
    Ensures (conditional tree parts) (Node.StandsAt origin text room) := by
  refine (stands_part stands 0).bind fun _ first => first.node.bind fun condition holds =>
    (stands_blockPart stands 1).bind fun given body => ?_
  have made {first second : Block} (body : first.Stands origin text)
      (other : second.Stands origin text) :
      (Node.conditional condition first second tree.location).StandsAt origin text room :=
    .intro (List.forall_mem_cons.mpr ⟨own.place, List.forall_mem_cons.mpr
        ⟨body.own, List.forall_mem_singleton.mpr other.own⟩⟩) trivial rfl
      (List.forall_mem_append.mpr
        ⟨List.forall_mem_cons.mpr ⟨holds, body.statements⟩, other.statements⟩)
  have finished {other : Block} (last : other.Stands origin text) : Ensures
      (if tree.label = "unless" then .ok (.conditional condition other given tree.location)
        else .ok (.conditional condition given other tree.location))
      (Node.StandsAt origin text room) := by
    split
    · exact .ok (made last body)
    · exact .ok (made body last)
  dsimp only
  split
  · rename_i branch found
    have inside := (stands branch (List.mem_of_getElem? found)).parts
    exact (stands_elseBody inside).bind fun _ last => finished last
  · exact finished ⟨body.own, List.forall_mem_nil _⟩

theorem stands_switch : Ensures (switch tree parts) (Node.StandsAt origin text room) := by
  cases parts with
  | nil => exact .error _
  | cons subject rest =>
      obtain ⟨one, more⟩ := List.forall_mem_cons.mp stands
      exact (stands_arms more (List.forall_mem_nil _) (List.forall_mem_nil _)).bind
        fun found met => one.node.bind fun _ first =>
          .ok (Node.stands_switch own.place first met.1 met.2)

theorem stands_attempt : Ensures (attempt tree parts) (Node.StandsAt origin text room) := by
  cases parts with
  | nil => exact .error _
  | cons body rest =>
      obtain ⟨one, more⟩ := List.forall_mem_cons.mp stands
      exact (stands_handlers more (List.forall_mem_nil _) (List.forall_mem_nil _)).bind
        fun found met => (stands_block one.parts one.own).bind fun _ body =>
          .ok (Node.stands_attempt own.place body met.1 met.2)

theorem stands_pieces (kind : TextKind) : Ensures (pieces kind tree parts) fun found =>
    (∀ piece ∈ found, piece.Stands origin text kind) ∧
      (positions (found.flatMap Piece.glyphs)).Sublist tree.positions := by
  unfold pieces
  split
  · refine (stands_glyph own).bind fun glyph ⟨place, written, within⟩ => .ok ⟨?_, within⟩
    have spells : kind.Spells text glyph := by
      cases kind with
      | string => exact .inl written
      | regularExpression => exact written
    exact List.forall_mem_singleton.mpr ⟨place, spells⟩
  · split
    · split
      · rename_i labelled _ _ _ _ read
        obtain ⟨each, within⟩ := stands_escaped kind own labelled read
        refine .ok ⟨List.forall_mem_map.mpr each, ?_⟩
        rw [List.flatMap_map]
        exact (List.flatMap_singleton' _).symm ▸ within
      · exact .error _
    · split
      · split
        · rename_i closing found
          have brace := stands closing (List.mem_of_find?_eq_some found)
          exact (stands_interpolationBody stands).bind fun _ body =>
            .ok ⟨List.forall_mem_singleton.mpr ⟨body, own.place, brace.place⟩, List.nil_sublist _⟩
        · exact .error _
      · exact .error _

variable (covers : (parts.flatMap fun part => part.tree.positions).Sublist tree.positions)
include covers

theorem stands_text (kind : TextKind) :
    Ensures (Reading.text kind tree parts) (Node.StandsAt origin text tree.positions) := by
  have each (part : Reading) (listed : part ∈ parts) :=
    stands_pieces (stands part listed).parts (stands part listed).own kind
  have found : Ensures (parts.mapM fun child => pieces kind child.tree child.parts) fun lists =>
      ∀ list ∈ lists, ∀ piece ∈ list, piece.Stands origin text kind :=
    .mapM fun part listed list read => (each part listed list read).1
  have rooms : Ensures (parts.mapM fun child => pieces kind child.tree child.parts) fun lists =>
      (lists.flatMap fun list => positions (list.flatMap Piece.glyphs)).Sublist
        (parts.flatMap fun part => part.tree.positions) :=
    .mapM_sublist fun part listed list read => (each part listed list read).2
  refine (found.and rooms).bind fun lists ⟨met, within⟩ => ?_
  have stand : ∀ piece ∈ lists.flatten, piece.Stands origin text kind := by
    intro piece listed
    obtain ⟨list, known, inside⟩ := List.mem_flatten.mp listed
    exact met list known piece inside
  have room : (positions ((Fragment.gather lists.flatten).flatMap Fragment.glyphs)).Sublist
      tree.positions := by
    rw [Fragment.glyphs_gather, ← List.flatMap_id, List.flatMap_assoc, positions, List.map_flatMap]
    exact within.trans covers
  refine .ok ⟨Node.stands_joinFragments own.place (Fragment.stands_gather stand)
    (own.rising.sublist room), ?_⟩
  rw [Node.glyphs_joinFragments]
  exact room

theorem stands_chain : Ensures (chain tree parts) (Node.StandsAt origin text tree.positions) := by
  cases parts with
  | nil => exact .error _
  | cons first links =>
      obtain ⟨one, more⟩ := List.forall_mem_cons.mp stands
      rw [List.flatMap_cons] at covers
      change Ensures (ite _ _ _) _
      split
      · refine one.nodeAt.bind fun _ node => ?_
        intro joined read
        have met := stands_operatorCalls more node (own.rising.sublist covers) joined read
        exact ⟨met.stands, met.within.trans covers⟩
      · exact .error _

theorem stands_invocation : Ensures (do
      let callable ← (← part tree parts 0).node
      let arguments ← nodes (← part tree parts 1).parts
      return .invocation callable arguments tree.location)
    (Node.StandsAt origin text tree.positions) := by
  refine ((part_stands 0).and (stands_part stands 0)).bind fun first ⟨leading, one⟩ =>
    one.nodeAt.bind fun callable called =>
      ((part_stands 1).and (stands_part stands 1)).bind fun second ⟨following, other⟩ =>
        ((stands_nodes other.parts).and (glyphs_nodes other.parts)).bind
          fun arguments ⟨given, within⟩ => ?_
  have both : (first.tree.positions ++ second.tree.positions).Sublist tree.positions := by
    cases parts with
    | nil => cases leading
    | cons head rest =>
        cases rest with
        | nil => cases following
        | cons next rest =>
            cases leading
            cases following
            rw [List.flatMap_cons, List.flatMap_cons, ← List.append_assoc] at covers
            exact (List.sublist_append_left _ _).trans covers
  have room : (positions (Node.invocation callable arguments tree.location).glyphs).Sublist
      tree.positions := by
    rw [Node.glyphs, positions, List.map_append]
    exact (called.within.append (within.trans other.covers)).trans both
  exact .ok ⟨.intro (List.forall_mem_singleton.mpr own.place) trivial (own.rising.sublist room)
    (List.forall_mem_cons.mpr ⟨called.stands, given⟩), room⟩

theorem stands_property : Ensures (do
      let object ← (← part tree parts 0).node
      let key ← part tree parts 1
      return .property object key.tree.content tree.location)
    (Node.StandsAt origin text tree.positions) := by
  refine ((part_stands 0).and (stands_part stands 0)).bind fun first ⟨leading, one⟩ =>
    one.nodeAt.bind fun object owner => .after fun key => ?_
  have among : first.tree.positions.Sublist (parts.flatMap fun part => part.tree.positions) := by
    cases parts with
    | nil => cases leading
    | cons head rest =>
        cases leading
        rw [List.flatMap_cons]
        exact List.sublist_append_left _ _
  have room := owner.within.trans (among.trans covers)
  exact .ok ⟨.intro (List.forall_mem_singleton.mpr own.place) trivial (own.rising.sublist room)
    (List.forall_mem_singleton.mpr owner.stands), room⟩

/-- By the label of the tree. -/
theorem stands_nodeOf :
    Ensures (nodeOf tree parts) (Node.StandsAt origin text tree.positions) := by
  have here := List.forall_mem_singleton.mpr own.place
  have range (exclusive : Bool) :
      Ensures (nodeOf.range tree parts exclusive) (Node.StandsAt origin text tree.positions) :=
    (stands_part stands 0).bind fun _ first => first.node.bind fun _ start =>
      (stands_part stands 1).bind fun _ second => second.node.bind fun _ last =>
        .ok (.intro here trivial rfl
          (List.forall_mem_cons.mpr ⟨start, List.forall_mem_singleton.mpr last⟩))
  have exits := stands_payload stands
  unfold nodeOf
  split
  · exact .ok (.intro here trivial rfl (List.forall_mem_nil _))
  · exact (stands_name own.place).map fun _ place =>
      .intro (List.forall_mem_singleton.mpr place) trivial rfl (List.forall_mem_nil _)
  · exact .ok (.intro here trivial rfl (List.forall_mem_nil _))
  · exact .ok (.intro here trivial rfl (List.forall_mem_nil _))
  · exact (stands_glyph own).map fun _ ⟨place, written, _⟩ =>
      .intro (List.forall_mem_singleton.mpr place) written rfl (List.forall_mem_nil _)
  · exact stands_text stands own covers .string
  · exact stands_text stands own covers .regularExpression
  · exact (stands_interpolationBody stands).bind fun _ body => .ok (.intro here trivial rfl body)
  · exact (stands_pair stands own).map fun _ pair =>
      .intro (List.forall_mem_singleton.mpr pair.own) trivial rfl
        (List.forall_mem_cons.mpr ⟨pair.key, List.forall_mem_singleton.mpr pair.value⟩)
  · exact range false
  · exact range true
  · exact (stands_nodes stands).bind fun _ items => .ok (.intro here trivial rfl items)
  · exact (Ensures.mapM fun child listed =>
      stands_pair (stands child listed).parts (stands child listed).own).bind fun _ pairs =>
        .ok (Node.stands_map own.place pairs)
  · exact stands_assignment stands own
  · exact stands_property stands own covers
  · exact stands_invocation stands own covers
  · exact stands_chain stands own covers
  · exact (stands_lambda stands own).map fun _ definition =>
      .intro definition.places trivial rfl definition.contents
  · exact (Ensures.mapM fun child listed =>
      stands_lambda (stands child listed).parts (stands child listed).own).bind
        fun _ definitions => .ok (Node.stands_overloads own.place definitions)
  · exact (stands_part stands 0).bind fun _ first => (stands_nodes first.parts).bind
      fun _ ancestors => (stands_blockPart stands 1).bind fun _ body =>
        .ok (.intro (List.forall_mem_cons.mpr ⟨own.place, List.forall_mem_singleton.mpr body.own⟩)
          trivial rfl (List.forall_mem_append.mpr ⟨ancestors, body.statements⟩))
  · exact (stands_block stands own).map fun _ body =>
      .intro (List.forall_mem_singleton.mpr body.own) trivial rfl body.statements
  · exact stands_conditional stands own
  · exact stands_conditional stands own
  · exact stands_switch stands own
  · exact stands_attempt stands own
  · exact (stands_part stands 0).bind fun _ first => first.node.bind fun _ payload =>
      .ok (.intro here trivial rfl (List.forall_mem_singleton.mpr payload))
  · exact exits.bind fun _ payload => .ok (.intro here trivial rfl payload)
  · exact exits.bind fun _ payload => .ok (.intro here trivial rfl payload)
  · exact .error _

end

/-- The reading of a tree stands in the text if the tree and its parts do: by induction on how the
tree is derived. -/
theorem stands_ofTree (derived : tree.Derived)
    (known : ∀ part, Tree.PartOf part tree → part.StandsIn origin text) :
    (ofTree tree).Stands origin text := by
  have whole {tree : Tree} (own : tree.StandsIn origin text)
      (inside : ∀ child ∈ tree.children, (ofTree child).Stands origin text) :
      (ofTree tree).Stands origin text := by
    have parts : ∀ part ∈ tree.children.map ofTree, part.Stands origin text :=
      List.forall_mem_map.mpr inside
    have covers : ((tree.children.map ofTree).flatMap fun part => part.tree.positions).Sublist
        tree.positions := by
      simpa only [List.flatMap_map, ofTree_tree] using tree.sublist_positions
    rw [ofTree_eq]
    exact .intro own (stands_nodeOf parts own covers) covers parts
  induction derived with
  | leaf spelled => exact whole (known _ (.whole _)) (List.forall_mem_nil _)
  | branch place production last inside ih =>
      exact whole (known _ (.whole _)) fun child listed =>
        ih child listed fun part among => known part (.inside listed among)

end Reading

/-- What is read from a text stands in it where it says, and the module does, too. -/
theorem Module.stands_of_text {text : String} {module : Module}
    (read : Module.ofText origin text = .ok module) :
    module.location.StandsIn origin text ∧
      ∀ statement ∈ module.statements, statement.Stands origin text := by
  have written : Ensures (Module.ofText origin text) fun module =>
      module.location.StandsIn origin text ∧
        ∀ statement ∈ module.statements, statement.Stands origin text := by
    have parsed : Ensures (Tree.ofText origin text) fun tree =>
        tree.Derived ∧ ∀ part, Tree.PartOf part tree → part.StandsIn origin text := by
      intro tree parsed
      have derived := (Concrete.derived_of_text parsed).1
      obtain ⟨after, matched⟩ := Concrete.ofText_eq_ok.mp parsed
      have follows : tree.Follows origin text :=
        Concrete.follows_of_matched (Nat.zero_le _) matched
      exact ⟨derived, fun part => follows.standsIn derived⟩
    refine parsed.bind fun tree ⟨derived, known⟩ => .after fun _ => ?_
    have read := Reading.stands_ofTree derived known
    rw [Reading.ofTree_eq] at read
    rw [Reading.ofTrees_eq_map]
    exact (Reading.stands_nodes read.parts).bind fun _ statements =>
      .ok ⟨(known tree (.whole tree)).place, statements⟩
  exact written module read

theorem Node.Stands.within {node tree : Node} (stands : tree.Stands origin text)
    (within : node.Within tree) : node.Stands origin text := by
  induction within with
  | whole => exact stands
  | inside listed _ ih => exact ih (stands.inner listed)

/-- In the syntax tree of a text, every place is one of that text. The characters of literals are
those that are written at their places, or, in strings, what the escapes there stand for, and within
a literal they come one behind the other, also across interpolations. -/
theorem Module.places_are_of_text {module : Module}
    (read : Module.ofText origin text = .ok module) :
    module.location.StandsIn origin text ∧
      ∀ statement ∈ module.statements, ∀ node : Node, node.Within statement →
        (∀ place ∈ node.places, place.StandsIn origin text) ∧ node.Spells text ∧
          (positions node.glyphs).Pairwise (· < ·) := by
  obtain ⟨own, statements⟩ := stands_of_text read
  refine ⟨own, fun statement listed node within => ?_⟩
  obtain ⟨places, spells, rising, -⟩ := (statements statement listed).within within
  exact ⟨places, spells, rising⟩

/-- A string with an escape and an interpolation, and a pattern with an escape on the next line. -/
theorem Module.places_are_of_text_with_escapes :
    let text := "\"a\\n#\x7b1\x7db\"\n/\\./"
    ∃ module, Module.ofText "sample" text = .ok module ∧ module.location.StandsIn "sample" text ∧
      (∀ statement ∈ module.statements,
        statement.Spells text ∧ (positions statement.glyphs).Pairwise (· < ·)) ∧
      module.statements.map (fun statement => statement.glyphs.map fun glyph =>
          (glyph.char, glyph.location.position, glyph.location.line, glyph.location.column)) =
        [[('a', 1, 1, 1), ('\n', 2, 1, 2), ('b', 8, 1, 8)], [('\\', 12, 2, 1), ('.', 13, 2, 2)]] := by
  intro text
  have checked : ((Module.ofText "sample" text).toOption.any fun module =>
      module.statements.map (fun statement => statement.glyphs.map fun glyph =>
          (glyph.char, glyph.location.position, glyph.location.line, glyph.location.column)) =
        [[('a', 1, 1, 1), ('\n', 2, 1, 2), ('b', 8, 1, 8)],
          [('\\', 12, 2, 1), ('.', 13, 2, 2)]]) = true := by decide +kernel
  cases parsed : Module.ofText "sample" text with
  | error error =>
      rw [parsed] at checked
      cases checked
  | ok module =>
      rw [parsed] at checked
      obtain ⟨own, known⟩ := places_are_of_text parsed
      exact ⟨module, rfl, own,
        fun statement listed => (known statement listed statement (.whole _)).2,
        of_decide_eq_true checked⟩

end RipInterpreter.Syntax
