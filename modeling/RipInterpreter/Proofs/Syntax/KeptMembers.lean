import RipInterpreter.Proofs.Syntax.DerivedMembers
import RipInterpreter.Proofs.Syntax.MemberLists

namespace RipInterpreter.Syntax

open Concrete (Tree)

variable {α : Type}

/-- The members have been read. What they add is below the entry of the tree, if it has one, and what
the tree itself adds otherwise. -/
def Member.Filled (member : Member) (item : Item) : Prop :=
  if member.hasEntry then
    ∃ outline, item.outlines = [outline] ∧ Gathered member.members outline.children
  else Gathered member.members item.outlines

namespace Reading

/-- Below the entry of a node; a chain of a single operand has no entry but that of the operand. -/
def belowNode (tree : Tree) (node : Node) : List Outline :=
  if tree.label == "binary" && tree.children.length == 1 then [node.outline]
  else node.outline.children

/-- By the label of the tree. -/
theorem settles_nodeOf {tree : Tree}
    (known : AllSettled tree.children) :
    Settles (fun node => Gathered (Member.ofNode tree) (belowNode tree node))
      (nodeOf tree (tree.children.map ofTree)) (nodeOf tree (Member.kept (Member.ofNode tree))) := by
  obtain ⟨label, place, text, children⟩ := tree
  change AllSettled children at known
  unfold nodeOf
  split
  all_goals try rename_i labelled; cases labelled
  · exact .ok (.nil _)
  · exact (settles_requireLabel.bind fun _ _ => .ok trivial).map fun _ (_ : True) => .nil _
  · exact .ok (.nil _)
  · exact .ok (.nil _)
  · exact settles_glyph.map fun _ _ => .nil _
  · exact settles_text .string known
  · exact settles_text .regularExpression known
  · exact (settles_interpolationBody known).bind fun _ gathered => .ok gathered
  · exact (settles_pair known).map fun _ gathered => gathered
  · exact settles_range known false
  · exact settles_range known true
  · exact (settles_nodes known).bind fun _ gathered => .ok gathered
  · exact (settles_pairs known).bind fun _ gathered => .ok gathered
  · exact settles_assignment known
  · exact settles_nodePart known rfl fun _ _ at₀ read => settles_part rfl fun name at₁ => by
      rw [ofTree_tree, ofTree_tree, Member.content_pruned]
      exact .ok (gathered_two at₀ at₁ read (Member.read_word name))
  · exact settles_nodePart known rfl fun _ _ at₀ read =>
      settles_itemsPart known rfl fun _ _ at₁ read₁ => .ok (gathered_two at₀ at₁ read read₁)
  · refine (settles_chain known).mono fun node gathered => ?_
    have same : belowNode ⟨"binary", place, text, children⟩ node =
        if children.length = 1 then [node.outline] else node.outline.children := by simp [belowNode]
    exact same ▸ gathered
  · exact (settles_lambda known).map fun _ gathered => gathered
  · exact (settles_lambdas known).bind fun _ gathered => .ok gathered
  · exact settles_itemsPart known rfl fun _ _ at₀ read =>
      (settles_blockPart rfl known).bind fun _ ⟨_, at₁, read₁⟩ =>
        .ok (gathered_two at₀ at₁ read read₁)
  · exact (settles_block known).map fun _ gathered => gathered
  · exact settles_conditional known
  · exact settles_conditional known
  · exact settles_switch known
  · exact settles_attempt known
  · exact settles_nodePart known rfl fun _ _ at₀ read => .ok (gathered_one at₀ read)
  · exact (settles_payload known).bind fun _ gathered => .ok gathered
  · exact (settles_payload known).bind fun _ gathered => .ok gathered
  · exact .error

end Reading

namespace Member

open Reading (nodeOf ofTree ofTree_eq ofTree_parts ofTrees_eq_map)

theorem map_pruned (members : List Member) :
    (members.map pruned).map ofTree = kept members := by
  rw [kept, List.map_map]
  rfl

theorem filled_of_node {tree : Tree} {node : Node}
    (gathered : Gathered (ofNode tree) (Reading.belowNode tree node)) :
    Filled ⟨tree, .node⟩ (.node node) := by
  unfold Reading.belowNode at gathered
  unfold Filled
  split at gathered
  · rename_i alone
    rw [if_neg (by simpa [hasEntry] using alone)]
    exact gathered
  · rename_i several
    rw [if_pos (by simpa [hasEntry, imp_iff_not_or] using several)]
    exact ⟨_, rfl, gathered⟩

/-- By the duty of the tree. -/
theorem settles_members {member : Member}
    (known : AllSettled member.tree.children) :
    Settles member.Filled member.read (Member.mk member.pruned member.duty).read := by
  rw [pruned_eq]
  obtain ⟨⟨label, place, text, children⟩, duty⟩ := member
  unfold read
  simp only [ofTree_parts, map_pruned]
  cases duty with
  | module =>
      rw [Module.ofTree, Module.ofTree, ofTrees_eq_map, ofTrees_eq_map, map_pruned]
      exact (Reading.settles_requireLabel.bind fun _ _ => (Reading.settles_nodes known).bind
        fun _ gathered => .ok ⟨_, rfl, gathered⟩).map fun _ => id
  | node =>
      rw [Node.ofTree, Node.ofTree, ofTree_eq, ofTree_eq, map_pruned]
      have settles : Settles _ (nodeOf ⟨label, place, text, children⟩ _) _ :=
        Reading.settles_nodeOf known
      exact settles.map fun _ => filled_of_node
  | items => exact (Reading.settles_nodes known).map fun _ gathered => gathered
  | branch => exact (Reading.settles_elseBody known).map fun _ gathered => gathered
  | case => exact (Reading.settles_case known).map fun _ gathered => ⟨_, rfl, gathered⟩
  | handler => exact (Reading.settles_handler known).map fun _ gathered => ⟨_, rfl, gathered⟩
  | clause kind => exact (Reading.settles_clause known kind).map fun _ gathered => ⟨_, rfl, gathered⟩
  | piece kind => exact (Reading.settles_pieces kind known).map fun _ gathered => gathered
  | word => exact .ok (.nil _)

/-- By induction on the tree. -/
theorem settled (member : Member) : member.Settled :=
  (settles_members fun child _ duty => settled ⟨child, duty⟩).mono fun _ _ => trivial
termination_by sizeOf member.tree
decreasing_by
  obtain ⟨⟨label, place, text, children⟩, own⟩ := member
  have within := List.sizeOf_lt_of_mem ‹child ∈ _›
  simp only [Tree.mk.sizeOf_spec] at within ⊢
  omega

theorem settles (member : Member) :
    Settles member.Filled member.read (Member.mk member.pruned member.duty).read :=
  settles_members fun child _ duty => settled ⟨child, duty⟩

/-- The member has been read, and the entry is its own. -/
def Makes (member : Member) (outline : Outline) : Prop :=
  ∃ item, member.read = .ok item ∧ item.outlines = [outline]

/-- The members that make entries have made some of these, each one of its own. -/
def Shown (members : List Member) (entries : List Outline) : Prop :=
  ∃ outlines, List.Forall₂ Makes (members.filter hasEntry) outlines ∧ outlines.Subperm entries

theorem Shown.append {members others : List Member} {entries more : List Outline}
    (front : Shown members entries) (back : Shown others more) :
    Shown (members ++ others) (entries ++ more) := by
  obtain ⟨outlines, reads, within⟩ := front
  obtain ⟨rest, readsRest, withinRest⟩ := back
  refine ⟨outlines ++ rest, ?_, within.append withinRest⟩
  rw [List.filter_append]
  exact List.rel_append reads readsRest

theorem shown_all {members : List Member} {items : List Item}
    (reads : List.Forall₂ (fun member item => member.read = .ok item) members items)
    (each : ∀ member ∈ members, ∀ item, member.read = .ok item →
      Shown member.all (Outline.entriesAll item.outlines)) :
    Shown (members.flatMap all) (Outline.entriesAll (items.flatMap Item.outlines)) := by
  induction reads with
  | nil => exact ⟨[], .nil, .refl _⟩
  | @cons member item members items read _ ih =>
      obtain ⟨first, others⟩ := List.forall_mem_cons.mp each
      rw [List.flatMap_cons, List.flatMap_cons, Outline.entriesAll_append]
      exact (first item read).append (ih others)

/-- By induction on the tree: the entry of a member is in front of those of its own members. -/
theorem shown_of_read (member : Member) {item : Item} (read : member.read = .ok item) :
    Shown member.all (Outline.entriesAll item.outlines) := by
  have inner {outlines : List Outline} (gathered : Gathered member.members outlines) :
      Shown (member.members.flatMap all) (Outline.entriesAll outlines) := by
    obtain ⟨items, reads, within⟩ := gathered
    obtain ⟨shown, listed, among⟩ :=
      shown_all reads fun inner _ item read => shown_of_read inner read
    exact ⟨shown, listed, among.trans within⟩
  have filled := (member.settles.met read).1
  rw [all_eq]
  unfold Filled at filled
  split at filled
  · rename_i entry
    obtain ⟨outline, same, gathered⟩ := filled
    obtain ⟨shown, listed, among⟩ := inner gathered
    refine ⟨outline :: shown, ?_, ?_⟩
    · rw [List.filter_cons_of_pos entry]
      exact .cons ⟨item, read, same⟩ listed
    · rw [same, Outline.entriesAll_singleton]
      exact (List.subperm_cons outline).mpr among
  · rename_i hidden
    obtain ⟨shown, listed, among⟩ := inner filled
    refine ⟨shown, ?_, among⟩
    rw [List.filter_cons_of_neg hidden]
    exact listed
termination_by sizeOf member.tree
decreasing_by exact sizeOf_lt ‹_›

/-- A reading that comes to a single entry: the members show in it, and pruning leaves it as it is. -/
theorem kept_of_read {convert : Tree → Except Error α} {wrap : α → Item} {tree : Tree}
    {duty : Duty} {value : α} {outline : Outline} (same : Function.Injective wrap)
    (reads : ∀ tree, Member.read ⟨tree, duty⟩ = wrap <$> convert tree)
    (single : (wrap value).outlines = [outline]) (read : convert tree = .ok value) :
    Shown (Member.mk tree duty).all outline.entries ∧
      convert (Member.mk tree duty).pruned = .ok value := by
  have found : Member.read ⟨tree, duty⟩ = .ok (wrap value) := by
    rw [reads, read]
    rfl
  constructor
  · have shown := shown_of_read _ found
    rwa [single, Outline.entriesAll, Outline.entriesAll, List.append_nil] at shown
  · have pruned := ((Member.mk tree duty).settles.met found).2
    rw [reads] at pruned
    cases left : convert (Member.mk tree duty).pruned with
    | error error =>
        rw [left] at pruned
        cases pruned
    | ok other =>
        rw [left] at pruned
        exact congrArg Except.ok (same (Except.ok.inj pruned))

end Member

open Member (Shown)

/-- A tree is refused with a compiler error that has a place, or whatever counts in it, at any depth,
makes its own entry in the outline. What does not count makes no difference: without it the tree reads
as the same. In the tree of a text there is nothing that does not count. -/
theorem readings_keep_members (tree : Tree) :
    (∀ error, Node.ofTree tree = .error error ∨ Module.ofTree tree = .error error →
      ∃ fault place, error = .compiler fault (some place)) ∧
    (∀ node, Node.ofTree tree = .ok node →
      Shown (Member.mk tree .node).all node.outline.entries ∧
        Node.ofTree (Member.mk tree .node).pruned = .ok node) ∧
    (∀ module, Module.ofTree tree = .ok module →
      Shown (Member.mk tree .module).all module.outline.entries ∧
        Module.ofTree (Member.mk tree .module).pruned = .ok module) ∧
    ∀ origin text, Tree.ofText origin text = .ok tree → (Member.mk tree .module).pruned = tree := by
  refine ⟨?_, fun node read => ?_, fun module read => ?_, fun origin text parsed => ?_⟩
  · rintro error (failed | failed)
    · exact (Member.mk tree .node).settles.located (congrArg (Item.node <$> ·) failed)
    · exact (Member.mk tree .module).settles.located (congrArg (Item.module <$> ·) failed)
  · exact Member.kept_of_read (fun _ _ => Item.node.inj) (fun _ => rfl) rfl read
  · exact Member.kept_of_read (fun _ _ => Item.module.inj) (fun _ => rfl) rfl read
  · have derived := Concrete.derived_of_text parsed
    exact Member.pruned_of_derived derived.1 .module derived.2

def numberAtStart (digits : String) : Tree := .leaf "integer" ⟨digits, .start "rspec"⟩

def branchAtStart (label : String) (children : List Tree) : Tree :=
  .branch label (.start "rspec") children

/-- A switch with two blocks for the rest. -/
def switchWithTwoRests : Tree :=
  branchAtStart "switch" [numberAtStart "1",
    branchAtStart "else" [branchAtStart "block" [numberAtStart "2"]],
    branchAtStart "else" [branchAtStart "block" [numberAtStart "3"]]]

theorem readings_keep_members_of_switch :
    ∃ node, Node.ofTree switchWithTwoRests = .ok node ∧
      Shown (Member.mk switchWithTwoRests .node).all node.outline.entries ∧
      Node.ofTree (Member.mk switchWithTwoRests .node).pruned = .ok node :=
  ⟨_, rfl, (readings_keep_members switchWithTwoRests).2.1 _ rfl⟩

/-- The number in the first of the two blocks is nowhere in what the switch reads as. -/
theorem earlier_else_is_dropped :
    (numberAtStart "2").PartOf switchWithTwoRests ∧
      Node.ofTree (numberAtStart "2") = .ok (.integer "2" (.start "rspec")) ∧
      ∃ node, Node.ofTree switchWithTwoRests = .ok node ∧
        (Node.integer "2" (.start "rspec")).outline ∉ node.outline.entries := by
  refine ⟨?_, rfl, _, rfl, fun listed => ?_⟩
  · have inside : (numberAtStart "2").PartOf (branchAtStart "block" [numberAtStart "2"]) :=
      .inside (.head _) (.whole _)
    exact .inside (.tail _ (.head _)) (.inside (.head _) inside)
  · have shown : some "2" ∈ List.map Outline.payload _ := List.mem_map.mpr ⟨_, listed, rfl⟩
    exact absurd shown (by decide)

end RipInterpreter.Syntax
