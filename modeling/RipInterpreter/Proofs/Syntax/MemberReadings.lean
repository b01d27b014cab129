import RipInterpreter.Proofs.Syntax.PlainModules
import RipInterpreter.Proofs.Syntax.Settling

namespace RipInterpreter.Syntax

open Concrete (Tree)
open Outline (Among)

variable {α : Type}

/-- Reading the member settles, also beside the reading of what pruning leaves of it. -/
def Member.Settled (member : Member) : Prop :=
  Settles (fun _ => True) member.read (Member.mk member.pruned member.duty).read

/-- All trees settle, whatever their duty. -/
def AllSettled (trees : List Tree) : Prop := ∀ tree ∈ trees, ∀ duty, Member.Settled ⟨tree, duty⟩

/-- The trees that pruning leaves, as they are read. -/
def Member.kept (members : List Member) : List Reading :=
  members.map fun member => Reading.ofTree member.pruned

namespace Reading

open Member (each first links kept)

variable {tree child : Tree} {children : List Tree} {duty : Duty} {duties : List Duty}

theorem settles_as (convert : Tree → Except Error α) {wrap : α → Item}
    (same : Function.Injective wrap)
    (reads : ∀ tree, Member.read ⟨tree, duty⟩ = wrap <$> convert tree)
    (known : Member.Settled ⟨child, duty⟩) :
    Settles (fun value => Member.read ⟨child, duty⟩ = .ok (wrap value))
      (convert child) (convert (Member.pruned ⟨child, duty⟩)) := by
  have wrapped : Settles (fun _ => True) (wrap <$> convert child)
      (wrap <$> convert (Member.pruned ⟨child, duty⟩)) := reads child ▸ reads _ ▸ known
  exact (wrapped.unwrap same).mono fun value read => by rw [reads, read]; rfl

theorem settles_node (known : Member.Settled ⟨child, .node⟩) :
    Settles (fun node => Member.read ⟨child, .node⟩ = .ok (.node node))
      (ofTree child).node (ofTree (Member.pruned ⟨child, .node⟩)).node :=
  settles_as Node.ofTree (fun _ _ => Item.node.inj) (fun _ => rfl) known

/-- A part that has to read as a node of one kind. -/
theorem settles_kind (label : String) {convert : Tree → List Reading → Except Error α}
    {wrap : α → Node} (same : Function.Injective wrap)
    (made : ∀ place text children parts, nodeOf ⟨label, place, text, children⟩ parts =
      wrap <$> convert ⟨label, place, text, children⟩ parts)
    (refused : ∀ tree parts, tree.label ≠ label → convert tree parts =
      .error (.compiler (.mislabelled [label] tree.label) (some tree.location)))
    (known : Member.Settled ⟨child, .node⟩) :
    Settles (fun value => Member.read ⟨child, .node⟩ = .ok (.node (wrap value)))
      (convert child (ofTree child).parts)
      (convert (Member.pruned ⟨child, .node⟩) (ofTree (Member.pruned ⟨child, .node⟩)).parts) := by
  have reads (tree : Tree) (kind : tree.label = label) :
      (ofTree tree).node = wrap <$> convert tree (ofTree tree).parts := by
    obtain ⟨_, place, text, children⟩ := tree
    cases kind
    rw [ofTree_eq]
    exact made place text children _
  by_cases kind : child.label = label
  · have settled := settles_node known
    have pruned : (Member.pruned ⟨child, .node⟩).label = label :=
      (Member.label_pruned _).trans kind
    rw [reads child kind, reads _ pruned] at settled
    refine (Settles.unwrap same settled).mono fun value read => ?_
    change Item.node <$> (ofTree child).node = _
    rw [reads child kind, read]
    rfl
  · rw [refused child _ kind]
    exact .error

theorem settles_requireLabel {labels : List String} :
    Settles (fun _ => True) (requireLabel tree labels) (requireLabel tree labels) := by
  unfold requireLabel
  split
  · exact .ok trivial
  · exact .error

theorem requireLabel_error {label : String} (other : tree.label ≠ label) :
    requireLabel tree [label] =
      .error (.compiler (.mislabelled [label] tree.label) (some tree.location)) := by
  unfold requireLabel
  rw [if_neg (by simpa using other)]

theorem settles_blockMember (known : Member.Settled ⟨child, .node⟩) :
    Settles (fun block => Member.read ⟨child, .node⟩ = .ok (.node (.block block)))
      (block child (ofTree child).parts)
      (block (Member.pruned ⟨child, .node⟩) (ofTree (Member.pruned ⟨child, .node⟩)).parts) := by
  refine settles_kind "block" (fun _ _ => Node.block.inj) (fun _ _ _ _ => rfl)
    (fun tree parts other => ?_) known
  rw [block, requireLabel_error other]
  rfl

theorem settles_pairMember (known : Member.Settled ⟨child, .node⟩) :
    Settles (fun pair => Member.read ⟨child, .node⟩ = .ok (.node (.keyValue pair)))
      (pair child (ofTree child).parts)
      (pair (Member.pruned ⟨child, .node⟩) (ofTree (Member.pruned ⟨child, .node⟩)).parts) := by
  refine settles_kind "key_value" (fun _ _ => Node.keyValue.inj) (fun _ _ _ _ => rfl)
    (fun tree parts other => ?_) known
  rw [pair, requireLabel_error other]
  rfl

theorem settles_lambdaMember (known : Member.Settled ⟨child, .node⟩) :
    Settles (fun lambda => Member.read ⟨child, .node⟩ = .ok (.node (.lambda lambda)))
      (lambda child (ofTree child).parts)
      (lambda (Member.pruned ⟨child, .node⟩) (ofTree (Member.pruned ⟨child, .node⟩)).parts) := by
  refine settles_kind "lambda" (fun _ _ => Node.lambda.inj) (fun _ _ _ _ => rfl)
    (fun tree parts other => ?_) known
  rw [lambda, requireLabel_error other]
  rfl

theorem getElem?_kept {index : Nat} (stands : duties[index]? = some duty) :
    (kept (first duties children))[index]? =
      children[index]?.map fun child => ofTree (Member.pruned ⟨child, duty⟩) := by
  rw [kept, first, List.getElem?_map, List.getElem?_zipWith, stands]
  cases children[index]? <;> rfl

theorem settles_part {next later : Reading → Except Error α} {expected : α → Prop} {index : Nat}
    (stands : duties[index]? = some duty)
    (settles : ∀ child, children[index]? = some child →
      Settles expected (next (ofTree child)) (later (ofTree (Member.pruned ⟨child, duty⟩)))) :
    Settles expected (part tree (children.map ofTree) index >>= next)
      (part tree (kept (first duties children)) index >>= later) := by
  unfold part
  rw [getElem?_kept stands, List.getElem?_map]
  cases found : children[index]? with
  | none => exact .error
  | some child => exact settles child found

theorem settles_nodePart {next later : Node → Except Error α} {expected : α → Prop} {index : Nat}
    (known : AllSettled children)
    (stands : duties[index]? = some .node)
    (settles : ∀ child node, children[index]? = some child →
      Member.read ⟨child, .node⟩ = .ok (.node node) → Settles expected (next node) (later node)) :
    Settles expected (part tree (children.map ofTree) index >>= fun found => found.node >>= next)
      (part tree (kept (first duties children)) index >>= fun found => found.node >>= later) :=
  settles_part stands fun child found =>
    (settles_node (known child (List.mem_of_getElem? found) .node)).bind fun node read =>
      settles child node found read

theorem settles_itemsPart {next later : List Node → Except Error α} {expected : α → Prop}
    {index : Nat}
    (known : AllSettled children)
    (stands : duties[index]? = some .items)
    (settles : ∀ child items, children[index]? = some child →
      Member.read ⟨child, .items⟩ = .ok (.items items) →
        Settles expected (next items) (later items)) :
    Settles expected
      (part tree (children.map ofTree) index >>= fun found => nodes found.parts >>= next)
      (part tree (kept (first duties children)) index >>= fun found => nodes found.parts >>= later) :=
  settles_part stands fun child found =>
    (settles_as (fun tree => nodes (ofTree tree).parts) (fun _ _ => Item.items.inj) (fun _ => rfl)
      (known child (List.mem_of_getElem? found) .items)).bind fun items read =>
      settles child items found read

/-- A block among the parts of a tree. -/
theorem settles_blockPart {index : Nat} (stands : duties[index]? = some .node)
    (known : AllSettled children) :
    Settles (fun block => ∃ child, children[index]? = some child ∧
        Member.read ⟨child, .node⟩ = .ok (.node (.block block)))
      (blockPart tree (children.map ofTree) index)
      (blockPart tree (kept (first duties children)) index) := by
  refine settles_part stands fun child found => ?_
  rw [ofTree_tree, ofTree_tree]
  have settled := settles_blockMember (known child (List.mem_of_getElem? found) .node)
  exact settled.mono fun block read => ⟨child, found, read⟩

theorem settles_each (wrap : α → Item) {convert : Reading → Except Error α}
    (settles : ∀ child ∈ children,
      Settles (fun value => Member.read ⟨child, duty⟩ = .ok (wrap value))
        (convert (ofTree child)) (convert (ofTree (Member.pruned ⟨child, duty⟩)))) :
    Settles
      (fun values => Gathered (each duty children) (values.flatMap fun value => (wrap value).outlines))
      ((children.map ofTree).mapM convert) ((kept (each duty children)).mapM convert) := by
  rw [kept, each, List.map_map, List.mapM_map, List.mapM_map]
  exact (Settles.mapM settles).mono fun _ => gathered_each

variable (known : AllSettled children)

include known

theorem settles_nodes :
    Settles (fun nodes => Gathered (each .node children) (outlines nodes))
      (nodes (children.map ofTree)) (nodes (kept (each .node children))) :=
  (settles_each Item.node fun child listed => settles_node (known child listed .node)).mono
    fun nodes gathered => outlines_eq nodes ▸ gathered

theorem settles_block :
    Settles (fun block => Gathered (each .node children) block.outline.children)
      (block tree (children.map ofTree)) (block tree (kept (each .node children))) :=
  settles_requireLabel.bind fun _ _ => (settles_nodes known).bind fun _ gathered => .ok gathered

theorem settles_pair :
    Settles (fun pair => Gathered (first [.node, .node] children) pair.outline.children)
      (pair tree (children.map ofTree)) (pair tree (kept (first [.node, .node] children))) :=
  settles_requireLabel.bind fun _ _ => settles_nodePart known rfl fun _ _ at₀ read =>
    settles_nodePart known rfl fun _ _ at₁ read₁ => .ok (gathered_two at₀ at₁ read read₁)

theorem settles_pairs :
    Settles (fun pairs => Gathered (each .node children) (pairOutlines pairs))
      ((children.map ofTree).mapM fun child => pair child.tree child.parts)
      ((kept (each .node children)).mapM fun child => pair child.tree child.parts) := by
  refine Settles.mono (settles_each (Item.node ∘ Node.keyValue) fun child listed => ?_)
    fun pairs gathered => ?_
  · rw [ofTree_tree, ofTree_tree]
    exact settles_pairMember (known child listed .node)
  · rw [pairOutlines_eq]
    exact gathered

theorem settles_lambdas :
    Settles (fun definitions => Gathered (each .node children) (lambdaOutlines definitions))
      ((children.map ofTree).mapM fun child => lambda child.tree child.parts)
      ((kept (each .node children)).mapM fun child => lambda child.tree child.parts) := by
  refine Settles.mono (settles_each (Item.node ∘ Node.lambda) fun child listed => ?_)
    fun definitions gathered => ?_
  · rw [ofTree_tree, ofTree_tree]
    exact settles_lambdaMember (known child listed .node)
  · rw [lambdaOutlines_eq]
    exact gathered

theorem settles_range (exclusive : Bool) :
    Settles (fun node => Gathered (first [.node, .node] children) node.outline.children)
      (nodeOf.range tree (children.map ofTree) exclusive)
      (nodeOf.range tree (kept (first [.node, .node] children)) exclusive) :=
  settles_nodePart known rfl fun _ _ at₀ read => settles_nodePart known rfl fun _ _ at₁ read₁ =>
    .ok (gathered_two at₀ at₁ read read₁)

theorem settles_assignment :
    Settles (fun node => Gathered (first [.node, .node] children) node.outline.children)
      (assignment tree (children.map ofTree))
      (assignment tree (kept (first [.node, .node] children))) := by
  refine settles_nodePart known rfl fun _ target at₀ read => ?_
  cases target with
  | reference name =>
      exact settles_nodePart known rfl fun _ _ at₁ read₁ => .ok (gathered_two at₀ at₁ read read₁)
  | property object key place =>
      exact settles_nodePart known rfl fun _ _ at₁ read₁ => .ok (gathered_two at₀ at₁ read read₁)
  | _ => exact .error

theorem settles_lambda :
    Settles (fun lambda => Gathered (first [.word, .items, .node] children) lambda.outline.children)
      (lambda tree (children.map ofTree))
      (lambda tree (kept (first [.word, .items, .node] children))) := by
  refine settles_requireLabel.bind fun _ _ => settles_part rfl fun word at₀ =>
    settles_itemsPart known rfl fun _ _ at₁ read₁ => ?_
  refine (settles_blockPart rfl known).bind fun _ ⟨_, at₂, read₂⟩ => ?_
  rw [ofTree_tree, ofTree_tree, Member.content_pruned]
  have read : Member.read ⟨word, .word⟩ = .ok .word := rfl
  exact .ok (gathered_three at₀ at₁ at₂ read read₁ read₂)

theorem settles_case :
    Settles (fun case => Gathered (first [.items, .node] children) case.outline.children)
      (case tree (children.map ofTree)) (case tree (kept (first [.items, .node] children))) :=
  settles_itemsPart known rfl fun _ _ at₀ read =>
    (settles_blockPart rfl known).bind fun _ ⟨_, at₁, read₁⟩ =>
      .ok (gathered_two at₀ at₁ read read₁)

theorem settles_clause (kind : String) :
    Settles (fun clause => Gathered (first [.node] children) (clause.outline kind).children)
      (clause tree (children.map ofTree)) (clause tree (kept (first [.node] children))) :=
  (settles_blockPart rfl known).bind fun _ ⟨_, at₀, read⟩ => .ok (gathered_one at₀ read)

theorem settles_elseBody :
    Settles (fun block => Gathered (first [.node] children) [block.outline])
      (elseBody tree (children.map ofTree)) (elseBody tree (kept (first [.node] children))) := by
  refine settles_requireLabel.bind fun _ _ => settles_part rfl fun child at₀ => ?_
  have known₀ := known child (List.mem_of_getElem? at₀) .node
  rw [ofTree_tree, ofTree_tree, Member.label_pruned, Member.location_pruned]
  split
  · exact (settles_blockMember known₀).mono fun _ read => gathered_one at₀ read
  · refine (settles_node known₀).bind fun node read => .ok ((gathered_one at₀ read).mono ?_)
    exact .below (Block.outline ⟨[node], child.location⟩)

theorem settles_payload :
    Settles (fun found => Gathered (first [.node] children) (payloadOutlines found))
      (payload (children.map ofTree)) (payload (kept (first [.node] children))) := by
  cases children with
  | nil => exact .ok (.nil _)
  | cons child rest =>
      have reads := settles_node (known child List.mem_cons_self .node)
      exact reads.map fun node read => gathered_one rfl read

theorem settles_conditional :
    Settles (fun node => Gathered (first [.node, .node, .branch] children) node.outline.children)
      (conditional tree (children.map ofTree))
      (conditional tree (kept (first [.node, .node, .branch] children))) := by
  refine settles_nodePart known rfl fun _ condition at₀ read =>
    (settles_blockPart rfl known).bind fun given ⟨_, at₁, read₁⟩ => ?_
  have placed (otherwise : Block) (within : Gathered (first [.node, .node, .branch] children)
        [condition.outline, given.outline, otherwise.outline]) :
      Settles (fun node => Gathered (first [.node, .node, .branch] children) node.outline.children)
        (if tree.label = "unless" then
            Except.ok (Node.conditional condition otherwise given tree.location)
          else .ok (.conditional condition given otherwise tree.location))
        (if tree.label = "unless" then
            .ok (Node.conditional condition otherwise given tree.location)
          else .ok (.conditional condition given otherwise tree.location)) := by
    split
    · exact .ok (within.mono (.perm ((List.Perm.swap _ _ _).cons _)))
    · exact .ok within
  rw [getElem?_kept rfl, List.getElem?_map]
  cases found : children[2]? with
  | none =>
      have both : Gathered (first [.node, .node, .branch] children)
          ([condition.outline] ++ [given.outline]) := gathered_two_of_three at₀ at₁ found read read₁
      exact placed (.empty given.location)
        (both.mono ((Among.refl [condition.outline, given.outline]).append (.nil [_])))
  | some branch =>
      have settled := settles_as (fun tree => elseBody tree (ofTree tree).parts)
        (fun _ _ => Item.branch.inj) (fun _ => rfl)
        (known branch (List.mem_of_getElem? found) .branch)
      simp only [Option.map_some, ofTree_tree]
      exact settled.bind fun otherwise read₂ =>
        placed otherwise (gathered_three at₀ at₁ found read read₁ read₂)

/-- What is joined stays in front of its operators. -/
theorem settles_operatorCalls {joined : Node} :
    Settles (fun node => ∃ operands, Gathered (links children) operands ∧
        Among (joined.outline.children ++ operands) node.outline.children)
      (operatorCalls joined (children.map ofTree))
      (operatorCalls joined (kept (links children))) := by
  induction children using Member.links.induct generalizing joined with
  | case1 operator operand rest ih =>
      obtain ⟨-, inside⟩ := List.forall_mem_cons.mp known
      obtain ⟨second, others⟩ := List.forall_mem_cons.mp inside
      refine (settles_node (second .node)).bind fun argument read => ?_
      rw [ofTree_tree, ofTree_tree, Member.content_pruned, Member.location_pruned]
      refine (ih others).mono fun node known => ?_
      obtain ⟨operands, gathered, within⟩ := known
      refine ⟨[argument.outline] ++ operands, ?_, ?_⟩
      · exact .cons (Member.read_word operator) (.cons read gathered)
      · exact among_joined (.refl _) within
  | case2 trees short =>
      have ended (parts : List Reading) (few : parts.length < 2) :
          operatorCalls joined parts = .ok joined := by
        rcases parts with _ | ⟨_, _ | ⟨_, _⟩⟩
        · rfl
        · rfl
        · exact absurd few (by simp)
      have none : links trees = [] := Member.links.eq_2 trees short
      have few : trees.length < 2 := by
        rcases trees with _ | ⟨operator, _ | ⟨operand, rest⟩⟩
        · simp
        · simp
        · exact absurd rfl (short operator operand rest)
      rw [ended _ (by simpa using few), none, ended _ (by simp [kept])]
      exact .ok ⟨[], .nil _, by simpa using Among.refl _⟩

omit known in
theorem length_links (even : children.length % 2 = 0) :
    (links children).length = children.length := by
  induction children using Member.links.induct with
  | case1 operator operand rest ih =>
      simp only [List.length_cons] at even
      rw [links, List.length_cons, List.length_cons, ih (by omega)]
      rfl
  | case2 trees short =>
      rcases trees with _ | ⟨operator, _ | ⟨operand, rest⟩⟩
      · rfl
      · exact absurd even (by simp)
      · exact absurd rfl (short operator operand rest)

theorem settles_chain :
    Settles (fun node => Gathered (first [.node] children ++ links children.tail)
        (if children.length = 1 then [node.outline] else node.outline.children))
      (chain tree (children.map ofTree))
      (chain tree (kept (first [.node] children ++ links children.tail))) := by
  cases children with
  | nil => exact .error
  | cons operand rest =>
      obtain ⟨value, inside⟩ := List.forall_mem_cons.mp known
      rw [Member.first_single, List.tail_cons, List.singleton_append, kept, List.map_cons,
        List.map_cons, chain, chain]
      by_cases even : rest.length % 2 = 0
      · rw [if_pos (by simpa using even), if_pos (by simpa [length_links even] using even)]
        refine (settles_node (value .node)).bind fun joined read => ?_
        match rest, inside with
        | [], _ => exact .ok (.single read)
        | [_], _ => exact absurd even (by simp)
        | operator :: second :: others, inside =>
            obtain ⟨-, inside⟩ := List.forall_mem_cons.mp inside
            obtain ⟨argument, inside⟩ := List.forall_mem_cons.mp inside
            refine (settles_node (argument .node)).bind fun node read₁ => ?_
            rw [ofTree_tree, ofTree_tree, Member.content_pruned, Member.location_pruned]
            refine (settles_operatorCalls inside).mono fun whole ⟨operands, gathered, within⟩ => ?_
            have called := among_operatorCall joined node operator.content operator.location
            have gathers := Gathered.cons read (.cons (Member.read_word operator)
              (.cons read₁ gathered))
            exact gathers.mono ((called.append (.refl operands)).trans within)
      · rw [if_neg (by simpa using even)]
        exact .error

end Reading

end RipInterpreter.Syntax
