import RipInterpreter.Syntax.Outline
import RipInterpreter.Syntax.Reading

/-!
The members of a tree: those of its parts that count for what it reads as, each with a duty of its
own. The label and the duty of a tree decide which parts are members, for most labels by their places
alone. Without the parts that are no members, at every depth, a tree is pruned.
-/

namespace RipInterpreter.Syntax

open Concrete (Tree)

/-- What a tree is read as. -/
inductive Duty where
  | module
  /-- An expression, a statement or a block. -/
  | node
  /-- Nodes side by side: arguments, parameters, matchers or ancestors. -/
  | items
  /-- The `else` of a conditional. -/
  | branch
  | case
  | handler
  /-- A block behind a word, with the kind of the entry that it makes. -/
  | clause (kind : String)
  | piece (kind : TextKind)
  /-- Its text counts, or its place. -/
  | word
deriving DecidableEq

/-- What comes out of a tree with a duty. -/
inductive Item where
  | module (module : Module)
  | node (node : Node)
  | items (nodes : List Node)
  | branch (block : Block)
  | case (case : Case)
  | handler (handler : Handler)
  | clause (kind : String) (clause : Clause)
  | pieces (pieces : List Piece)
  | word

/-- The statements of an interpolation. -/
def Piece.outlines : Piece → List Outline
  | .glyph _ => []
  | .interpolated body _ _ => Syntax.outlines body

/-- What an item adds to the outline of the whole. -/
def Item.outlines : Item → List Outline
  | .module found => [found.outline]
  | .node found => [found.outline]
  | .items found => Syntax.outlines found
  | .branch found => [found.outline]
  | .case found => [found.outline]
  | .handler found => [found.outline]
  | .clause kind found => [found.outline kind]
  | .pieces found => found.flatMap Piece.outlines
  | .word => []

/-- A tree with a duty. -/
structure Member where
  tree : Tree
  duty : Duty

namespace Member

def each (duty : Duty) (trees : List Tree) : List Member := trees.map fun tree => ⟨tree, duty⟩

/-- As many trees as there are duties. -/
def first (duties : List Duty) (trees : List Tree) : List Member :=
  List.zipWith Member.mk trees duties

/-- Operators, each with its operand. -/
def links : List Tree → List Member
  | operator :: operand :: rest => ⟨operator, .word⟩ :: ⟨operand, .node⟩ :: links rest
  | _ => []

/-- All trees but those of a label that come before another one of it. -/
def withLast (label : String) : List Tree → List Tree
  | [] => []
  | tree :: rest =>
    if tree.label = label ∧ ∃ later ∈ rest, later.label = label then withLast label rest
    else tree :: withLast label rest

/-- All trees but those of a label that come behind another one of it. -/
def withFirst (label : String) : List Tree → List Tree
  | [] => []
  | tree :: rest =>
    if tree.label = label then tree :: rest.filter fun later => later.label != label
    else tree :: withFirst label rest

/-- Branches of a kind, and the last one of a label. -/
def branches (duty : Duty) (label kind : String) (trees : List Tree) : List Member :=
  (withLast label trees).map fun tree => ⟨tree, if tree.label = label then .clause kind else duty⟩

/-- Statements, and the first brace that closes them. -/
def statements (trees : List Tree) : List Member :=
  (withFirst "interpolation_end" trees).map fun tree =>
    ⟨tree, if tree.label = "interpolation_end" then .word else .node⟩

/-- A name to bind and a block, behind the name of a type if there are three. -/
def handlerDuties (trees : List Tree) : List Duty :=
  if trees.length = 3 then [.word, .word, .node] else [.word, .node]

/-- The members of a tree that is read as a node. -/
def ofNode (tree : Tree) : List Member :=
  match tree.label with
  | "string" => each (.piece .string) tree.children
  | "regular_expression" => each (.piece .regularExpression) tree.children
  | "interpolation" => statements tree.children
  | "list" | "map" | "overloads" | "block" => each .node tree.children
  | "key_value" | "range" | "exclusive_range" | "assignment" => first [.node, .node] tree.children
  | "property" => first [.node, .word] tree.children
  | "invocation" => first [.node, .items] tree.children
  | "binary" => first [.node] tree.children ++ links tree.children.tail
  | "lambda" => first [.word, .items, .node] tree.children
  | "class" => first [.items, .node] tree.children
  | "if" | "unless" => first [.node, .node, .branch] tree.children
  | "switch" => first [.node] tree.children ++ branches .case "else" "Else" tree.children.tail
  | "try" =>
    first [.node] tree.children ++ branches .handler "finally" "Finally" tree.children.tail
  | "throw" | "return" | "exit" => first [.node] tree.children
  | _ => []

/-- The parts of the tree that count. -/
def members (member : Member) : List Member :=
  let parts := member.tree.children
  match member.duty with
  | .module => each .node parts
  | .node => ofNode member.tree
  | .items => each .node parts
  | .branch => first [.node] parts
  | .case => first [.items, .node] parts
  | .handler => first (handlerDuties parts) parts
  | .clause _ => first [.node] parts
  | .piece _ => if member.tree.label = "interpolation" then statements parts else []
  | .word => []

variable {duty : Duty} {duties : List Duty} {trees : List Tree} {label kind : String}
  {member inner : Member}

theorem first_single (tree : Tree) (trees : List Tree) :
    first [duty] (tree :: trees) = [⟨tree, duty⟩] := by simp [first]

theorem mem_first (listed : inner ∈ first duties trees) : inner.tree ∈ trees := by
  induction trees generalizing duties with
  | nil => exact absurd listed List.not_mem_nil
  | cons tree rest ih =>
      cases duties with
      | nil => exact absurd listed List.not_mem_nil
      | cons duty others =>
          rcases List.mem_cons.mp listed with rfl | later
          · exact List.mem_cons_self
          · exact List.mem_cons_of_mem _ (ih later)

theorem mem_each (listed : inner ∈ each duty trees) : inner.tree ∈ trees := by
  obtain ⟨tree, found, rfl⟩ := List.mem_map.mp listed
  exact found

theorem mem_links (listed : inner ∈ links trees) : inner.tree ∈ trees := by
  induction trees using links.induct with
  | case1 operator operand rest ih =>
      rcases List.mem_cons.mp listed with rfl | listed
      · exact List.mem_cons_self
      · rcases List.mem_cons.mp listed with rfl | listed
        · exact List.mem_cons_of_mem _ List.mem_cons_self
        · exact List.mem_cons_of_mem _ (List.mem_cons_of_mem _ (ih listed))
  | case2 trees short =>
      rw [links.eq_2 trees short] at listed
      exact absurd listed List.not_mem_nil

theorem withLast_sublist (label : String) (trees : List Tree) :
    (withLast label trees).Sublist trees := by
  induction trees with
  | nil => exact .slnil
  | cons tree rest ih =>
      rw [withLast]
      split
      · exact ih.cons tree
      · exact ih.cons_cons tree

theorem withFirst_sublist (label : String) (trees : List Tree) :
    (withFirst label trees).Sublist trees := by
  induction trees with
  | nil => exact .slnil
  | cons tree rest ih =>
      rw [withFirst]
      split
      · exact List.filter_sublist.cons_cons tree
      · exact ih.cons_cons tree

theorem branches_other {tree : Tree} (other : tree.label ≠ label) :
    branches duty label kind (tree :: trees) = ⟨tree, duty⟩ :: branches duty label kind trees := by
  simp [branches, withLast, other]

theorem branches_again {tree : Tree} (ends : tree.label = label)
    (later : ∃ later ∈ trees, later.label = label) :
    branches duty label kind (tree :: trees) = branches duty label kind trees := by
  rw [branches, withLast, if_pos ⟨ends, later⟩]
  rfl

theorem branches_last {tree : Tree} (ends : tree.label = label)
    (last : ¬∃ later ∈ trees, later.label = label) :
    branches duty label kind (tree :: trees) =
      ⟨tree, .clause kind⟩ :: branches duty label kind trees := by
  simp [branches, withLast, ends, last]

theorem mem_branches (listed : inner ∈ branches duty label kind trees) : inner.tree ∈ trees := by
  obtain ⟨tree, found, rfl⟩ := List.mem_map.mp listed
  exact (withLast_sublist label trees).subset found

theorem mem_statements (listed : inner ∈ statements trees) : inner.tree ∈ trees := by
  obtain ⟨tree, found, rfl⟩ := List.mem_map.mp listed
  exact (withFirst_sublist _ trees).subset found

theorem mem_ofNode {tree : Tree} (listed : inner ∈ ofNode tree) : inner.tree ∈ tree.children := by
  have led {duties : List Duty} {some : List Member}
      (behind : inner ∈ some → inner.tree ∈ tree.children.tail)
      (listed : inner ∈ first duties tree.children ++ some) : inner.tree ∈ tree.children :=
    (List.mem_append.mp listed).elim mem_first fun later => List.mem_of_mem_tail (behind later)
  unfold ofNode at listed
  split at listed
  all_goals
    first
    | exact mem_first listed
    | exact mem_each listed
    | exact mem_statements listed
    | exact led mem_links listed
    | exact led mem_branches listed
    | exact absurd listed List.not_mem_nil

theorem mem_members (listed : inner ∈ member.members) : inner.tree ∈ member.tree.children := by
  obtain ⟨tree, duty⟩ := member
  cases duty with
  | module | items => exact mem_each listed
  | node => exact mem_ofNode listed
  | branch | case | handler | clause => exact mem_first listed
  | piece =>
      simp only [members] at listed
      split at listed
      · exact mem_statements listed
      · exact absurd listed List.not_mem_nil
  | word => exact absurd listed List.not_mem_nil

theorem sizeOf_lt (listed : inner ∈ member.members) : sizeOf inner.tree < sizeOf member.tree := by
  have within := List.sizeOf_lt_of_mem (mem_members listed)
  obtain ⟨⟨label, place, text, children⟩, duty⟩ := member
  simp only [Tree.mk.sizeOf_spec] at within ⊢
  omega

/-- The tree without the parts that do not count, at every depth. -/
def pruned (member : Member) : Tree :=
  { member.tree with children := member.members.attach.map fun ⟨inner, _⟩ => inner.pruned }
termination_by sizeOf member.tree
decreasing_by exact sizeOf_lt ‹_›

/-- The member itself and all that count in it, at every depth. -/
def all (member : Member) : List Member :=
  member :: member.members.attach.flatMap fun ⟨inner, _⟩ => inner.all
termination_by sizeOf member.tree
decreasing_by exact sizeOf_lt ‹_›

theorem pruned_eq (member : Member) :
    member.pruned = { member.tree with children := member.members.map pruned } := by
  rw [pruned]
  simp

theorem all_eq (member : Member) : member.all = member :: member.members.flatMap all := by
  rw [all]
  simp

@[simp] theorem label_pruned (member : Member) : member.pruned.label = member.tree.label := by
  rw [pruned_eq]

@[simp] theorem location_pruned (member : Member) :
    member.pruned.location = member.tree.location := by rw [pruned_eq]

@[simp] theorem content_pruned (member : Member) :
    member.pruned.content = member.tree.content := by
  rw [pruned_eq]
  rfl

/-- The reading of the tree. -/
def read (member : Member) : Except Error Item :=
  let parts := (Reading.ofTree member.tree).parts
  match member.duty with
  | .module => .module <$> Module.ofTree member.tree
  | .node => .node <$> Node.ofTree member.tree
  | .items => .items <$> Reading.nodes parts
  | .branch => .branch <$> Reading.elseBody member.tree parts
  | .case => .case <$> Reading.case member.tree parts
  | .handler => .handler <$> Reading.handler member.tree parts
  | .clause kind => .clause kind <$> Reading.clause member.tree parts
  | .piece kind => .pieces <$> Reading.pieces kind member.tree parts
  | .word => .ok .word

theorem read_word (tree : Tree) : read ⟨tree, .word⟩ = .ok .word := rfl

/-- Whether the tree makes an entry of its own. A chain of a single operand is that operand, and what
only holds its members together makes none. -/
def hasEntry (member : Member) : Bool :=
  match member.duty with
  | .node => !(member.tree.label == "binary" && member.tree.children.length == 1)
  | .module | .case | .handler | .clause _ => true
  | .items | .branch | .piece _ | .word => false

end Member

end RipInterpreter.Syntax
