import RipInterpreter.Proofs.Concrete.Derivations
import RipInterpreter.Proofs.Syntax.PlainModules

namespace RipInterpreter

namespace Concrete.Tree

variable {tree : Tree} {trees : List Tree} {place : Location}

/-- An assignment in the tree has a call as its target, which is located at the place. -/
def AssignsCall (tree : Tree) (place : Location) : Prop :=
  ∃ assignment target : Tree, assignment.PartOf tree ∧ assignment.label = "assignment" ∧
    assignment.children[0]? = some target ∧ target.label = "invocation" ∧ target.location = place

def AnyAssignsCall (trees : List Tree) (place : Location) : Prop :=
  ∃ tree ∈ trees, tree.AssignsCall place

theorem assignsCall_iff : tree.AssignsCall place ↔
    (tree.label = "assignment" ∧ ∃ target, tree.children[0]? = some target ∧
      target.label = "invocation" ∧ target.location = place) ∨
    AnyAssignsCall tree.children place := by
  constructor
  · rintro ⟨assignment, target, part, labelled, first, called, located⟩
    cases part with
    | whole => exact .inl ⟨labelled, target, first, called, located⟩
    | inside listed within =>
        exact .inr ⟨_, listed, assignment, target, within, labelled, first, called, located⟩
  · rintro (⟨labelled, target, first, called, located⟩ |
      ⟨child, listed, assignment, target, within, labelled, first, called, located⟩)
    · exact ⟨tree, target, .whole tree, labelled, first, called, located⟩
    · exact ⟨assignment, target, .inside listed within, labelled, first, called, located⟩

theorem assignsCall_of_other (other : tree.label ≠ "assignment") :
    tree.AssignsCall = AnyAssignsCall tree.children := by
  funext place
  rw [assignsCall_iff]
  simp [other]

@[simp] theorem anyAssignsCall_nil : AnyAssignsCall [] = fun _ => False := by
  funext place
  simp [AnyAssignsCall]

@[simp] theorem anyAssignsCall_cons :
    AnyAssignsCall (tree :: trees) =
      fun place => tree.AssignsCall place ∨ AnyAssignsCall trees place := by
  funext place
  simp [AnyAssignsCall]

end Concrete.Tree

namespace Syntax

open Concrete (Tree nodeLabels pieceLabels targetLabels)
open Concrete.Tree

variable {α β : Type}

/-- The fault of an assignment to a call. -/
def callAssigned (place : Location) : Error :=
  .compiler (.notAssignable "Invocation") (some place)

theorem message_callAssigned (place : Location) : (callAssigned place).message =
    "compiler error: cannot assign to Invocation" ++ Error.placeText (some place) := by
  have joined : "compiler error: " ++ ("cannot assign to " ++ "Invocation") =
      "compiler error: cannot assign to Invocation" := by decide
  rw [← joined]
  rfl

/-- An attempt that comes to nothing if something is assigned to a call, and only then. -/
inductive ReadsUnless (calls : Location → Prop) : Except Error α → Prop
  | ok {value : α} (none : ∀ place, ¬ calls place) : ReadsUnless calls (.ok value)
  | error {place : Location} (call : calls place) : ReadsUnless calls (.error (callAssigned place))

namespace ReadsUnless

variable {calls more : Location → Prop} {attempt : Except Error α} {next : α → Except Error β}
  {value : α}

theorem congr (reads : ReadsUnless calls attempt) (same : ∀ place, calls place ↔ more place) :
    ReadsUnless more attempt := by
  have equal : calls = more := funext fun place => propext (same place)
  exact equal ▸ reads

theorem done : ReadsUnless (fun _ => False) (.ok value) := .ok fun _ => id

theorem known (found : attempt = .ok value) (reads : ReadsUnless calls (next value)) :
    ReadsUnless calls (attempt >>= next) := by
  rw [found]
  exact reads

theorem bind (first : ReadsUnless calls attempt)
    (later : ∀ value, attempt = .ok value → ReadsUnless more (next value)) :
    ReadsUnless (fun place => calls place ∨ more place) (attempt >>= next) := by
  cases first with
  | error call => exact .error (.inl call)
  | @ok value none => exact (later value rfl).congr fun place => by simp [none place]

/-- Nothing can go wrong after the attempt. -/
theorem followed (first : ReadsUnless calls attempt)
    (later : ∀ value, ReadsUnless (fun _ => False) (next value)) :
    ReadsUnless calls (attempt >>= next) :=
  (first.bind fun value _ => later value).congr fun place => by simp

theorem map (reads : ReadsUnless calls attempt) (change : α → β) :
    ReadsUnless calls (change <$> attempt) := by
  cases reads with
  | error call => exact .error call
  | ok none => exact .ok none

/-- An attempt that comes to nothing in any case may do so for more reasons. -/
theorem weaken (reads : ReadsUnless calls attempt) (call : ∃ place, calls place)
    (wider : ∀ place, calls place → more place) : ReadsUnless more attempt := by
  cases reads with
  | error call => exact .error (wider _ call)
  | ok none =>
      obtain ⟨place, call⟩ := call
      exact absurd call (none place)

theorem mapM {convert : α → Except Error β} {items : List α} {calls : α → Location → Prop}
    (each : ∀ item ∈ items, ReadsUnless (calls item) (convert item)) :
    ReadsUnless (fun place => ∃ item ∈ items, calls item place) (items.mapM convert) := by
  induction items with
  | nil => exact .ok fun place => by simp
  | cons item rest ih =>
      obtain ⟨first, others⟩ := List.forall_mem_cons.mp each
      rw [List.mapM_cons]
      refine (first.bind fun _ _ => (ih others).followed fun _ => .done).congr fun place => ?_
      simp

end ReadsUnless

namespace Reading

variable {tree : Tree}

theorem requireLabel_of {label : String} (kind : tree.label = label) :
    requireLabel tree [label] = .ok () := by
  unfold requireLabel
  rw [if_pos (List.contains_iff_mem.mpr (List.mem_singleton.mpr kind))]

/-- What a tree may be read as. -/
inductive Role where
  | node
  | block
  | items
  | pair
  | lambda
  | otherwise
  | lastArm
  | clause
  | case
  | handler
  | piece
  | word
deriving DecidableEq

/-- The labels of the trees that are read in a role. -/
def Role.labels : Role → List String
  | .node => nodeLabels
  | .block => ["block"]
  | .items => ["arguments", "matchers", "ancestors", "parameters", "module"]
  | .pair => ["key_value"]
  | .lambda => ["lambda"]
  | .otherwise => ["else"]
  | .lastArm => ["else"]
  | .clause => ["finally"]
  | .case => ["case"]
  | .handler => ["catch"]
  | .piece => pieceLabels
  | .word => ["reference", "keyword", "name", "operator", "interpolation_end"]

/-- The roles that a label allows. -/
def Role.allowed (label : String) : List Role :=
  [node, block, items, pair, lambda, otherwise, lastArm, clause, case, handler, piece, word].filter
    fun role => label ∈ role.labels

theorem Role.mem_allowed {role : Role} {label : String} (asked : label ∈ role.labels) :
    role ∈ Role.allowed label :=
  List.mem_filter.mpr ⟨by cases role <;> decide, decide_eq_true asked⟩

/-- The reading of a tree in a role goes wrong with the calls that are assigned to in it. -/
def Role.Reads (role : Role) (tree : Tree) : Prop :=
  let parts := (ofTree tree).parts
  match role with
  | .node => ReadsUnless tree.AssignsCall (ofTree tree).node
  | .block => ReadsUnless tree.AssignsCall (Reading.block tree parts)
  | .items => ReadsUnless tree.AssignsCall (nodes parts)
  | .pair => ReadsUnless tree.AssignsCall (Reading.pair tree parts)
  | .lambda => ReadsUnless tree.AssignsCall (Reading.lambda tree parts)
  | .otherwise => ReadsUnless tree.AssignsCall (elseBody tree parts)
  | .lastArm => tree.children.map Tree.label = ["block"] →
    ReadsUnless tree.AssignsCall (Reading.clause tree parts)
  | .clause => ReadsUnless tree.AssignsCall (Reading.clause tree parts)
  | .case => ReadsUnless tree.AssignsCall (Reading.case tree parts)
  | .handler => ReadsUnless tree.AssignsCall (Reading.handler tree parts)
  | .piece => ∀ kind, ReadsUnless tree.AssignsCall (pieces kind tree parts)
  | .word => tree.AssignsCall = fun _ => False

/-- The tree can be read in every role that its label allows. -/
def Readable (tree : Tree) : Prop := ∀ role : Role, tree.label ∈ role.labels → role.Reads tree

theorem Readable.as {label : String} (readable : Readable tree) (role : Role)
    (allowed : label ∈ role.labels) (labelled : tree.label = label) : role.Reads tree :=
  readable role (labelled ▸ allowed)

theorem node_branch (label : String) (place : Location) (children : List Tree) :
    (ofTree (.branch label place children)).node =
      nodeOf (.branch label place children) (children.map ofTree) := by
  rw [ofTree_eq]
  rfl

/-- What goes wrong in a tree goes wrong in its parts, unless it is an assignment itself. -/
theorem reads_parts {label : String} {place : Location} {children : List Tree}
    {attempt : Except Error α} (other : label ≠ "assignment")
    (reads : ReadsUnless (AnyAssignsCall children) attempt) :
    ReadsUnless (Tree.branch label place children).AssignsCall attempt := by
  have same : (Tree.branch label place children).AssignsCall = AnyAssignsCall children :=
    assignsCall_of_other other
  exact same ▸ reads

theorem reads_role {label : String} {place : Location} {children : List Tree}
    {convert : Tree → List Reading → Except Error α} (other : label ≠ "assignment")
    (reads : ReadsUnless (AnyAssignsCall children)
      (convert (.branch label place children) (children.map ofTree))) :
    ReadsUnless (Tree.branch label place children).AssignsCall
      (convert (.branch label place children) (ofTree (.branch label place children)).parts) := by
  rw [ofTree_parts]
  exact reads_parts other reads

section

variable {place : Location} {children : List Tree} {first second third : Tree}

/-- Trees that are read one after the other. -/
theorem reads_each {convert : Tree → List Reading → Except Error α}
    (each : ∀ child ∈ children,
      ReadsUnless child.AssignsCall (convert child (ofTree child).parts)) :
    ReadsUnless (AnyAssignsCall children)
      ((children.map ofTree).mapM fun child => convert child.tree child.parts) := by
  rw [List.mapM_map]
  refine .mapM fun child listed => ?_
  simp only [Function.comp_apply, ofTree_tree]
  exact each child listed

theorem reads_nodes (inside : ∀ child ∈ children, Role.node.Reads child) :
    ReadsUnless (AnyAssignsCall children) (nodes (children.map ofTree)) := by
  rw [nodes, List.mapM_map]
  exact .mapM fun child listed => inside child listed

theorem reads_block (kind : tree.label = "block")
    (inside : ∀ child ∈ children, Role.node.Reads child) :
    ReadsUnless (AnyAssignsCall children) (block tree (children.map ofTree)) :=
  .known (requireLabel_of kind) <| (reads_nodes inside).followed fun _ => .done

/-- A block among the parts of a tree. -/
theorem reads_blockPart {parts : List Reading} {index : Nat}
    (stands : parts[index]? = some (ofTree first)) (body : Role.block.Reads first) :
    ReadsUnless first.AssignsCall (blockPart tree parts index) := by
  have found : part tree parts index = .ok (ofTree first) := by rw [part, stands]
  refine .known found ?_
  rw [ofTree_tree]
  exact body

theorem reads_pair (kind : tree.label = "key_value") (key : Role.node.Reads first)
    (value : Role.node.Reads second) :
    ReadsUnless (AnyAssignsCall [first, second]) (pair tree [ofTree first, ofTree second]) := by
  rw [anyAssignsCall_cons, anyAssignsCall_cons, anyAssignsCall_nil]
  exact .known (requireLabel_of kind) <| .known rfl <| ReadsUnless.bind key
    fun _ _ => .known rfl <| ReadsUnless.bind value fun _ _ => .done

theorem reads_range (exclusive : Bool) (start : Role.node.Reads first)
    (last : Role.node.Reads second) :
    ReadsUnless (AnyAssignsCall [first, second])
      (nodeOf.range tree [ofTree first, ofTree second] exclusive) := by
  rw [anyAssignsCall_cons, anyAssignsCall_cons, anyAssignsCall_nil]
  exact .known rfl <| ReadsUnless.bind start fun _ _ => .known rfl <| ReadsUnless.bind last
    fun _ _ => .done

theorem reads_lambda (kind : tree.label = "lambda") (word : Role.word.Reads first)
    (parameters : Role.items.Reads second) (body : Role.block.Reads third) :
    ReadsUnless (AnyAssignsCall [first, second, third])
      (lambda tree [ofTree first, ofTree second, ofTree third]) := by
  have quiet : first.AssignsCall = fun _ => False := word
  refine ReadsUnless.congr (.known (requireLabel_of kind) <| .known rfl <|
    .known rfl <| ReadsUnless.bind parameters fun _ _ =>
      (reads_blockPart rfl body).followed fun _ => .done) fun place => ?_
  simp [quiet]

theorem reads_property (object : Role.node.Reads first) (name : Role.word.Reads second) :
    ReadsUnless (AnyAssignsCall [first, second])
      (nodeOf (.branch "property" place children) [ofTree first, ofTree second]) := by
  have quiet : second.AssignsCall = fun _ => False := name
  refine ReadsUnless.congr (.known rfl <| ReadsUnless.followed object fun _ => .known rfl .done)
    fun spot => ?_
  simp [quiet]

theorem reads_invocation (callable : Role.node.Reads first) (arguments : Role.items.Reads second) :
    ReadsUnless (AnyAssignsCall [first, second])
      (nodeOf (.branch "invocation" place children) [ofTree first, ofTree second]) := by
  rw [anyAssignsCall_cons, anyAssignsCall_cons, anyAssignsCall_nil]
  exact .known rfl <| ReadsUnless.bind callable fun _ _ => .known rfl <|
    ReadsUnless.bind arguments fun _ _ => .done

theorem reads_class (ancestors : Role.items.Reads first) (body : Role.block.Reads second) :
    ReadsUnless (AnyAssignsCall [first, second])
      (nodeOf (.branch "class" place children) [ofTree first, ofTree second]) := by
  rw [anyAssignsCall_cons, anyAssignsCall_cons, anyAssignsCall_nil]
  exact .known rfl <| ReadsUnless.bind ancestors fun _ _ => (reads_blockPart rfl body).bind
    fun _ _ => .done

theorem reads_throwing (payload : Role.node.Reads first) :
    ReadsUnless (AnyAssignsCall [first])
      (nodeOf (.branch "throw" place children) [ofTree first]) := by
  rw [anyAssignsCall_cons, anyAssignsCall_nil]
  exact .known rfl <| ReadsUnless.bind payload fun _ _ => .done

/-- By induction on the operands, each with its operator in front of it. -/
theorem reads_operatorCalls {joined : Node} {links : List Tree} {operands : List String}
    (spelled : links.map Tree.label = operands.flatMap fun operand => ["operator", operand])
    (values : ∀ operand ∈ operands, operand ∈ nodeLabels)
    (inside : ∀ link ∈ links, Readable link) :
    ReadsUnless (AnyAssignsCall links) (operatorCalls joined (links.map ofTree)) ∧
      links.length % 2 = 0 := by
  induction operands generalizing joined links with
  | nil =>
      cases List.map_eq_nil_iff.mp spelled
      exact ⟨anyAssignsCall_nil ▸ .done, rfl⟩
  | cons operand rest ih =>
      obtain ⟨operator, _, rfl, word, spelledRest⟩ := List.map_eq_cons_iff.mp spelled
      obtain ⟨first, others, rfl, rfl, spelledOthers⟩ := List.map_eq_cons_iff.mp spelledRest
      obtain ⟨value, values⟩ := List.forall_mem_cons.mp values
      obtain ⟨leaf, inside⟩ := List.forall_mem_cons.mp inside
      obtain ⟨readable, inside⟩ := List.forall_mem_cons.mp inside
      have quiet : operator.AssignsCall = fun _ => False := leaf.as .word (by decide) word
      have operand : ReadsUnless first.AssignsCall (ofTree first).node := readable .node value
      have later (joined : Node) : ReadsUnless (AnyAssignsCall others)
          (operatorCalls joined (others.map ofTree)) ∧ others.length % 2 = 0 :=
        ih spelledOthers values inside
      refine ⟨ReadsUnless.congr (operand.bind fun _ _ => (later _).1) fun place => ?_, ?_⟩
      · simp [quiet]
      · have even := (later joined).2
        simp only [List.length_cons]
        omega

theorem reads_chain {links : List Tree} {operands : List String} (value : Role.node.Reads first)
    (spelled : links.map Tree.label = operands.flatMap fun operand => ["operator", operand])
    (values : ∀ operand ∈ operands, operand ∈ nodeLabels)
    (inside : ∀ link ∈ links, Readable link) :
    ReadsUnless (AnyAssignsCall (first :: links)) (chain tree ((first :: links).map ofTree)) := by
  have calls (joined : Node) : ReadsUnless (AnyAssignsCall links)
      (operatorCalls joined (links.map ofTree)) ∧ links.length % 2 = 0 :=
    reads_operatorCalls spelled values inside
  have even : (links.map ofTree).length % 2 = 0 := by
    rw [List.length_map]
    exact (calls (.comment "" tree.location)).2
  rw [List.map_cons, chain, if_pos even, anyAssignsCall_cons]
  exact ReadsUnless.bind value fun joined _ => (calls joined).1

theorem reads_elseBody {body : Tree} (kind : tree.label = "else")
    (branch : body.label ∈ ["block", "if", "unless"]) (readable : Readable body) :
    ReadsUnless (AnyAssignsCall [body]) (elseBody tree [ofTree body]) := by
  have single : AnyAssignsCall [body] = body.AssignsCall := by simp
  rw [single]
  refine .known (requireLabel_of kind) <| .known rfl ?_
  rw [ofTree_tree]
  split
  · exact readable .block (by simp [Role.labels, *])
  · have wider : ∀ label ∈ ["block", "if", "unless"], label ∈ nodeLabels := by decide
    have node : ReadsUnless body.AssignsCall (ofTree body).node := readable .node (wider _ branch)
    exact node.followed fun _ => .done

theorem reads_conditional {condition body : Tree} {otherwise : Option Tree}
    (value : Role.node.Reads condition) (given : Role.block.Reads body)
    (branch : ∀ branch ∈ otherwise, Role.otherwise.Reads branch) :
    ReadsUnless (AnyAssignsCall (condition :: body :: otherwise.toList))
      (conditional tree ((condition :: body :: otherwise.toList).map ofTree)) := by
  rw [anyAssignsCall_cons, anyAssignsCall_cons]
  refine .known rfl <| ReadsUnless.bind value fun condition _ =>
    (reads_blockPart rfl given).bind fun given _ => ?_
  have finished (other : Block) : ReadsUnless (fun _ => False)
      (if tree.label = "unless" then
          Except.ok (Node.conditional condition other given tree.location)
        else .ok (.conditional condition given other tree.location)) := by
    split <;> exact .done
  cases otherwise with
  | none => exact anyAssignsCall_nil ▸ .known rfl (finished _)
  | some arm =>
      have read : ReadsUnless arm.AssignsCall (elseBody (ofTree arm).tree (ofTree arm).parts) := by
        rw [ofTree_tree]
        exact branch arm rfl
      rw [Option.toList_some, anyAssignsCall_cons, anyAssignsCall_nil]
      exact read.bind fun other _ => finished other

theorem reads_clause (body : Role.block.Reads first) :
    ReadsUnless (AnyAssignsCall [first]) (clause tree [ofTree first]) := by
  rw [anyAssignsCall_cons, anyAssignsCall_nil]
  exact (reads_blockPart rfl body).bind fun _ _ => .done

theorem reads_case (matchers : Role.items.Reads first) (body : Role.block.Reads second) :
    ReadsUnless (AnyAssignsCall [first, second]) (case tree [ofTree first, ofTree second]) := by
  rw [anyAssignsCall_cons, anyAssignsCall_cons, anyAssignsCall_nil]
  exact .known rfl <| ReadsUnless.bind matchers fun _ _ => (reads_blockPart rfl body).bind
    fun _ _ => .done

/-- The arms of a switch: cases, and a block for the rest. -/
theorem reads_arms {arms : List Tree} {cases : List Case} {otherwise : Option Clause}
    (inside : ∀ arm ∈ arms, Readable arm)
    (kind : ∀ arm ∈ arms, arm.label = "case" ∨
      arm.label = "else" ∧ arm.children.map Tree.label = ["block"]) :
    ReadsUnless (AnyAssignsCall arms) (Reading.arms cases otherwise (arms.map ofTree)) := by
  induction arms generalizing cases otherwise with
  | nil => exact anyAssignsCall_nil ▸ .done
  | cons arm rest ih =>
      obtain ⟨readable, inside⟩ := List.forall_mem_cons.mp inside
      obtain ⟨labelled, kind⟩ := List.forall_mem_cons.mp kind
      rw [List.map_cons, Reading.arms, anyAssignsCall_cons, ofTree_tree]
      rcases labelled with labelled | ⟨labelled, block⟩
      · rw [if_pos labelled]
        exact (readable.as .case (by decide) labelled).bind fun _ _ => ih inside kind
      · rw [if_neg (by rw [labelled]; decide), if_pos labelled]
        exact ((readable.as .lastArm (by decide) labelled) block).bind fun _ _ => ih inside kind

theorem reads_switch {arms : List Tree} (subject : Role.node.Reads first)
    (inside : ∀ arm ∈ arms, Readable arm)
    (kind : ∀ arm ∈ arms, arm.label = "case" ∨
      arm.label = "else" ∧ arm.children.map Tree.label = ["block"]) :
    ReadsUnless (AnyAssignsCall (first :: arms)) (switch tree ((first :: arms).map ofTree)) := by
  refine ReadsUnless.congr ((reads_arms inside kind).bind fun _ _ =>
    ReadsUnless.followed subject fun _ => .done) fun place => ?_
  rw [anyAssignsCall_cons, or_comm]

theorem name_of (kind : tree.label = "reference") :
    name (ofTree tree).tree = .ok ⟨tree.content, tree.location⟩ := by
  rw [ofTree_tree, name, requireLabel_of kind]
  rfl

/-- A handler with a name for the exception, behind a type if there are two names. -/
theorem reads_handler {binding : Option Tree} (kind : first.label = "reference")
    (word : Role.word.Reads first)
    (named : ∀ name ∈ binding, name.label = "reference" ∧ Role.word.Reads name)
    (body : Role.block.Reads second) :
    ReadsUnless (AnyAssignsCall (first :: binding.toList ++ [second]))
      (handler tree ((first :: binding.toList ++ [second]).map ofTree)) := by
  have quiet : first.AssignsCall = fun _ => False := word
  have read : ReadsUnless second.AssignsCall
      (Reading.block (ofTree second).tree (ofTree second).parts) := by
    rw [ofTree_tree]
    exact body
  cases binding with
  | none =>
      have single : AnyAssignsCall [first, second] = second.AssignsCall := by simp [quiet]
      refine single ▸ ?_
      exact .known (name_of kind) <| read.followed fun _ => .done
  | some name =>
      obtain ⟨labelled, wordToo⟩ := named name rfl
      have quietToo : name.AssignsCall = fun _ => False := wordToo
      have single : AnyAssignsCall [first, name, second] = second.AssignsCall := by
        simp [quiet, quietToo]
      refine single ▸ ?_
      exact .known (name_of kind) <| .known (name_of labelled) <| read.followed fun _ => .done

/-- What follows a body: handlers, and a block for the end. -/
theorem reads_handlers {branches : List Tree} {found : List Handler} {cleanup : Option Clause}
    (inside : ∀ branch ∈ branches, Readable branch)
    (kind : ∀ branch ∈ branches, branch.label ∈ ["catch", "finally"]) :
    ReadsUnless (AnyAssignsCall branches) (handlers found cleanup (branches.map ofTree)) := by
  induction branches generalizing found cleanup with
  | nil => exact anyAssignsCall_nil ▸ .done
  | cons branch rest ih =>
      obtain ⟨readable, inside⟩ := List.forall_mem_cons.mp inside
      obtain ⟨labelled, kind⟩ := List.forall_mem_cons.mp kind
      rw [List.map_cons, handlers, anyAssignsCall_cons, ofTree_tree]
      simp only [List.mem_cons, List.not_mem_nil, or_false] at labelled
      rcases labelled with labelled | labelled
      · rw [if_pos labelled]
        exact (readable.as .handler (by decide) labelled).bind fun _ _ => ih inside kind
      · rw [if_neg (by rw [labelled]; decide), if_pos labelled]
        exact (readable.as .clause (by decide) labelled).bind fun _ _ => ih inside kind

theorem reads_attempt {branches : List Tree} (body : Role.block.Reads first)
    (inside : ∀ branch ∈ branches, Readable branch)
    (kind : ∀ branch ∈ branches, branch.label ∈ ["catch", "finally"]) :
    ReadsUnless (AnyAssignsCall (first :: branches))
      (attempt tree ((first :: branches).map ofTree)) := by
  have read : ReadsUnless first.AssignsCall
      (Reading.block (ofTree first).tree (ofTree first).parts) := by
    rw [ofTree_tree]
    exact body
  refine ReadsUnless.congr ((reads_handlers inside kind).bind fun _ _ =>
    read.followed fun _ => .done) fun place => ?_
  rw [anyAssignsCall_cons, or_comm]

theorem reads_payload (single : children.length ≤ 1)
    (inside : ∀ value ∈ children, Role.node.Reads value) :
    ReadsUnless (AnyAssignsCall children) (payload (children.map ofTree)) := by
  match children, single with
  | [], _ => exact anyAssignsCall_nil ▸ .done
  | [value], _ =>
      have same : AnyAssignsCall [value] = value.AssignsCall := by simp
      have read : ReadsUnless value.AssignsCall (ofTree value).node := inside value (by simp)
      rw [same]
      exact read.map _

/-- The statements of an interpolation stand in front of its end. -/
theorem reads_interpolationBody {statements : List Tree}
    (inside : ∀ statement ∈ statements, Role.node.Reads statement)
    (other : ∀ statement ∈ statements, statement.label ≠ "interpolation_end")
    (last : first.label = "interpolation_end") :
    ReadsUnless (AnyAssignsCall statements)
      (interpolationBody ((statements ++ [first]).map ofTree)) := by
  have kept : ((statements ++ [first]).map ofTree).filter
      (fun child => child.tree.label != "interpolation_end") = statements.map ofTree := by
    rw [List.map_append, List.filter_append, List.map_singleton, List.filter_eq_self.mpr,
      List.filter_eq_nil_iff.mpr, List.append_nil]
    · simp [last]
    · exact List.forall_mem_map.mpr fun statement listed => by simpa using other statement listed
  rw [interpolationBody, kept]
  exact reads_nodes inside

theorem reads_interpolation (kind : TextKind) {statements : List Tree}
    (labelled : tree.label = "interpolation")
    (inside : ∀ statement ∈ statements, Role.node.Reads statement)
    (other : ∀ statement ∈ statements, statement.label ≠ "interpolation_end")
    (last : first.label = "interpolation_end") (word : Role.word.Reads first) :
    ReadsUnless (AnyAssignsCall (statements ++ [first]))
      (pieces kind tree ((statements ++ [first]).map ofTree)) := by
  have quiet : first.AssignsCall = fun _ => False := word
  have stands : (((statements ++ [first]).map ofTree).find?
      fun child => child.tree.label == "interpolation_end").isSome := by
    rw [List.find?_isSome]
    exact ⟨ofTree first, List.mem_map_of_mem (by simp), by simp [last]⟩
  obtain ⟨ending, found⟩ := Option.isSome_iff_exists.mp stands
  rw [pieces, if_neg (by rw [labelled]; decide), if_neg (by rw [labelled]; decide),
    if_pos labelled, found]
  refine ((reads_interpolationBody inside other last).followed fun _ => .done).congr fun place => ?_
  simp [AnyAssignsCall, or_and_right, exists_or, quiet]

theorem reads_text (kind : TextKind) (inside : ∀ part ∈ children, Role.piece.Reads part) :
    ReadsUnless (AnyAssignsCall children) (text kind tree (children.map ofTree)) :=
  (reads_each fun part listed => inside part listed kind).followed fun _ => .done

theorem ensures_invocation (kind : tree.label = "invocation") :
    Ensures (ofTree tree).node fun node =>
      ∃ callable arguments, node = .invocation callable arguments tree.location := by
  rw [ofTree_eq]
  unfold nodeOf
  rw [kind]
  exact .after fun _ => .after fun _ => .after fun _ => .after fun _ => .ok ⟨_, _, rfl⟩

theorem ensures_target (kind : tree.label ∈ ["reference", "property"]) :
    Ensures (ofTree tree).node fun node =>
      (∃ name, node = .reference name) ∨ ∃ object key place, node = .property object key place := by
  rw [ofTree_eq]
  unfold nodeOf
  simp only [List.mem_cons, List.not_mem_nil, or_false] at kind
  rcases kind with kind | kind <;> rw [kind]
  · exact Ensures.map (fun _ _ => trivial) fun _ (_ : True) => .inl ⟨_, rfl⟩
  · exact .after fun _ => .after fun _ => .after fun _ => .ok (.inr ⟨_, _, _, rfl⟩)

/-- Whether the target is a call decides, once the target itself has been read. -/
theorem reads_assignment (kind : first.label ∈ targetLabels) (target : Role.node.Reads first)
    (value : Role.node.Reads second) :
    ReadsUnless (Tree.branch "assignment" place [first, second]).AssignsCall
      (assignment tree [ofTree first, ofTree second]) := by
  have read : ReadsUnless first.AssignsCall (ofTree first).node := target
  have calls (spot : Location) :
      (Tree.branch "assignment" place [first, second]).AssignsCall spot ↔
        first.label = "invocation" ∧ first.location = spot ∨
          first.AssignsCall spot ∨ second.AssignsCall spot := by
    rw [assignsCall_iff]
    simp [Tree.branch]
  by_cases called : first.label = "invocation"
  · have refused : ReadsUnless (fun spot => first.AssignsCall spot ∨ first.location = spot)
        (assignment tree [ofTree first, ofTree second]) := by
      refine .known rfl <| read.bind fun node found => ?_
      obtain ⟨callable, arguments, rfl⟩ := ensures_invocation called node found
      exact .error rfl
    refine refused.weaken ⟨first.location, .inr rfl⟩ ?_
    rintro spot (inner | rfl)
    · exact (calls spot).mpr (.inr (.inl inner))
    · exact (calls _).mpr (.inl ⟨called, rfl⟩)
  · have named : first.label ∈ ["reference", "property"] := by
      simpa [targetLabels, called] using kind
    have granted : ReadsUnless (fun spot => first.AssignsCall spot ∨ second.AssignsCall spot)
        (assignment tree [ofTree first, ofTree second]) := by
      refine .known rfl <| read.bind fun node found => ?_
      rcases ensures_target named node found with ⟨name, rfl⟩ | ⟨object, key, place, rfl⟩
      · exact .known rfl <| ReadsUnless.followed value fun _ => .done
      · exact .known rfl <| ReadsUnless.followed value fun _ => .done
    refine granted.congr fun spot => ?_
    rw [calls]
    simp [called]

end

end Reading

end Syntax

end RipInterpreter
