import RipInterpreter.Concrete.Grammar

/-!
The trees that the grammar makes, as derivations: which labels the parts of a tree may have is
decided by its own label alone.
-/

namespace RipInterpreter.Concrete

open Parsing Parser

def textLabels : List String := ["string", "regular_expression"]

/-- What stands inside a string or a regular expression. -/
def pieceLabels : List String := ["character", "escape", "interpolation"]

def numberLabels : List String := ["decimal", "integer"]

/-- What a pair may start with. -/
def simpleLabels : List String := "character" :: numberLabels ++ textLabels

def rangeableLabels : List String := ["integer", "character", "reference"]

/-- What a lambda may have as a parameter: a name, or a literal to compare with. -/
def parameterLabels : List String := ["decimal", "integer", "character", "string", "reference"]

def targetLabels : List String := ["reference", "property", "invocation"]

def constructLabels : List String := ["if", "unless", "switch", "try", "throw", "return", "exit"]

def valueLabels : List String :=
  ["key_value", "range", "exclusive_range", "list", "map", "binary", "class", "lambda",
    "overloads"] ++ targetLabels ++ constructLabels ++ simpleLabels

def statementLabels : List String := "comment" :: "assignment" :: valueLabels

/-- The trees that read as nodes. -/
def nodeLabels : List String := "block" :: statementLabels

/-- The labels that the trees of a rule may have. -/
def Rule.labels : Rule → List String
  | .module => ["module"]
  | _ => nodeLabels

/-- Leaves whose text does not matter for the shape of a tree. -/
def wordLabels : List String :=
  ["comment", "reference", "decimal", "integer", "keyword", "name", "operator", "interpolation_end"]

/-- What a leaf with a label may spell. -/
inductive Spelled : (label text : String) → Prop
  | character (c : Char) : Spelled "character" (.singleton c)
  | escape (c : Char) : Spelled "escape" (.ofList ['\\', c])
  | word {label : String} (kind : label ∈ wordLabels) (text : String) : Spelled label text

/-- The labels that the parts of a branch with a label may have. -/
inductive Production : (label : String) → (parts : List String) → Prop
  | text {label : String} {pieces : List String} (kind : label ∈ textLabels)
    (inside : ∀ piece ∈ pieces, piece ∈ pieceLabels) : Production label pieces
  | interpolation {statements : List String}
    (inside : ∀ statement ∈ statements, statement ∈ statementLabels) :
    Production "interpolation" (statements ++ ["interpolation_end"])
  | keyValue {key value : String} (first : key ∈ simpleLabels) (second : value ∈ valueLabels) :
    Production "key_value" [key, value]
  | range {label start last : String} (kind : label ∈ ["range", "exclusive_range"])
    (first : start ∈ rangeableLabels) (second : last ∈ rangeableLabels) :
    Production label [start, last]
  | values {label : String} {items : List String} (kind : label ∈ ["list", "arguments", "matchers"])
    (inside : ∀ item ∈ items, item ∈ valueLabels) : Production label items
  | map {pairs : List String} (inside : ∀ pair ∈ pairs, pair ∈ ["key_value"]) :
    Production "map" pairs
  | statements {label : String} {parts : List String} (kind : label ∈ ["block", "module"])
    (inside : ∀ part ∈ parts, part ∈ statementLabels) : Production label parts
  | property {object : String} (value : object ∈ valueLabels) :
    Production "property" [object, "name"]
  | invocation {callable : String} (value : callable ∈ valueLabels) :
    Production "invocation" [callable, "arguments"]
  | binary {first : String} {operands : List String} (value : first ∈ valueLabels)
    (values : ∀ operand ∈ operands, operand ∈ valueLabels) :
    Production "binary" (first :: operands.flatMap fun operand => ["operator", operand])
  | assignment {target value : String} (first : target ∈ targetLabels)
    (second : value ∈ valueLabels) : Production "assignment" [target, value]
  | conditional {label condition : String} {otherwise : List String} (kind : label ∈ ["if", "unless"])
    (value : condition ∈ valueLabels) (branch : otherwise ∈ [[], ["else"]]) :
    Production label (condition :: "block" :: otherwise)
  | otherwise {body : String} (branch : body ∈ ["block", "if", "unless"]) : Production "else" [body]
  | cleanup : Production "finally" ["block"]
  | case : Production "case" ["matchers", "block"]
  | switch {subject : String} {cases otherwise : List String} (value : subject ∈ valueLabels)
    (arms : ∀ case ∈ cases, case ∈ ["case"]) (branch : otherwise ∈ [[], ["else"]]) :
    Production "switch" (subject :: cases ++ otherwise)
  | handler {matcher : List String} (named : matcher ∈ [[], ["reference"]]) :
    Production "catch" ("reference" :: matcher ++ ["block"])
  | attempt {handlers cleanup : List String} (caught : ∀ handler ∈ handlers, handler ∈ ["catch"])
    (branch : cleanup ∈ [[], ["finally"]]) (some : handlers ++ cleanup ≠ []) :
    Production "try" ("block" :: handlers ++ cleanup)
  | throwing {payload : String} (value : payload ∈ valueLabels) : Production "throw" [payload]
  | leaving {label : String} {payload : List String} (kind : label ∈ ["return", "exit"])
    (single : payload.length ≤ 1) (values : ∀ value ∈ payload, value ∈ valueLabels) :
    Production label payload
  | classDefinition : Production "class" ["ancestors", "block"]
  | ancestors {parents : List String} (inside : ∀ parent ∈ parents, parent ∈ ["class", "reference"]) :
    Production "ancestors" parents
  | lambda : Production "lambda" ["keyword", "parameters", "block"]
  | parameters {parts : List String} (inside : ∀ part ∈ parts, part ∈ parameterLabels) :
    Production "parameters" parts
  | overloads {definitions : List String} (some : definitions ≠ [])
    (inside : ∀ definition ∈ definitions, definition ∈ ["lambda"]) :
    Production "overloads" definitions

theorem Production.lambda_parts {label : String} {parts : List String}
    (production : Production label parts) (same : label = "lambda") :
    parts = ["keyword", "parameters", "block"] := by
  cases production with
  | lambda => rfl
  | text kind | range kind | values kind | statements kind | conditional kind | leaving kind =>
      rw [same] at kind
      exact absurd kind (by decide)
  | _ => exact absurd same (by decide)

theorem Production.parameters_parts {label : String} {parts : List String}
    (production : Production label parts) (same : label = "parameters") :
    ∀ part ∈ parts, part ∈ parameterLabels := by
  cases production with
  | parameters inside => exact inside
  | text kind | range kind | values kind | statements kind | conditional kind | leaving kind =>
      rw [same] at kind
      exact absurd kind (by decide)
  | _ => exact absurd same (by decide)

namespace Tree

/-- The first tree is the second one or stands somewhere in it. -/
inductive PartOf : Tree → Tree → Prop
  | whole (tree : Tree) : PartOf tree tree
  | inside {part child tree : Tree} (listed : child ∈ tree.children) (within : PartOf part child) :
    PartOf part tree

/-- The last arm of a switch holds a block. Only that of a conditional may hold another one. -/
def LastArm (label : String) (children : List Tree) : Prop :=
  label = "switch" → ∀ arm ∈ children, arm.label = "else" → arm.children.map Tree.label = ["block"]

/-- The tree follows the productions everywhere. -/
inductive Derived : Tree → Prop
  | leaf {label : String} {span : Span} (spelled : Spelled label span.text) :
    Derived (.leaf label span)
  | branch {label : String} {children : List Tree} (place : Location)
    (production : Production label (children.map Tree.label)) (last : LastArm label children)
    (inside : ∀ child ∈ children, child.Derived) : Derived (.branch label place children)

/-- The tree is derived and its label is one of several. -/
def Among (labels : List String) (tree : Tree) : Prop := tree.Derived ∧ tree.label ∈ labels

/-- Every tree of a list is derived and has one of several labels. -/
def AllAmong (labels : List String) (trees : List Tree) : Prop := ∀ tree ∈ trees, tree.Among labels

variable {labels more : List String} {label : String} {tree first second : Tree}
  {trees : List Tree}

theorem Derived.inside (derived : tree.Derived) : ∀ child ∈ tree.children, child.Derived := by
  cases derived with
  | leaf spelled => exact List.forall_mem_nil _
  | branch place production last inside => exact inside

theorem Derived.produced (derived : tree.Derived) :
    tree.children = [] ∨ Production tree.label (tree.children.map Tree.label) := by
  cases derived with
  | leaf spelled => exact .inl rfl
  | branch place production last inside => exact .inr production

theorem Among.mono (among : tree.Among labels) (wider : ∀ label ∈ labels, label ∈ more) :
    tree.Among more := ⟨among.1, wider _ among.2⟩

theorem among_leaf {span : Span} (spelled : Spelled label span.text) (kind : label ∈ labels) :
    (leaf label span).Among labels := ⟨.leaf spelled, kind⟩

theorem among_branch {place : Location} (other : label ≠ "switch") (kind : label ∈ labels)
    (production : Production label (trees.map Tree.label)) (inside : ∀ child ∈ trees, child.Derived) :
    (branch label place trees).Among labels :=
  ⟨.branch place production (fun same => absurd same other) inside, kind⟩

theorem among_own {place : Location} (other : label ≠ "switch")
    (production : Production label (trees.map Tree.label)) (inside : ∀ child ∈ trees, child.Derived) :
    (branch label place trees).Among [label] :=
  among_branch other (List.mem_singleton_self _) production inside

theorem AllAmong.derived (all : AllAmong labels trees) : ∀ tree ∈ trees, tree.Derived :=
  fun tree listed => (all tree listed).1

theorem AllAmong.labelled (all : AllAmong labels trees) :
    ∀ label ∈ trees.map Tree.label, label ∈ labels :=
  List.forall_mem_map.mpr fun tree listed => (all tree listed).2

/-- The parts that an optional one adds to a branch. -/
theorem labels_optional {found : Option Tree} (met : ∀ tree ∈ found, tree.Among [label]) :
    found.toList.map Tree.label ∈ [[], [label]] ∧ ∀ tree ∈ found.toList, tree.Derived := by
  cases found with
  | none => simp
  | some tree =>
      have among := met tree rfl
      have same : tree.label = label := List.mem_singleton.mp among.2
      simp [same, among.1]

theorem two_of_labels {a b : String} (spelled : trees.map Tree.label = [a, b]) :
    ∃ first second, trees = [first, second] ∧ first.label = a ∧ second.label = b := by
  obtain ⟨first, _, rfl, labelled, rest⟩ := List.map_eq_cons_iff.mp spelled
  obtain ⟨second, rfl, last⟩ := List.map_eq_singleton_iff.mp rest
  exact ⟨first, second, rfl, labelled, last⟩

theorem three_of_labels {a b c : String} (spelled : trees.map Tree.label = [a, b, c]) :
    ∃ first second third, trees = [first, second, third] ∧
      first.label = a ∧ second.label = b ∧ third.label = c := by
  obtain ⟨first, _, rfl, labelled, rest⟩ := List.map_eq_cons_iff.mp spelled
  obtain ⟨second, third, rfl, others⟩ := two_of_labels rest
  exact ⟨first, second, third, rfl, labelled, others⟩

theorem optional_of_labels {a : String} (spelled : trees.map Tree.label ∈ [[], [a]]) :
    ∃ found : Option Tree, trees = found.toList ∧ ∀ tree ∈ found, tree.label = a := by
  simp only [List.mem_cons, List.not_mem_nil, or_false] at spelled
  rcases spelled with spelled | spelled
  · exact ⟨none, List.map_eq_nil_iff.mp spelled, by simp⟩
  · obtain ⟨tree, rfl, labelled⟩ := List.map_eq_singleton_iff.mp spelled
    exact ⟨some tree, rfl, by simpa using labelled⟩

theorem derived_pair (key : first.Derived) (value : second.Derived) :
    ∀ child ∈ [first, second], child.Derived :=
  List.forall_mem_cons.mpr ⟨key, List.forall_mem_singleton.mpr value⟩

end Tree

end RipInterpreter.Concrete
