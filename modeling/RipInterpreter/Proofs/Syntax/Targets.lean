import RipInterpreter.Syntax.Text

namespace RipInterpreter.Syntax

namespace Node

/-- The nodes inside a node that are evaluated in its scope, those in the head of a lambda left out.
Blocks, lambdas, bodies of classes and interpolations have frames of their own. -/
def parts : Node → List Node
  | .keyValue pair => [pair.key, pair.value]
  | .range start last _ _ => [start, last]
  | .list items _ => items
  | .map pairs _ => pairs.flatMap fun pair => [pair.key, pair.value]
  | .assignment (.property object _ _) value _ => [object, value]
  | .assignment _ value _ => [value]
  | .property object _ _ => [object]
  | .invocation callable arguments _ => callable :: arguments
  | .classDefinition ancestors _ _ => ancestors
  | .conditional condition _ _ _ => [condition]
  | .switch subject cases _ _ => subject :: cases.flatMap Case.matchers
  | .throwing payload _ => [payload]
  | .returning payload _ => payload.toList
  | .exiting payload _ => payload.toList
  | _ => []

/-- The parameters in the head of a lambda. A literal among them is evaluated where the lambda is
made. -/
def parameters : Node → List Node
  | .lambda definition => definition.parameters
  | .overloads definitions _ => definitions.flatMap Lambda.parameters
  | _ => []

/-- The name is the target of a reference assignment that is written in the node outside any nested
block, lambda, class body or interpolation. -/
inductive Assigns : Node → String → Prop
  | target (name : Name) (value : Node) (place : Location) :
    Assigns (.assignment (.reference name) value place) name.text
  | part {node part : Node} {name : String} (inside : part ∈ node.parts)
    (assigned : Assigns part name) : Assigns node name

/-- Like `Assigns`, but an assignment in the head of a lambda counts, too. -/
inductive Binds : Node → String → Prop
  | target (name : Name) (value : Node) (place : Location) :
    Binds (.assignment (.reference name) value place) name.text
  | part {node part : Node} {name : String} (inside : part ∈ node.parts)
    (bound : Binds part name) : Binds node name
  | parameter {node parameter : Node} {name : String} (inside : parameter ∈ node.parameters)
    (bound : Binds parameter name) : Binds node name

/-- What the grammar allows as a parameter: a name, a number, a character or a string. A string with
interpolations is a chain of calls of `+`. -/
inductive Literal : Node → Prop
  | reference (name : Name) : Literal (.reference name)
  | integer (digits : String) (place : Location) : Literal (.integer digits place)
  | decimal (digits : String) (place : Location) : Literal (.decimal digits place)
  | character (glyph : Glyph) : Literal (.character glyph)
  | string (glyphs : List Glyph) (place : Location) : Literal (.string glyphs place)
  | interpolation (body : List Node) (place : Location) : Literal (.interpolation body place)
  | joined {left right : Node} (place : Location) (first : Literal left) (second : Literal right) :
    Literal (operatorCall left "+" place right)

/-- The nodes directly inside a node, wherever they are evaluated. -/
def contents : Node → List Node
  | .interpolation body _ => body
  | .keyValue pair => [pair.key, pair.value]
  | .range start last _ _ => [start, last]
  | .list items _ => items
  | .map pairs _ => pairs.flatMap fun pair => [pair.key, pair.value]
  | .assignment target value _ => [target, value]
  | .property object _ _ => [object]
  | .invocation callable arguments _ => callable :: arguments
  | .lambda definition => definition.parameters ++ definition.body.statements
  | .overloads definitions _ =>
    definitions.flatMap fun definition => definition.parameters ++ definition.body.statements
  | .classDefinition ancestors body _ => ancestors ++ body.statements
  | .block body => body.statements
  | .conditional condition body otherwise _ => condition :: body.statements ++ otherwise.statements
  | .switch subject cases otherwise _ =>
    subject :: cases.flatMap (fun case => case.matchers ++ case.body.statements) ++
      otherwise.toList.flatMap fun clause => clause.body.statements
  | .attempt body handlers cleanup _ =>
    body.statements ++ handlers.flatMap (fun handler => handler.body.statements) ++
      cleanup.toList.flatMap fun clause => clause.body.statements
  | .throwing payload _ => [payload]
  | .returning payload _ => payload.toList
  | .exiting payload _ => payload.toList
  | _ => []

/-- Wherever a lambda stands in the node, its parameters are names and literals. -/
inductive Plain : Node → Prop
  | intro {node : Node} (heads : ∀ parameter ∈ node.parameters, parameter.Literal)
    (inside : ∀ inner ∈ node.contents, inner.Plain) : Plain node

theorem Literal.not_binds {node : Node} (literal : node.Literal) (name : String) :
    ¬ node.Binds name := by
  induction literal with
  | joined place first second ihFirst ihSecond =>
      intro bound
      cases bound with
      | part inside bound =>
          rcases List.mem_cons.mp inside with rfl | inside
          · cases bound with
            | part inside bound =>
                rw [List.mem_singleton.mp inside] at bound
                exact ihFirst bound
            | parameter inside _ => cases inside
          · rw [List.mem_singleton.mp inside] at bound
            exact ihSecond bound
      | parameter inside _ => cases inside
  | _ =>
      intro bound
      cases bound with
      | part inside _ => cases inside
      | parameter inside _ => cases inside

theorem Plain.parameter {node parameter : Node} (plain : node.Plain)
    (inside : parameter ∈ node.parameters) : parameter.Literal := by
  cases plain with
  | intro heads _ => exact heads parameter inside

theorem Plain.inner {node inner : Node} (plain : node.Plain) (inside : inner ∈ node.contents) :
    inner.Plain := by
  cases plain with
  | intro _ contents => exact contents inner inside

theorem Plain.part {node part : Node} (plain : node.Plain) (inside : part ∈ node.parts) :
    part.Plain := by
  cases node with
  | assignment target value place =>
      have written : part = value → part.Plain := fun same =>
        same ▸ plain.inner (List.mem_cons_of_mem _ List.mem_cons_self)
      cases target with
      | property object key at_ =>
          have owner : (Node.property object key at_).Plain := plain.inner List.mem_cons_self
          rcases List.mem_cons.mp inside with rfl | inside
          · exact owner.inner List.mem_cons_self
          · exact written (List.mem_singleton.mp inside)
      | _ => exact written (List.mem_singleton.mp inside)
  | classDefinition ancestors body place => exact plain.inner (List.mem_append_left _ inside)
  | conditional condition body otherwise place =>
      exact plain.inner (List.mem_append_left _ (List.mem_singleton.mp inside ▸ List.mem_cons_self))
  | switch subject cases otherwise place =>
      refine plain.inner (List.mem_append_left _ ?_)
      rcases List.mem_cons.mp inside with rfl | inside
      · exact List.mem_cons_self
      · obtain ⟨case, listed, matching⟩ := List.mem_flatMap.mp inside
        exact List.mem_cons_of_mem _
          (List.mem_flatMap.mpr ⟨case, listed, List.mem_append_left _ matching⟩)
  | keyValue | range | list | map | property | invocation | throwing | returning | exiting =>
      exact plain.inner inside
  | _ => exact absurd inside List.not_mem_nil

/-- Literals in the heads of lambdas assign nothing, so that both notions agree. -/
theorem Binds.assigns {node : Node} {name : String} (bound : node.Binds name)
    (plain : node.Plain) : node.Assigns name := by
  induction bound with
  | target name value place => exact .target name value place
  | part inside _ ih => exact .part inside (ih (plain.part inside))
  | parameter inside bound _ => exact absurd bound ((plain.parameter inside).not_binds _)

end Node

end RipInterpreter.Syntax
