import Mathlib.Data.List.Forall2
import RipInterpreter.Proofs.Concrete.Productions
import RipInterpreter.Proofs.Syntax.Members

namespace RipInterpreter.Syntax

open Concrete (Tree Production nodeLabels pieceLabels rangeableLabels simpleLabels
  statementLabels targetLabels textLabels valueLabels wordLabels)
open Concrete.Tree

/-- The labels of the trees that the grammar has for a duty. -/
def Duty.labels : Duty → List String
  | .module => ["module"]
  | .node => nodeLabels
  | .items => ["arguments", "matchers", "ancestors", "parameters"]
  | .branch => ["else"]
  | .case => ["case"]
  | .handler => ["catch"]
  | .clause _ => ["else", "finally"]
  | .piece _ => pieceLabels
  | .word => wordLabels

namespace Member

/-- The members are all the trees, and each has a duty that its label is made for. -/
inductive Covers : List Member → List Tree → Prop
  | nil : Covers [] []
  | cons {tree : Tree} {duty : Duty} {members : List Member} {trees : List Tree}
    (fits : tree.label ∈ duty.labels) (rest : Covers members trees) :
    Covers (⟨tree, duty⟩ :: members) (tree :: trees)

variable {duty : Duty} {children : List Tree} {label kind : String}

theorem pruned_of_covers {member : Member} (covers : Covers member.members member.tree.children)
    (inside : ∀ child ∈ member.tree.children, ∀ duty, child.label ∈ Duty.labels duty →
      Member.pruned ⟨child, duty⟩ = child) : member.pruned = member.tree := by
  have same {members : List Member} {trees : List Tree} (covers : Covers members trees)
      (inside : ∀ child ∈ trees, ∀ duty, child.label ∈ Duty.labels duty →
        Member.pruned ⟨child, duty⟩ = child) : members.map pruned = trees := by
    induction covers with
    | nil => rfl
    | cons fits _ ih =>
        obtain ⟨first, others⟩ := List.forall_mem_cons.mp inside
        rw [List.map_cons, first _ fits, ih others]
  obtain ⟨⟨label, place, text, children⟩, duty⟩ := member
  rw [pruned_eq, same covers inside]

theorem covers_each (fits : ∀ child ∈ children, child.label ∈ duty.labels) :
    Covers (each duty children) children := by
  induction children with
  | nil => exact .nil
  | cons child rest ih =>
      obtain ⟨first, others⟩ := List.forall_mem_cons.mp fits
      exact .cons first (ih others)

/-- The parts have as many of the duties as there are parts. -/
theorem covers_first {labels : List String} {duties : List Duty}
    (spelled : children.map Tree.label = labels)
    (fits : List.Forall₂ (fun label (duty : Duty) => label ∈ duty.labels) labels
      (duties.take labels.length)) : Covers (first duties children) children := by
  induction labels generalizing duties children with
  | nil =>
      cases List.map_eq_nil_iff.mp spelled
      exact .nil
  | cons label rest ih =>
      obtain ⟨child, others, rfl, rfl, spelledOthers⟩ := List.map_eq_cons_iff.mp spelled
      cases duties with
      | nil => cases fits
      | cons duty more =>
          obtain ⟨front, fitsOthers⟩ := List.forall₂_cons.mp fits
          exact .cons front (ih spelledOthers fitsOthers)

theorem covers_links {operands : List String}
    (spelled : children.map Tree.label = operands.flatMap fun operand => ["operator", operand])
    (values : ∀ operand ∈ operands, operand ∈ nodeLabels) : Covers (links children) children := by
  induction operands generalizing children with
  | nil =>
      cases List.map_eq_nil_iff.mp spelled
      exact .nil
  | cons operand rest ih =>
      obtain ⟨operator, _, rfl, word, spelledRest⟩ := List.map_eq_cons_iff.mp spelled
      obtain ⟨first, others, rfl, rfl, spelledOthers⟩ := List.map_eq_cons_iff.mp spelledRest
      obtain ⟨value, values⟩ := List.forall_mem_cons.mp values
      have fits : operator.label ∈ Duty.labels .word := word ▸ (by decide : "operator" ∈ wordLabels)
      exact .cons fits (.cons value (ih spelledOthers values))

/-- At most the last branch is a clause. -/
theorem covers_branches {last : Option Tree} (clause : label ∈ ["else", "finally"])
    (fits : ∀ child ∈ children, child.label ∈ duty.labels) (apart : label ∉ duty.labels)
    (ends : ∀ child ∈ last, child.label = label) :
    Covers (branches duty label kind (children ++ last.toList)) (children ++ last.toList) := by
  induction children with
  | nil =>
      cases last with
      | none => exact .nil
      | some child =>
          have labelled : child.label = label := ends child rfl
          rw [Option.toList_some, List.nil_append, branches_last labelled (by simp)]
          exact .cons (labelled ▸ clause) .nil
  | cons child rest ih =>
      obtain ⟨first, others⟩ := List.forall_mem_cons.mp fits
      have other : child.label ≠ label := fun same => apart (same ▸ first)
      rw [List.cons_append, branches_other other]
      exact .cons first (ih others)

theorem covers_statements {closing : Tree} (fits : ∀ child ∈ children, child.label ∈ nodeLabels)
    (last : closing.label = "interpolation_end") :
    Covers (statements (children ++ [closing])) (children ++ [closing]) := by
  induction children with
  | nil =>
      have alone : statements [closing] = [⟨closing, .word⟩] := by
        simp [statements, withFirst, last]
      rw [List.nil_append, alone]
      exact .cons (last ▸ (by decide : "interpolation_end" ∈ wordLabels)) .nil
  | cons child rest ih =>
      obtain ⟨first, others⟩ := List.forall_mem_cons.mp fits
      have other : child.label ≠ "interpolation_end" := fun same =>
        absurd (same ▸ first : "interpolation_end" ∈ nodeLabels) (by decide)
      have front : statements (child :: (rest ++ [closing])) =
          ⟨child, .node⟩ :: statements (rest ++ [closing]) := by
        simp [statements, withFirst, other]
      rw [List.cons_append, front]
      exact .cons first (ih others)

/-- The labels of branches with a single duty. -/
def soleLabels : List String :=
  ["string", "regular_expression", "key_value", "range", "exclusive_range", "list", "map", "block",
    "property", "invocation", "binary", "assignment", "if", "unless", "switch", "try", "throw",
    "return", "exit", "class", "lambda", "overloads", "arguments", "matchers", "ancestors",
    "parameters", "case", "catch", "module"]

/-- The duty of the branches with a label. -/
def soleDuty (label : String) : Duty :=
  if label ∈ ["arguments", "matchers", "ancestors", "parameters"] then .items
  else if label = "case" then .case
  else if label = "catch" then .handler
  else if label = "module" then .module
  else .node

theorem duty_of_label (kind : label ∈ soleLabels) (fits : label ∈ duty.labels) :
    duty = soleDuty label := by
  have apart {others : List String} (fits : label ∈ others)
      (none : ∀ label ∈ soleLabels, label ∉ others) : duty = soleDuty label :=
    absurd fits (none label kind)
  have known {duty : Duty} (fits : label ∈ duty.labels)
      (same : ∀ label ∈ soleLabels, label ∈ duty.labels → duty = soleDuty label) :
      duty = soleDuty label := same label kind fits
  cases duty with
  | clause => exact apart (show label ∈ ["else", "finally"] from fits) (by decide)
  | piece => exact apart (show label ∈ pieceLabels from fits) (by decide)
  | _ => exact known fits (by decide)

/-- A branch of a label with a single duty is covered if it is for that duty. -/
theorem covers_of_sole {place : Location} (kind : label ∈ soleLabels) (fits : label ∈ duty.labels)
    (covers : Covers (members ⟨.branch label place children, soleDuty label⟩) children) :
    Covers (members ⟨.branch label place children, duty⟩) children := by
  rw [duty_of_label kind fits]
  exact covers

/-- By the production of the tree. -/
theorem covers_of_production {place : Location} {labels : List String}
    (production : Production label labels) (spelled : children.map Tree.label = labels)
    (fits : label ∈ duty.labels) : Covers (members ⟨.branch label place children, duty⟩) children := by
  have all (duty : Duty) {kinds : List String} (allowed : ∀ kind ∈ kinds, kind ∈ duty.labels)
      (labelled : ∀ label ∈ labels, label ∈ kinds) : Covers (each duty children) children :=
    covers_each fun child listed => allowed _ (labelled _ (spelled ▸ List.mem_map_of_mem listed))
  have value : ∀ label ∈ valueLabels, label ∈ nodeLabels := by decide
  have simple : ∀ label ∈ simpleLabels, label ∈ nodeLabels := by decide
  have bound : ∀ label ∈ rangeableLabels, label ∈ nodeLabels := by decide
  have target : ∀ label ∈ targetLabels, label ∈ nodeLabels := by decide
  have statement : ∀ label ∈ statementLabels, label ∈ nodeLabels := fun _ =>
    List.mem_cons_of_mem "block"
  have block : "block" ∈ Duty.node.labels := by decide
  cases production with
  | text kind pieces =>
      simp only [textLabels, List.mem_cons, List.not_mem_nil, or_false] at kind
      rcases kind with rfl | rfl
      · exact covers_of_sole (by decide) fits (all (.piece .string) (fun _ => id) pieces)
      · exact covers_of_sole (by decide) fits (all (.piece .regularExpression) (fun _ => id) pieces)
  | interpolation statements =>
      obtain ⟨body, _, rfl, rfl, ending⟩ := List.map_eq_append_iff.mp spelled
      obtain ⟨closing, rfl, labelled⟩ := List.map_eq_singleton_iff.mp ending
      have inside : ∀ child ∈ body, child.label ∈ nodeLabels := fun child listed =>
        statement _ (statements _ (List.mem_map_of_mem listed))
      cases duty with
      | piece kind => exact covers_statements inside labelled
      | clause => exact absurd (show _ ∈ ["else", "finally"] from fits) (by decide)
      | _ => exact absurd fits (by decide)
  | keyValue first second =>
      exact covers_of_sole (by decide) fits
        (covers_first spelled (.cons (simple _ first) (.cons (value _ second) .nil)))
  | range kind first second =>
      have both : Covers (Member.first [.node, .node] children) children :=
        covers_first spelled (.cons (bound _ first) (.cons (bound _ second) .nil))
      simp only [List.mem_cons, List.not_mem_nil, or_false] at kind
      rcases kind with rfl | rfl
      · exact covers_of_sole (by decide) fits both
      · exact covers_of_sole (by decide) fits both
  | values kind items =>
      have inside := all .node value items
      simp only [List.mem_cons, List.not_mem_nil, or_false] at kind
      rcases kind with rfl | rfl | rfl
      · exact covers_of_sole (by decide) fits inside
      · exact covers_of_sole (by decide) fits inside
      · exact covers_of_sole (by decide) fits inside
  | map pairs => exact covers_of_sole (by decide) fits (all .node (by decide) pairs)
  | statements kind parts =>
      have inside := all .node statement parts
      simp only [List.mem_cons, List.not_mem_nil, or_false] at kind
      rcases kind with rfl | rfl
      · exact covers_of_sole (by decide) fits inside
      · exact covers_of_sole (by decide) fits inside
  | property object =>
      exact covers_of_sole (by decide) fits
        (covers_first spelled (.cons (value _ object) (.cons (by decide) .nil)))
  | invocation callable =>
      exact covers_of_sole (by decide) fits
        (covers_first spelled (.cons (value _ callable) (.cons (by decide) .nil)))
  | binary head values =>
      obtain ⟨start, links, rfl, rfl, rest⟩ := List.map_eq_cons_iff.mp spelled
      have front : members ⟨.branch "binary" place (start :: links), .node⟩ =
          ⟨start, .node⟩ :: Member.links links := by simp [members, ofNode, first, Tree.branch]
      exact covers_of_sole (by decide) fits (front ▸ .cons (value _ head)
        (covers_links rest fun operand listed => value _ (values operand listed)))
  | assignment first second =>
      exact covers_of_sole (by decide) fits
        (covers_first spelled (.cons (target _ first) (.cons (value _ second) .nil)))
  | conditional kind test branch =>
      have inside : Covers (first [.node, .node, .branch] children) children := by
        simp only [List.mem_cons, List.not_mem_nil, or_false] at branch
        rcases branch with rfl | rfl
        · exact covers_first spelled (.cons (value _ test) (.cons block .nil))
        · exact covers_first spelled (.cons (value _ test) (.cons block (.cons (by decide) .nil)))
      simp only [List.mem_cons, List.not_mem_nil, or_false] at kind
      rcases kind with rfl | rfl
      · exact covers_of_sole (by decide) fits inside
      · exact covers_of_sole (by decide) fits inside
  | otherwise branch =>
      have wider : ∀ label ∈ ["block", "if", "unless"], label ∈ nodeLabels := by decide
      have single : Covers (first [.node] children) children :=
        covers_first spelled (.cons (wider _ branch) .nil)
      cases duty with
      | branch | clause => exact single
      | piece => exact absurd (show _ ∈ pieceLabels from fits) (by decide)
      | _ => exact absurd fits (by decide)
  | cleanup =>
      have single : Covers (first [.node] children) children :=
        covers_first spelled (.cons block .nil)
      cases duty with
      | clause => exact single
      | piece => exact absurd (show _ ∈ pieceLabels from fits) (by decide)
      | _ => exact absurd fits (by decide)
  | case =>
      exact covers_of_sole (by decide) fits
        (covers_first spelled (.cons (by decide) (.cons block .nil)))
  | switch subject cases branch =>
      obtain ⟨_, last, rfl, rest, rfl⟩ := List.map_eq_append_iff.mp spelled
      obtain ⟨start, some, rfl, rfl, rfl⟩ := List.map_eq_cons_iff.mp rest
      obtain ⟨otherwise, rfl, labelled⟩ := optional_of_labels branch
      have front : members ⟨.branch "switch" place (start :: (some ++ otherwise.toList)), .node⟩ =
          ⟨start, .node⟩ :: branches .case "else" "Else" (some ++ otherwise.toList) := by
        simp [members, ofNode, first, Tree.branch]
      exact covers_of_sole (by decide) fits (front ▸ .cons (value _ subject)
        (covers_branches (by decide) (List.forall_mem_map.mp cases) (by decide) labelled))
  | handler named =>
      have inside : Covers (first (handlerDuties children) children) children := by
        have count := congrArg List.length spelled
        rw [List.length_map] at count
        simp only [List.mem_cons, List.not_mem_nil, or_false] at named
        rcases named with rfl | rfl
        · refine covers_first spelled ?_
          rw [handlerDuties, count]
          exact .cons (by decide) (.cons block .nil)
        · refine covers_first spelled ?_
          rw [handlerDuties, count]
          exact .cons (by decide) (.cons (by decide) (.cons block .nil))
      exact covers_of_sole (by decide) fits inside
  | attempt caught branch =>
      obtain ⟨_, last, rfl, rest, rfl⟩ := List.map_eq_append_iff.mp spelled
      obtain ⟨body, handlers, rfl, given, rfl⟩ := List.map_eq_cons_iff.mp rest
      obtain ⟨cleanup, rfl, labelled⟩ := optional_of_labels branch
      have front : members ⟨.branch "try" place (body :: (handlers ++ cleanup.toList)), .node⟩ =
          ⟨body, .node⟩ :: branches .handler "finally" "Finally" (handlers ++ cleanup.toList) := by
        simp [members, ofNode, first, Tree.branch]
      exact covers_of_sole (by decide) fits (front ▸ .cons (given ▸ block)
        (covers_branches (by decide) (List.forall_mem_map.mp caught) (by decide) labelled))
  | throwing payload =>
      exact covers_of_sole (by decide) fits (covers_first spelled (.cons (value _ payload) .nil))
  | leaving kind single values =>
      have inside : Covers (first [.node] children) children := by
        rcases labels with _ | ⟨payload, _ | ⟨other, rest⟩⟩
        · exact covers_first spelled .nil
        · exact covers_first spelled (.cons (value _ (values _ List.mem_cons_self)) .nil)
        · exact absurd single (by simp)
      simp only [List.mem_cons, List.not_mem_nil, or_false] at kind
      rcases kind with rfl | rfl
      · exact covers_of_sole (by decide) fits inside
      · exact covers_of_sole (by decide) fits inside
  | classDefinition =>
      exact covers_of_sole (by decide) fits
        (covers_first spelled (.cons (by decide) (.cons block .nil)))
  | ancestors parents => exact covers_of_sole (by decide) fits (all .node (by decide) parents)
  | lambda =>
      exact covers_of_sole (by decide) fits
        (covers_first spelled (.cons (by decide) (.cons (by decide) (.cons block .nil))))
  | parameters parts => exact covers_of_sole (by decide) fits (all .node (by decide) parts)
  | overloads some definitions =>
      exact covers_of_sole (by decide) fits (all .node (by decide) definitions)

/-- By induction on the derivation. -/
theorem pruned_of_derived {tree : Tree} (derived : tree.Derived) :
    ∀ duty, tree.label ∈ Duty.labels duty → Member.pruned ⟨tree, duty⟩ = tree := by
  induction derived with
  | @leaf label span spelled =>
      intro duty _
      have none : members ⟨.leaf label span, duty⟩ = [] :=
        List.eq_nil_iff_forall_not_mem.mpr fun inner listed =>
          absurd (mem_members listed) List.not_mem_nil
      rw [pruned_eq, none]
      rfl
  | branch place production last inside ih =>
      intro duty fits
      exact pruned_of_covers (covers_of_production production rfl fits) ih

end Member

end RipInterpreter.Syntax
