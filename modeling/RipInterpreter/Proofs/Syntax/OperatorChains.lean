import RipInterpreter.Proofs.Concrete.OperatorChains
import RipInterpreter.Proofs.Syntax.Bare
import RipInterpreter.Syntax.Reading

namespace RipInterpreter.Syntax

open Concrete (Chain Link Operand Operations Calls Suffix Tree operation)

/-- The node that an operand at a place is read as. -/
def operandNode (place : Location) : Operand → Node
  | .numeral digits .. => .integer digits place
  | .name word .. => .reference ⟨word, place⟩

/-- Calls from the left, everything at one place. -/
def callsFrom (place : Location) (joined : Node) (links : List Link) : Node :=
  links.foldl
    (fun joined link =>
      operatorCall joined link.operator.text place (operandNode place link.operand)) joined

/-- The calls that a chain stands for, everything at one place. -/
def chainCalls (place : Location) (chain : Chain) : Node :=
  callsFrom place (operandNode place chain.first) chain.links

variable {origin : String} {place : Location} {joined node : Node} {links : List Link}
  {trees : List (List Tree)} {suffixes : List Suffix} {tree : Tree}

theorem ofTree_operand (place : Location) (operand : Operand) :
    Node.ofTree (operand.tree place) = .ok (operandNode place operand) := by
  cases operand <;> rfl

theorem bare_operand (place : Location) (operand : Operand) :
    (operandNode place operand).bare = operandNode place.bare operand := by
  cases operand <;> rfl

theorem bare_operatorCall (joined argument : Node) (operator : String) (place : Location) :
    (operatorCall joined operator place argument).bare =
      operatorCall joined.bare operator place.bare argument.bare := rfl

theorem bare_of_origin (same : place.origin = origin) :
    place.bare = (Location.start origin).bare := by
  unfold Location.bare
  rw [same]
  rfl

theorem reads_operations (operations : Operations origin links trees)
    (same : joined.bare = node) :
    ∃ read, Reading.operatorCalls joined (Reading.ofTrees trees.flatten) = .ok read ∧
      read.bare = callsFrom (Location.start origin).bare node links ∧
      (Reading.ofTrees trees.flatten).length = 2 * links.length := by
  induction operations generalizing joined node with
  | nil => exact ⟨joined, rfl, same, rfl⟩
  | @cons link links trees operatorPlace operandPlace first second rest ih =>
      have called : (operatorCall joined link.operator.text operatorPlace
          (operandNode operandPlace link.operand)).bare =
          operatorCall node link.operator.text (Location.start origin).bare
            (operandNode (Location.start origin).bare link.operand) := by
        rw [bare_operatorCall, bare_operand, same, bare_of_origin first, bare_of_origin second]
      obtain ⟨read, reads, folded, counted⟩ := ih called
      refine ⟨read, ?_, folded, ?_⟩
      · change (Reading.ofTree (link.operand.tree operandPlace)).node.bind _ = _
        rw [show (Reading.ofTree (link.operand.tree operandPlace)).node = _ from
          ofTree_operand operandPlace link.operand]
        exact reads
      · change (Reading.ofTrees trees.flatten).length + 1 + 1 = _
        rw [counted, List.length_cons]
        omega

/-- A chain without links is its operand, any other one is folded. -/
theorem reads_operation (operations : Operations origin links trees) (first : Operand) :
    ∃ read, Node.ofTree (operation (first.tree (.start origin)) trees) = .ok read ∧
      read.bare = chainCalls (Location.start origin).bare ⟨first, links⟩ := by
  obtain ⟨read, reads, folded, counted⟩ := reads_operations operations (bare_operand _ first)
  refine ⟨read, ?_, folded⟩
  unfold operation
  split
  · rename_i empty
    rw [List.isEmpty_iff.mp empty] at reads
    cases reads
    exact ofTree_operand _ first
  · change (if (Reading.ofTrees trees.flatten).length % 2 = 0 then
      (Node.ofTree (first.tree (.start origin))).bind fun first =>
        Reading.operatorCalls first (Reading.ofTrees trees.flatten) else _) = _
    rw [counted, if_pos (Nat.mul_mod_right 2 _), ofTree_operand]
    exact reads

theorem reads_calls (calls : Calls origin links suffixes) (reads : Node.ofTree tree = .ok joined)
    (same : joined.bare = node) :
    ∃ read, Node.ofTree (suffixes.foldl Suffix.attach tree) = .ok read ∧
      read.bare = callsFrom (Location.start origin).bare node links := by
  induction calls generalizing tree joined node with
  | nil => exact ⟨joined, reads, same⟩
  | @cons link links suffixes name opening argument first second third rest ih =>
      have property : Node.ofTree (Suffix.attach tree (.property ⟨link.operator.text, name⟩)) =
          .ok (.property joined link.operator.text name) := by
        change (Node.ofTree tree).bind _ = _
        rw [reads]
        rfl
      have invocation : Node.ofTree (Suffix.attach (Suffix.attach tree
            (.property ⟨link.operator.text, name⟩))
          (.invocation opening [link.operand.tree argument])) =
          .ok (.invocation (.property joined link.operator.text name)
            [operandNode argument link.operand] opening) := by
        change (Node.ofTree (Suffix.attach tree (.property ⟨link.operator.text, name⟩))).bind _ = _
        rw [property]
        change ((Node.ofTree (link.operand.tree argument)).bind _).bind _ = _
        rw [ofTree_operand]
        rfl
      refine ih invocation ?_
      change Node.invocation (.property joined.bare _ name.bare)
        [(operandNode argument link.operand).bare] opening.bare = _
      rw [same, bare_operand, bare_of_origin first, bare_of_origin second, bare_of_origin third]
      rfl

theorem ofText_of_tree {text : String} (parsed : Tree.ofText origin text =
      .ok (.branch "module" (.start origin) [tree])) (reads : Node.ofTree tree = .ok node) :
    Module.ofText origin text = .ok ⟨[node], .start origin⟩ := by
  unfold Module.ofText
  rw [parsed]
  change ((Node.ofTree tree).bind _).bind _ = _
  rw [reads]
  rfl

/-- Operations between operands and dotted calls are read as the same calls, from the left. -/
theorem operations_are_calls (origin : String) (chain : Chain) (unassigning : chain.Unassigning) :
    ∃ spaced dotted : Node,
      Module.ofText origin chain.spaced = .ok ⟨[spaced], .start origin⟩ ∧
      Module.ofText origin chain.dotted = .ok ⟨[dotted], .start origin⟩ ∧
      spaced.bare = chainCalls (Location.start origin).bare chain ∧
      dotted.bare = chainCalls (Location.start origin).bare chain := by
  obtain ⟨trees, operations, parsed⟩ := Concrete.ofText_spaced origin unassigning
  obtain ⟨suffixes, calls, parsed₁⟩ := Concrete.ofText_dotted origin chain
  obtain ⟨spaced, reads, folded⟩ := reads_operation operations chain.first
  obtain ⟨dotted, reads₁, folded₁⟩ :=
    reads_calls calls (ofTree_operand _ chain.first) (bare_operand _ chain.first)
  exact ⟨spaced, dotted, ofText_of_tree parsed reads, ofText_of_tree parsed₁ reads₁, folded, folded₁⟩

/-- A word of an incomplete construct, and operators that look like other constructs. -/
theorem operations_are_calls_of_words :
    ∃ spaced dotted : Node,
      Module.ofText "rspec" "case => 20 / x_1" = .ok ⟨[spaced], .start "rspec"⟩ ∧
      Module.ofText "rspec" "case.=>(20)./(x_1)" = .ok ⟨[dotted], .start "rspec"⟩ ∧
      ∃ place, spaced.bare = dotted.bare ∧ dotted.bare =
        operatorCall (operatorCall (.reference ⟨"case", place⟩) "=>" place (.integer "20" place))
          "/" place (.reference ⟨"x_1", place⟩) := by
  let chain : Chain :=
    { first := .name "case" (by decide) (List.all_eq_true.mp (by decide)) (by simp) (by decide)
      links :=
        [⟨⟨"=>", by decide, by simp [Concrete.operatorSymbols]⟩, .numeral "20" (by decide) (by simp)⟩,
          ⟨⟨"/", by decide, by simp [Concrete.operatorSymbols]⟩,
            .name "x_1" (by decide) (List.all_eq_true.mp (by decide)) (by simp) (by decide)⟩] }
  have unassigning : chain.Unassigning := by
    rintro - _ ⟨⟩
    decide
  have spacedText : chain.spaced = "case => 20 / x_1" := by decide +kernel
  have dottedText : chain.dotted = "case.=>(20)./(x_1)" := by decide +kernel
  obtain ⟨spaced, dotted, first, second, folded, folded₁⟩ :=
    operations_are_calls "rspec" chain unassigning
  rw [spacedText] at first
  rw [dottedText] at second
  exact ⟨spaced, dotted, first, second, _, folded.trans folded₁.symm, folded₁⟩

end RipInterpreter.Syntax
