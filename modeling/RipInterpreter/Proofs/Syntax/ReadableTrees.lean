import RipInterpreter.Proofs.Syntax.AssignedCalls

namespace RipInterpreter.Syntax

open Concrete (Tree Production Spelled nodeLabels pieceLabels rangeableLabels simpleLabels
  targetLabels textLabels valueLabels wordLabels)
open Concrete.Tree

variable {α : Type}

namespace Reading

variable {tree : Tree}

/-- A label that allows a single role. -/
theorem readable_of_role (label : String) (kind : tree.label = label) (role : Role)
    (only : Role.allowed label = [role]) (reads : role.Reads tree) : Readable tree := by
  intro other asked
  have allowed : other ∈ Role.allowed label := Role.mem_allowed (kind ▸ asked)
  rw [only] at allowed
  exact List.mem_singleton.mp allowed ▸ reads

theorem readable_node {label : String} {place : Location} {children : List Tree}
    (only : Role.allowed label = [.node]) (other : label ≠ "assignment")
    (reads : ReadsUnless (AnyAssignsCall children)
      (nodeOf (.branch label place children) (children.map ofTree))) :
    Readable (.branch label place children) := by
  refine readable_of_role label rfl .node only ?_
  rw [Role.Reads, node_branch]
  exact reads_parts other reads

/-- A label that allows to be read as a node in another way. -/
theorem readable_both {label : String} {place : Location} {children : List Tree} (role : Role)
    (both : Role.allowed label = [.node, role]) (other : label ≠ "assignment")
    (reads : role.Reads (.branch label place children))
    (node : ReadsUnless (AnyAssignsCall children)
      (nodeOf (.branch label place children) (children.map ofTree))) :
    Readable (.branch label place children) := by
  intro known asked
  have allowed : known ∈ Role.allowed label := Role.mem_allowed asked
  simp only [both, List.mem_cons, List.not_mem_nil, or_false] at allowed
  rcases allowed with rfl | rfl
  · rw [Role.Reads, node_branch]
    exact reads_parts other node
  · exact reads

theorem readable_items {label : String} {place : Location} {children : List Tree}
    (only : Role.allowed label = [.items]) (other : label ≠ "assignment")
    (inside : ∀ child ∈ children, Role.node.Reads child) :
    Readable (.branch label place children) := by
  refine readable_of_role label rfl .items only ?_
  rw [Role.Reads, ofTree_parts]
  exact reads_parts other (reads_nodes inside)

theorem assignsCall_leaf (label : String) (span : Parsing.Span) :
    (Tree.leaf label span).AssignsCall = fun _ => False := by
  funext place
  rw [assignsCall_iff]
  simp [Tree.leaf]

theorem glyph_of {c : Char} {span : Parsing.Span} (spelled : span.text = .singleton c) :
    glyph (.leaf "character" span) = .ok ⟨c, span.location⟩ := by
  have content : (Tree.leaf "character" span).content.toList = [c] := by
    change span.text.toList = [c]
    rw [spelled, String.toList_singleton]
  rw [glyph, content]
  rfl

/-- Words are nodes or stand for themselves. -/
theorem roles_word {label : String} (kind : label ∈ wordLabels) (role : Role)
    (asked : label ∈ role.labels) :
    role = .word ∨ role = .node ∧ label ∈ ["comment", "reference", "decimal", "integer"] := by
  have known : ∀ label ∈ wordLabels, label ∈ role.labels →
      role = .word ∨ role = .node ∧ label ∈ ["comment", "reference", "decimal", "integer"] := by
    cases role <;> decide
  exact known label kind asked

theorem pieces_character {kind : TextKind} {parts : List Reading}
    (labelled : tree.label = "character") :
    pieces kind tree parts = do return [.glyph (← glyph tree)] := by rw [pieces, if_pos labelled]

theorem pieces_escape {kind : TextKind} {parts : List Reading} {backslash c : Char}
    (labelled : tree.label = "escape") (content : tree.content.toList = [backslash, c]) :
    pieces kind tree parts = .ok ((kind.escaped c tree.location).map .glyph) := by
  rw [pieces, if_neg (by rw [labelled]; decide), if_pos labelled, content]

theorem readable_leaf {label : String} {span : Parsing.Span} (spelled : Spelled label span.text) :
    Readable (.leaf label span) := by
  have quiet := assignsCall_leaf label span
  have fine {β : Type} {attempt : Except Error β} (value : β) (found : attempt = .ok value) :
      ReadsUnless (Tree.leaf label span).AssignsCall attempt := by
    rw [quiet, found]
    exact .done
  have node (value : Node) (found : nodeOf (.leaf label span) [] = .ok value) :
      Role.node.Reads (.leaf label span) :=
    fine value (by rw [ofTree_eq]; exact found)
  generalize same : span.text = text at spelled
  cases spelled with
  | character c =>
      have read := glyph_of same
      intro role asked
      change "character" ∈ _ at asked
      cases role with
      | node => exact node _ (congrArg (Node.character <$> ·) read)
      | piece =>
          exact fun kind => fine [.glyph ⟨c, span.location⟩] (by
            rw [pieces_character rfl, read]
            rfl)
      | _ => exact absurd asked (by decide)
  | escape c =>
      have content : (Tree.leaf "escape" span).content.toList = ['\\', c] := by
        change span.text.toList = _
        rw [same, String.toList_ofList]
      exact readable_of_role "escape" rfl .piece (by decide) fun kind =>
        fine ((kind.escaped c span.location).map .glyph) (pieces_escape rfl content)
  | word kind =>
      intro role asked
      rcases roles_word kind role asked with rfl | ⟨rfl, kind⟩
      · exact quiet
      · simp only [List.mem_cons, List.not_mem_nil, or_false] at kind
        rcases kind with rfl | rfl | rfl | rfl
        · exact node _ rfl
        · exact node _ rfl
        · exact node _ rfl
        · exact node _ rfl

/-- By the production of the tree. -/
theorem readable_branch {label : String} {labels : List String} {place : Location}
    {children : List Tree} (production : Production label labels)
    (spelled : children.map Tree.label = labels) (arms : LastArm label children)
    (inside : ∀ child ∈ children, Readable child) : Readable (.branch label place children) := by
  have all {kinds : List String} (role : Role) (allowed : ∀ kind ∈ kinds, kind ∈ role.labels)
      (labelled : ∀ label ∈ labels, label ∈ kinds) : ∀ child ∈ children, role.Reads child :=
    fun child listed => inside child listed role
      (allowed _ (labelled _ (spelled ▸ List.mem_map_of_mem listed)))
  have value : ∀ label ∈ valueLabels, label ∈ nodeLabels := by decide
  cases production with
  | text kind pieces =>
      have read := all .piece (fun _ => id) pieces
      simp only [textLabels, List.mem_cons, List.not_mem_nil, or_false] at kind
      rcases kind with rfl | rfl
      · exact readable_node (by decide) (by decide) (reads_text .string read)
      · exact readable_node (by decide) (by decide) (reads_text .regularExpression read)
  | interpolation statements =>
      obtain ⟨body, _, rfl, rfl, ending⟩ := List.map_eq_append_iff.mp spelled
      obtain ⟨closing, rfl, labelled⟩ := List.map_eq_singleton_iff.mp ending
      have known := List.forall_mem_map.mp statements
      refine readable_of_role "interpolation" rfl .piece (by decide) fun kind =>
        reads_role (by decide) <| reads_interpolation kind rfl (fun statement listed => ?_)
          (fun statement listed same => ?_) labelled ?_
      · exact inside statement (List.mem_append_left _ listed) .node
          (List.mem_cons_of_mem _ (known statement listed))
      · exact absurd (same ▸ known statement listed) (by decide)
      · exact (inside closing (by simp)).as .word (by decide) labelled
  | keyValue first second =>
      obtain ⟨key, content, rfl, rfl, rfl⟩ := two_of_labels spelled
      have simple : ∀ label ∈ simpleLabels, label ∈ nodeLabels := by decide
      have read : ReadsUnless (AnyAssignsCall [key, content])
          (pair (.branch "key_value" place [key, content]) [ofTree key, ofTree content]) :=
        reads_pair rfl (inside key (by simp) .node (simple _ first))
          (inside content (by simp) .node (value _ second))
      exact readable_both .pair (by decide) (by decide)
        (reads_role (by decide) read) (read.map _)
  | range kind first second =>
      obtain ⟨start, last, rfl, rfl, rfl⟩ := two_of_labels spelled
      have bound : ∀ label ∈ rangeableLabels, label ∈ nodeLabels := by decide
      have read (exclusive : Bool) (tree : Tree) : ReadsUnless (AnyAssignsCall [start, last])
          (nodeOf.range tree [ofTree start, ofTree last] exclusive) :=
        reads_range exclusive (inside start (by simp) .node (bound _ first))
          (inside last (by simp) .node (bound _ second))
      simp only [List.mem_cons, List.not_mem_nil, or_false] at kind
      rcases kind with rfl | rfl
      · exact readable_node (by decide) (by decide) (read false _)
      · exact readable_node (by decide) (by decide) (read true _)
  | values kind items =>
      have known := all .node value items
      simp only [List.mem_cons, List.not_mem_nil, or_false] at kind
      rcases kind with rfl | rfl | rfl
      · exact readable_node (by decide) (by decide) ((reads_nodes known).followed fun _ => .done)
      · exact readable_items (by decide) (by decide) known
      · exact readable_items (by decide) (by decide) known
  | map pairs =>
      have read := reads_each (all .pair (by decide) pairs)
      exact readable_node (by decide) (by decide) (read.followed fun _ => .done)
  | statements kind parts =>
      have known := all .node (fun _ => List.mem_cons_of_mem "block") parts
      simp only [List.mem_cons, List.not_mem_nil, or_false] at kind
      rcases kind with rfl | rfl
      · have read : ReadsUnless (AnyAssignsCall children)
            (block (.branch "block" place children) (children.map ofTree)) := reads_block rfl known
        exact readable_both .block (by decide) (by decide)
          (reads_role (by decide) read) (read.map _)
      · exact readable_items (by decide) (by decide) known
  | property object =>
      obtain ⟨first, name, rfl, rfl, word⟩ := two_of_labels spelled
      exact readable_node (by decide) (by decide) (reads_property
        (inside first (by simp) .node (value _ object))
        ((inside name (by simp)).as .word (by decide) word))
  | invocation callable =>
      obtain ⟨first, arguments, rfl, rfl, items⟩ := two_of_labels spelled
      exact readable_node (by decide) (by decide) (reads_invocation
        (inside first (by simp) .node (value _ callable))
        ((inside arguments (by simp)).as .items (by decide) items))
  | binary first values =>
      obtain ⟨start, links, rfl, rfl, rest⟩ := List.map_eq_cons_iff.mp spelled
      obtain ⟨readable, inside⟩ := List.forall_mem_cons.mp inside
      exact readable_node (by decide) (by decide) (reads_chain (readable .node (value _ first)) rest
        (fun operand listed => value _ (values operand listed)) inside)
  | assignment first second =>
      obtain ⟨target, content, rfl, rfl, rfl⟩ := two_of_labels spelled
      have wider : ∀ label ∈ targetLabels, label ∈ nodeLabels := by decide
      refine readable_of_role "assignment" rfl .node (by decide) ?_
      rw [Role.Reads, node_branch]
      exact reads_assignment first (inside target (by simp) .node (wider _ first))
        (inside content (by simp) .node (value _ second))
  | conditional kind condition branch =>
      obtain ⟨first, _, rfl, rfl, rest⟩ := List.map_eq_cons_iff.mp spelled
      obtain ⟨body, _, rfl, block, rfl⟩ := List.map_eq_cons_iff.mp rest
      obtain ⟨otherwise, rfl, labelled⟩ := optional_of_labels branch
      have read (tree : Tree) : ReadsUnless (AnyAssignsCall (first :: body :: otherwise.toList))
          (conditional tree ((first :: body :: otherwise.toList).map ofTree)) :=
        reads_conditional (inside first (by simp) .node (value _ condition))
          ((inside body (by simp)).as .block (by decide) block) fun branch found =>
            (inside branch (by simp [Option.mem_def.mp found])).as .otherwise (by decide)
              (labelled branch found)
      simp only [List.mem_cons, List.not_mem_nil, or_false] at kind
      rcases kind with rfl | rfl
      · exact readable_node (by decide) (by decide) (read _)
      · exact readable_node (by decide) (by decide) (read _)
  | otherwise branch =>
      obtain ⟨body, rfl, rfl⟩ := List.map_eq_singleton_iff.mp spelled
      have readable := inside body (by simp)
      intro role asked
      change "else" ∈ _ at asked
      cases role with
      | otherwise => exact reads_role (by decide) (reads_elseBody rfl branch readable)
      | lastArm =>
          intro single
          have block : body.label = "block" := by simpa [Tree.branch] using single
          exact reads_role (by decide) (reads_clause (readable.as .block (by decide) block))
      | _ => exact absurd asked (by decide)
  | cleanup =>
      obtain ⟨body, rfl, block⟩ := List.map_eq_singleton_iff.mp spelled
      exact readable_of_role "finally" rfl .clause (by decide) (reads_role (by decide) (reads_clause
        ((inside body (by simp)).as .block (by decide) block)))
  | case =>
      obtain ⟨matchers, body, rfl, items, block⟩ := two_of_labels spelled
      exact readable_of_role "case" rfl .case (by decide) (reads_role (by decide) (reads_case
        ((inside matchers (by simp)).as .items (by decide) items)
        ((inside body (by simp)).as .block (by decide) block)))
  | switch subject cases branch =>
      obtain ⟨_, last, rfl, rest, rfl⟩ := List.map_eq_append_iff.mp spelled
      obtain ⟨first, some, rfl, rfl, rfl⟩ := List.map_eq_cons_iff.mp rest
      have listed (arm : Tree) (found : arm ∈ some ++ last) : arm ∈ first :: some ++ last :=
        List.mem_cons_of_mem first found
      refine readable_node (by decide) (by decide) (reads_switch
        (inside first (by simp) .node (value _ subject))
        (fun arm found => inside arm (listed arm found)) fun arm found => ?_)
      rcases List.mem_append.mp found with early | late
      · exact .inl (List.mem_singleton.mp (List.forall_mem_map.mp cases arm early))
      · obtain ⟨otherwise, rfl, labelled⟩ := optional_of_labels branch
        have kind : arm.label = "else" := labelled arm (Option.mem_toList.mp late)
        exact .inr ⟨kind, arms rfl arm (listed arm found) kind⟩
  | handler named =>
      obtain ⟨whole, last, rfl, rest, ending⟩ := List.map_eq_append_iff.mp spelled
      obtain ⟨first, names, rfl, word, rfl⟩ := List.map_eq_cons_iff.mp rest
      obtain ⟨body, rfl, block⟩ := List.map_eq_singleton_iff.mp ending
      obtain ⟨binding, rfl, labelled⟩ := optional_of_labels named
      have bound (name : Tree) (found : name ∈ binding) :
          name.label = "reference" ∧ Role.word.Reads name :=
        ⟨labelled name found, (inside name (by simp [Option.mem_def.mp found])).as .word (by decide)
          (labelled name found)⟩
      exact readable_of_role "catch" rfl .handler (by decide) (reads_role (by decide)
        (reads_handler word ((inside first (by simp)).as .word (by decide) word) bound
          ((inside body (by simp)).as .block (by decide) block)))
  | attempt caught branch =>
      obtain ⟨_, last, rfl, rest, rfl⟩ := List.map_eq_append_iff.mp spelled
      obtain ⟨body, handlers, rfl, block, rfl⟩ := List.map_eq_cons_iff.mp rest
      refine readable_node (by decide) (by decide) (reads_attempt
        ((inside body (by simp)).as .block (by decide) block)
        (fun part found => inside part (List.mem_cons_of_mem body found)) fun part found => ?_)
      rcases List.mem_append.mp found with early | late
      · have kind := List.mem_singleton.mp (List.forall_mem_map.mp caught part early)
        exact List.mem_cons.mpr (.inl kind)
      · obtain ⟨cleanup, rfl, labelled⟩ := optional_of_labels branch
        have kind := labelled part (Option.mem_toList.mp late)
        exact List.mem_cons_of_mem _ (List.mem_singleton.mpr kind)
  | throwing payload =>
      obtain ⟨first, rfl, rfl⟩ := List.map_eq_singleton_iff.mp spelled
      exact readable_node (by decide) (by decide) (reads_throwing
        (inside first (by simp) .node (value _ payload)))
  | leaving kind single values =>
      have read := reads_payload (by simpa [← spelled] using single) (all .node value values)
      simp only [List.mem_cons, List.not_mem_nil, or_false] at kind
      rcases kind with rfl | rfl
      · exact readable_node (by decide) (by decide) (read.followed fun _ => .done)
      · exact readable_node (by decide) (by decide) (read.followed fun _ => .done)
  | classDefinition =>
      obtain ⟨ancestors, body, rfl, items, block⟩ := two_of_labels spelled
      exact readable_node (by decide) (by decide) (reads_class
        ((inside ancestors (by simp)).as .items (by decide) items)
        ((inside body (by simp)).as .block (by decide) block))
  | ancestors parents =>
      exact readable_items (by decide) (by decide) (all .node (by decide) parents)
  | lambda =>
      obtain ⟨word, parameters, body, rfl, spelling, items, block⟩ := three_of_labels spelled
      have read : ReadsUnless (AnyAssignsCall [word, parameters, body])
          (lambda (.branch "lambda" place [word, parameters, body])
            [ofTree word, ofTree parameters, ofTree body]) :=
        reads_lambda rfl ((inside word (by simp)).as .word (by decide) spelling)
          ((inside parameters (by simp)).as .items (by decide) items)
          ((inside body (by simp)).as .block (by decide) block)
      exact readable_both .lambda (by decide) (by decide)
        (reads_role (by decide) read) (read.map _)
  | parameters parts => exact readable_items (by decide) (by decide) (all .node (by decide) parts)
  | overloads some definitions =>
      have read := reads_each (all .lambda (by decide) definitions)
      exact readable_node (by decide) (by decide) (read.followed fun _ => .done)

/-- By induction on the derivation. -/
theorem readable_of_derived (derived : tree.Derived) : Readable tree := by
  induction derived with
  | leaf spelled => exact readable_leaf spelled
  | branch place production arms inside ih => exact readable_branch production rfl arms ih

end Reading

/-- An attempt to read a tree that fails for a call that is assigned to, and for nothing else. -/
structure FailsForCalls (tree : Tree) (attempt : Except Error α) : Prop where
  fails : (∃ error, attempt = .error error) ↔ ∃ place, tree.AssignsCall place
  fault : ∀ error, attempt = .error error → ∃ place, tree.AssignsCall place ∧
    error = .compiler (.notAssignable "Invocation") (some place) ∧
    error.message = "compiler error: cannot assign to Invocation" ++ Error.placeText (some place)

theorem ReadsUnless.failsForCalls {tree : Tree} {attempt : Except Error α}
    (reads : ReadsUnless tree.AssignsCall attempt) : FailsForCalls tree attempt := by
  cases reads with
  | ok none =>
      refine ⟨Iff.intro ?_ fun ⟨place, call⟩ => absurd call (none place), ?_⟩
      · rintro ⟨_, ⟨⟩⟩
      · rintro _ ⟨⟩
  | @error place call =>
      refine ⟨Iff.intro (fun _ => ⟨place, call⟩) fun _ => ⟨_, rfl⟩, ?_⟩
      rintro _ ⟨⟩
      exact ⟨place, call, rfl, message_callAssigned place⟩

/-- The tree of every text that parses reads as a module unless it assigns to a call, and so does
the tree of every other rule as a node. -/
theorem trees_fail_for_assigned_calls :
    (∀ origin text tree, Tree.ofText origin text = .ok tree →
      FailsForCalls tree (Module.ofTree tree)) ∧
    ∀ (rule : Concrete.Rule) source cursor tree after,
      rule.parser source cursor = .matched tree after →
        rule ≠ .module → FailsForCalls tree (Node.ofTree tree) := by
  refine ⟨fun origin text tree parsed => ?_, fun rule source cursor tree after matched other => ?_⟩
  · have among : tree.Among ["module"] := Concrete.derived_of_text parsed
    have kind : tree.label = "module" := List.mem_singleton.mp among.2
    have read : ReadsUnless tree.AssignsCall (Reading.nodes (Reading.ofTree tree).parts) :=
      Reading.readable_of_derived among.1 .items (by rw [kind]; decide)
    rw [Reading.ofTree_parts, ← Reading.ofTrees_eq_map] at read
    exact ReadsUnless.failsForCalls <|
      .known (Reading.requireLabel_of kind) (read.followed fun _ => .done)
  · have among : tree.Among rule.labels :=
      Concrete.yields_over (Concrete.derived_within _) rule source cursor tree after matched
    have kind : tree.label ∈ nodeLabels := by
      have labelled := among.2
      cases rule with
      | module => exact absurd rfl other
      | _ => exact labelled
    exact ReadsUnless.failsForCalls (Reading.readable_of_derived among.1 .node kind)

/-- The text `f() = 1` parses, but the call of `f` cannot be assigned to. -/
theorem trees_fail_for_assigned_calls_of_text :
    ∃ tree place, Tree.ofText "sample" "f() = 1" = .ok tree ∧ tree.AssignsCall place ∧
      Module.ofTree tree = .error (.compiler (.notAssignable "Invocation") (some place)) := by
  have checked : ((Tree.ofText "sample" "f() = 1").toOption.any fun tree =>
      (Module.ofTree tree).toOption.isNone) = true := by decide +kernel
  cases parsed : Tree.ofText "sample" "f() = 1" with
  | error error =>
      rw [parsed] at checked
      cases checked
  | ok tree =>
      rw [parsed] at checked
      have fails := trees_fail_for_assigned_calls.1 "sample" "f() = 1" tree parsed
      cases read : Module.ofTree tree with
      | ok module => simp [Except.toOption, read] at checked
      | error error =>
          obtain ⟨place, call, rfl, -⟩ := fails.fault error read
          exact ⟨tree, place, rfl, call, read⟩

end RipInterpreter.Syntax
