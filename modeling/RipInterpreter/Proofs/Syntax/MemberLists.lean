import RipInterpreter.Proofs.Syntax.MemberReadings

namespace RipInterpreter.Syntax

open Concrete (Tree)
open Outline (Among)

variable {α : Type}

namespace Reading

open Member (first branches handlerDuties kept)

/-- Reads branches and the clause that ends them, behind those already read. -/
def readBranches (label last : String) (convert : Tree → List Reading → Except Error α)
    (found : List α) (ending : Option Clause) :
    List Reading → Except Error (List α × Option Clause)
  | [] => .ok (found, ending)
  | branch :: rest => do
    if branch.tree.label = label then
      readBranches label last convert (found ++ [← convert branch.tree branch.parts]) ending rest
    else if branch.tree.label = last then
      readBranches label last convert found (some (← clause branch.tree branch.parts)) rest
    else throw (malformed branch.tree)

theorem arms_eq (cases : List Case) (otherwise : Option Clause) (parts : List Reading) :
    arms cases otherwise parts = readBranches "case" "else" case cases otherwise parts := by
  induction parts generalizing cases otherwise with
  | nil => rfl
  | cons arm rest ih => simp only [arms, readBranches, ih]

theorem handlers_eq (found : List Handler) (cleanup : Option Clause) (parts : List Reading) :
    handlers found cleanup parts = readBranches "catch" "finally" handler found cleanup parts := by
  induction parts generalizing found cleanup with
  | nil => rfl
  | cons branch rest ih => simp only [handlers, readBranches, ih]

variable {children : List Tree} {label last kind : String} {duty : Duty}
  {convert : Tree → List Reading → Except Error α} {wrap : α → Item}

theorem settles_clauseMember {child : Tree} (known : Member.Settled ⟨child, .clause kind⟩) :
    Settles (fun found => Member.read ⟨child, .clause kind⟩ = .ok (.clause kind found))
      (clause child (ofTree child).parts)
      (clause (Member.pruned ⟨child, .clause kind⟩)
        (ofTree (Member.pruned ⟨child, .clause kind⟩)).parts) :=
  settles_as (fun tree => clause tree (ofTree tree).parts)
    (fun _ _ same => (Item.clause.inj same).2) (fun _ => rfl) known

/-- By induction on the branches. The clauses that were read in front may differ, if another one is to
come. -/
theorem settles_readBranches (apart : label ≠ last) (same : Function.Injective wrap)
    (reads : ∀ tree, Member.read ⟨tree, duty⟩ = wrap <$> convert tree (ofTree tree).parts)
    (known : AllSettled children) {found : List α}
    {ending ending₁ : Option Clause}
    (alike : ending = ending₁ ∨ ∃ later ∈ children, later.label = last) :
    Settles (fun result => ∃ (added : List α) (own : Option Clause), result.1 = found ++ added ∧
        result.2 = own.or ending ∧ (own.isSome ↔ ∃ later ∈ children, later.label = last) ∧
        Gathered (branches duty last kind children)
          (added.flatMap (fun value => (wrap value).outlines) ++ clauseOutlines kind own))
      (readBranches label last convert found ending (children.map ofTree))
      (readBranches label last convert found ending₁ (kept (branches duty last kind children))) := by
  induction children generalizing found ending ending₁ with
  | nil =>
      have equal : ending = ending₁ := by simpa using alike
      subst equal
      exact .ok ⟨[], none, by simp, by simp, by simp, .nil _⟩
  | cons child rest ih =>
      obtain ⟨one, more⟩ := List.forall_mem_cons.mp known
      rw [List.map_cons, readBranches, ofTree_tree]
      by_cases labelled : child.label = label
      · have other : child.label ≠ last := labelled ▸ apart
        have settled :=
          settles_as (fun tree => convert tree (ofTree tree).parts) same reads (one duty)
        rw [if_pos labelled, Member.branches_other other, kept, List.map_cons, readBranches,
          ofTree_tree, Member.label_pruned, if_pos labelled]
        refine settled.bind fun value read => (ih more (by simpa [other] using alike)).mono ?_
        rintro result ⟨added, own, values, ends, some, gathered⟩
        refine ⟨value :: added, own, by simpa using values, ends, by simpa [other] using some, ?_⟩
        simpa using Gathered.cons read gathered
      rw [if_neg labelled]
      by_cases ended : child.label = last
      · have settled := settles_clauseMember (one (.clause kind))
        rw [if_pos ended]
        by_cases later : ∃ later ∈ rest, later.label = last
        · rw [Member.branches_again ended later]
          refine settled.skip fun value => (ih more (.inr later)).mono ?_
          rintro result ⟨added, own, values, ends, some, gathered⟩
          obtain ⟨own, rfl⟩ := Option.isSome_iff_exists.mp (some.mpr later)
          exact ⟨added, own, values, ends, by simp [ended], gathered⟩
        · rw [Member.branches_last ended later, kept, List.map_cons, readBranches, ofTree_tree,
            Member.label_pruned, if_neg labelled, if_pos ended]
          refine settled.bind fun value read => (ih more (.inl rfl)).mono ?_
          rintro result ⟨added, own, values, ends, some, gathered⟩
          obtain rfl : own = none := by simpa [later] using some
          refine ⟨added, Option.some value, values, by simpa using ends, by simp [ended], ?_⟩
          refine (Gathered.cons read gathered).mono (.perm ?_)
          rw [clauseOutlines, clauseOutlines, List.append_nil]
          exact List.perm_append_comm
      · rw [if_neg ended]
        exact .error

variable {tree : Tree} (known : AllSettled children)

include known

theorem settles_switch :
    Settles (fun node => Gathered
        (first [.node] children ++ branches .case "else" "Else" children.tail) node.outline.children)
      (switch tree (children.map ofTree))
      (switch tree (kept (first [.node] children ++ branches .case "else" "Else" children.tail))) := by
  cases children with
  | nil => exact .error
  | cons subject rest =>
      obtain ⟨value, inside⟩ := List.forall_mem_cons.mp known
      rw [Member.first_single, List.tail_cons, List.map_cons, List.singleton_append, kept,
        List.map_cons, switch, switch, arms_eq, arms_eq]
      refine Settles.bind (settles_readBranches (by decide) (fun _ _ => Item.case.inj)
        (fun _ => rfl) inside (.inl rfl)) ?_
      rintro ⟨cases, otherwise⟩ ⟨added, own, rfl, rfl, -, gathered⟩
      refine (settles_node (value .node)).bind fun node read => .ok ?_
      simp only [Item.outlines, ← caseOutlines_eq] at gathered
      rw [Option.or_none]
      exact .cons read gathered

theorem settles_attempt :
    Settles (fun node => Gathered
        (first [.node] children ++ branches .handler "finally" "Finally" children.tail)
        node.outline.children)
      (attempt tree (children.map ofTree))
      (attempt tree
        (kept (first [.node] children ++ branches .handler "finally" "Finally" children.tail))) := by
  cases children with
  | nil => exact .error
  | cons body rest =>
      obtain ⟨value, inside⟩ := List.forall_mem_cons.mp known
      rw [Member.first_single, List.tail_cons, List.map_cons, List.singleton_append, kept,
        List.map_cons, attempt, attempt, handlers_eq, handlers_eq]
      refine Settles.bind (settles_readBranches (by decide) (fun _ _ => Item.handler.inj)
        (fun _ => rfl) inside (.inl rfl)) ?_
      rintro ⟨handlers, cleanup⟩ ⟨added, own, rfl, rfl, -, gathered⟩
      rw [ofTree_tree, ofTree_tree]
      refine (settles_blockMember (value .node)).bind fun block read => .ok ?_
      simp only [Item.outlines, ← handlerOutlines_eq] at gathered
      rw [Option.or_none]
      exact .cons read gathered

omit known in
theorem settles_name (tree : Tree) :
    Settles (fun _ => True) (name (ofTree tree).tree)
      (name (ofTree (Member.pruned ⟨tree, .word⟩)).tree) := by
  have same : requireLabel (Member.pruned ⟨tree, .word⟩) = requireLabel tree := by
    unfold requireLabel
    rw [Member.label_pruned, Member.location_pruned]
  rw [ofTree_tree, ofTree_tree, name, name, same, Member.content_pruned, Member.location_pruned]
  exact settles_requireLabel.bind fun _ _ => .ok trivial

theorem settles_handler :
    Settles
      (fun handler => Gathered (first (handlerDuties children) children) handler.outline.children)
      (handler tree (children.map ofTree))
      (handler tree (kept (first (handlerDuties children) children))) := by
  match children, known with
  | [binding, body], known =>
      refine (settles_name binding).bind fun _ _ => ?_
      simp only [ofTree_tree]
      refine (settles_blockMember (known body (by simp) .node)).bind fun block read => .ok ?_
      exact .cons (Member.read_word binding) (.single read)
  | [matcher, binding, body], known =>
      refine (settles_name matcher).bind fun _ _ => (settles_name binding).bind fun _ _ => ?_
      simp only [ofTree_tree]
      refine (settles_blockMember (known body (by simp) .node)).bind fun block read => .ok ?_
      exact .cons (Member.read_word matcher) (.cons (Member.read_word binding) (.single read))
  | [], _ => exact .error
  | [_], _ => exact .error
  | _ :: _ :: _ :: _ :: _, _ => exact .error

end Reading

def Fragment.outlines : Fragment → List Outline
  | .literal _ => []
  | .interpolated body _ _ => Syntax.outlines body

theorem Fragment.outlines_gather (pieces : List Piece) :
    (gather pieces).flatMap Fragment.outlines = pieces.flatMap Piece.outlines := by
  induction pieces with
  | nil => rfl
  | cons piece rest ih =>
      rw [List.flatMap_cons]
      cases piece with
      | glyph glyph =>
          unfold gather
          split
          · rename_i glyphs fragments gathered
            rw [← ih, gathered]
            rfl
          · rw [← ih]
            rfl
      | interpolated body location closing =>
          rw [← ih]
          rfl

/-- What is appended does not hide what is joined so far. -/
theorem among_appendFragments (kind : TextKind) (place : Location) (joined : Node)
    (closing : Option Location) (fragments : List Fragment) :
    Among (joined.outline.children ++ fragments.flatMap Fragment.outlines)
      (appendFragments kind place joined closing fragments).outline.children := by
  induction fragments generalizing joined closing with
  | nil => simpa [appendFragments] using Among.refl _
  | cons fragment rest ih =>
      cases fragment with
      | literal glyphs => exact among_joined (.nil _) (ih _ _)
      | interpolated body location next =>
          exact among_joined (.below (Node.interpolation body location).outline) (ih _ _)

theorem among_joinFragments (kind : TextKind) (place : Location) (fragments : List Fragment) :
    Among (fragments.flatMap Fragment.outlines)
      (joinFragments kind place fragments).outline.children := by
  have behind (joined : Node) (closing : Option Location) (rest : List Fragment) :
      Among (rest.flatMap Fragment.outlines)
        (appendFragments kind place joined closing rest).outline.children :=
    ((Among.nil joined.outline.children).append (.refl _)).trans
      (among_appendFragments kind place joined closing rest)
  cases fragments with
  | nil => exact .nil _
  | cons fragment rest =>
      cases fragment with
      | literal glyphs => exact behind (kind.literal glyphs (firstPlace glyphs place)) none rest
      | interpolated body location closing =>
          cases kind with
          | string => exact among_appendFragments _ _ (.interpolation body location) _ _
          | regularExpression =>
              exact behind (.regularExpression [] place) none
                (.interpolated body location closing :: rest)

namespace Reading

open Member (each first statements kept)

variable {tree : Tree} {children : List Tree}

theorem filter_withFirst (label : String) (trees : List Tree) :
    (Member.withFirst label trees).filter (fun tree => tree.label != label) =
      trees.filter fun tree => tree.label != label := by
  induction trees with
  | nil => rfl
  | cons tree rest ih =>
      rw [Member.withFirst]
      split
      · simp [*]
      · simp [List.filter_cons, ih]

/-- The statements among the parts of an interpolation. -/
def bodyOf (children : List Tree) : List Tree :=
  children.filter fun child => child.label != "interpolation_end"

theorem filter_statements (children : List Tree) :
    ((statements children).filter fun member => member.tree.label != "interpolation_end") =
      each .node (bodyOf children) := by
  rw [statements, List.filter_map, each, bodyOf, ← filter_withFirst]
  refine List.map_congr_left fun child listed => ?_
  have other : child.label ≠ "interpolation_end" := by simpa using (List.mem_filter.mp listed).2
  rw [if_neg other]

theorem interpolationBody_all (children : List Tree) :
    interpolationBody (children.map ofTree) = nodes ((bodyOf children).map ofTree) := by
  rw [interpolationBody, List.filter_map, bodyOf]
  simp only [Function.comp_def, ofTree_tree]

theorem interpolationBody_kept (children : List Tree) :
    interpolationBody (kept (statements children)) = nodes (kept (each .node (bodyOf children))) := by
  rw [interpolationBody, kept, List.filter_map, ← filter_statements, kept]
  simp only [Function.comp_def, ofTree_tree, Member.label_pruned]

theorem settles_interpolationBody (known : AllSettled children) :
    Settles (fun body => Gathered (statements children) (outlines body))
      (interpolationBody (children.map ofTree)) (interpolationBody (kept (statements children))) := by
  have inside : AllSettled (bodyOf children) :=
    fun child listed => known child (List.mem_filter.mp listed).1
  rw [interpolationBody_all, interpolationBody_kept]
  refine (settles_nodes inside).mono fun body gathered => Gathered.withWords "interpolation_end" ?_ ?_
  · refine List.forall_mem_map.mpr fun child _ labelled => if_pos labelled
  · rw [filter_statements]
    exact gathered

theorem find_statements (children : List Tree) :
    ((kept (statements children)).find? fun child => child.tree.label == "interpolation_end").map
        (fun closing => closing.tree.location) =
      ((children.map ofTree).find? fun child => child.tree.label == "interpolation_end").map
        fun closing => closing.tree.location := by
  rw [kept, statements, List.map_map]
  induction children with
  | nil => rfl
  | cons child rest ih =>
      rw [Member.withFirst]
      split
      · simp [*]
      · simpa [*] using ih

theorem settles_glyph : Settles (fun _ => True) (glyph tree) (glyph tree) := by
  unfold glyph
  split
  · exact .ok trivial
  · exact .error

theorem settles_pieces (kind : TextKind) (known : AllSettled children) :
    Settles (fun found => Gathered (if tree.label = "interpolation" then statements children else [])
        (found.flatMap Piece.outlines))
      (pieces kind tree (children.map ofTree))
      (pieces kind tree (kept (if tree.label = "interpolation" then statements children else []))) := by
  by_cases interpolates : tree.label = "interpolation"
  · have written (parts : List Reading) : pieces kind tree parts =
        (parts.find? fun child => child.tree.label == "interpolation_end").elim
          (.error (malformed tree)) fun closing => do
            return [.interpolated (← interpolationBody parts) tree.location
              closing.tree.location] := by
      have other {label : String} (apart : "interpolation" ≠ label) : tree.label ≠ label :=
        interpolates ▸ apart
      rw [pieces]
      refine (if_neg (other (by decide))).trans ((if_neg (other (by decide))).trans
        ((if_pos interpolates).trans ?_))
      cases parts.find? fun child => child.tree.label == "interpolation_end" <;> rfl
    rw [if_pos interpolates, written, written]
    have closings := find_statements children
    cases closing :
      (children.map ofTree).find? fun child => child.tree.label == "interpolation_end" with
    | none => exact .error
    | some brace =>
        rw [closing] at closings
        obtain ⟨other, found, placed⟩ := Option.map_eq_some_iff.mp closings
        rw [found, Option.elim_some, Option.elim_some]
        refine (settles_interpolationBody known).bind fun body gathered => ?_
        rw [placed]
        refine .ok (gathered.mono ?_)
        simpa [Piece.outlines] using Among.refl (outlines body)
  · rw [if_neg interpolates]
    unfold pieces
    split
    · exact settles_glyph.bind fun _ _ => .ok (.nil _)
    · split
      · split
        · exact .ok (.nil _)
        · exact .error
      · exact .error

theorem settles_text (kind : TextKind) (known : AllSettled children) :
    Settles (fun node => Gathered (each (.piece kind) children) node.outline.children)
      (text kind tree (children.map ofTree))
      (text kind tree (kept (each (.piece kind) children))) := by
  have reads : ∀ child ∈ children, Settles
      (fun found => Member.read ⟨child, .piece kind⟩ = .ok (.pieces found)) _ _ :=
    fun child listed => settles_as (fun tree => pieces kind (ofTree tree).tree (ofTree tree).parts)
      (fun _ _ => Item.pieces.inj) (fun tree => by rw [ofTree_tree]; rfl)
      (known child listed (.piece kind))
  refine (settles_each Item.pieces reads).bind fun found gathered => .ok (gathered.mono ?_)
  have same : found.flatMap (fun value => (Item.pieces value).outlines) =
      (Fragment.gather found.flatten).flatMap Fragment.outlines := by
    rw [Fragment.outlines_gather, List.flatten_eq_flatMap, List.flatMap_assoc]
    rfl
  exact same ▸ among_joinFragments kind tree.location _

end Reading

end RipInterpreter.Syntax
