import RipInterpreter.Proofs.Concrete.Productions
import RipInterpreter.Proofs.Parsing.Stretches

namespace RipInterpreter.Concrete.Tree

open Parsing Parser

mutual
/-- What the leaves of a tree hold, in order. -/
def leaves : Tree → List Span
  | ⟨_, location, some text, children⟩ => ⟨text, location⟩ :: leavesAll children
  | ⟨_, _, none, children⟩ => leavesAll children
def leavesAll : List Tree → List Span
  | [] => []
  | tree :: rest => tree.leaves ++ leavesAll rest
end

mutual
/-- The leaves of the tree stand between two indices, in order. -/
inductive LiesIn (source : Source) : (low high : Nat) → Tree → Prop
  | leaf {label : String} {span : Span} {low first last high : Nat} (behind : low ≤ first)
    (holds : source.Holds first last span) (before : last ≤ high) :
    LiesIn source low high (leaf label span)
  | branch {label : String} {place : Location} {children : List Tree} {low high : Nat}
    (placed : source.HasPlace place) (inside : LieIn source low high children) :
    LiesIn source low high (branch label place children)
/-- The trees stand one behind the other between two indices. -/
inductive LieIn (source : Source) : (low high : Nat) → List Tree → Prop
  | nil {low high : Nat} (ordered : low ≤ high) : LieIn source low high []
  | cons {tree : Tree} {trees : List Tree} {low middle high : Nat}
    (first : LiesIn source low middle tree) (rest : LieIn source middle high trees) :
    LieIn source low high (tree :: trees)
end

variable {source : Source}

mutual
theorem LiesIn.widen {low high less more : Nat} {tree : Tree} (lies : LiesIn source low high tree)
    (lower : less ≤ low) (higher : high ≤ more) : LiesIn source less more tree := by
  cases lies with
  | leaf behind holds before =>
      exact .leaf (Nat.le_trans lower behind) holds (Nat.le_trans before higher)
  | branch placed inside => exact .branch placed (inside.widen lower higher)
theorem LieIn.widen {low high less more : Nat} {trees : List Tree}
    (lie : LieIn source low high trees) (lower : less ≤ low) (higher : high ≤ more) :
    LieIn source less more trees := by
  cases lie with
  | nil ordered => exact .nil (Nat.le_trans lower (Nat.le_trans ordered higher))
  | cons first rest =>
      exact .cons (first.widen lower (Nat.le_refl _)) (rest.widen (Nat.le_refl _) higher)
end

mutual
theorem LiesIn.ordered {low high : Nat} {tree : Tree} (lies : LiesIn source low high tree) :
    source.Ordered low high tree.leaves := by
  cases lies with
  | leaf behind holds before => exact .cons behind holds (.nil before)
  | branch placed inside => exact inside.ordered
theorem LieIn.ordered {low high : Nat} {trees : List Tree} (lie : LieIn source low high trees) :
    source.Ordered low high (leavesAll trees) := by
  cases lie with
  | nil ordered => exact .nil ordered
  | cons first rest => exact first.ordered.append rest.ordered
end

variable {low middle high less more : Nat} {tree piece : Tree} {trees others : List Tree}

theorem LiesIn.lower (lies : LiesIn source low high tree) (behind : less ≤ low) :
    LiesIn source less high tree := lies.widen behind (Nat.le_refl _)

theorem LiesIn.higher (lies : LiesIn source low high tree) (before : high ≤ more) :
    LiesIn source low more tree := lies.widen (Nat.le_refl _) before

theorem LieIn.lower (lie : LieIn source low high trees) (behind : less ≤ low) :
    LieIn source less high trees := lie.widen behind (Nat.le_refl _)

theorem LieIn.higher (lie : LieIn source low high trees) (before : high ≤ more) :
    LieIn source low more trees := lie.widen (Nat.le_refl _) before

theorem LieIn.le (lie : LieIn source low high trees) : low ≤ high := lie.ordered.le

theorem LiesIn.hasPlace (lies : LiesIn source low high tree) : source.HasPlace tree.location := by
  cases lies with
  | leaf behind holds before => exact holds.hasPlace
  | branch placed inside => exact placed

theorem LieIn.lies (lie : LieIn source low high trees) (listed : tree ∈ trees) :
    ∃ less more, LiesIn source less more tree := by
  induction trees generalizing low with
  | nil => cases listed
  | cons next trees ih =>
      cases lie with
      | cons first rest =>
          rcases List.mem_cons.mp listed with rfl | listed
          · exact ⟨_, _, first⟩
          · exact ih rest listed

/-- What holds of a tree holds of its parts. -/
theorem LiesIn.part (lies : LiesIn source low high tree) (within : PartOf piece tree) :
    ∃ less more, LiesIn source less more piece := by
  induction within generalizing low high with
  | whole => exact ⟨_, _, lies⟩
  | inside listed within ih =>
      cases lies with
      | leaf behind holds before => cases listed
      | branch placed inside =>
          obtain ⟨_, _, child⟩ := inside.lies listed
          exact ih child

/-- A part with a text is a leaf. -/
theorem LiesIn.spelled (lies : LiesIn source low high tree) {content : String}
    (holding : tree.text = some content) :
    tree.children = [] ∧ ∃ first last, source.Holds first last ⟨content, tree.location⟩ := by
  cases lies with
  | leaf behind holds before =>
      cases holding
      exact ⟨rfl, _, _, holds⟩
  | branch placed inside => cases holding

theorem LieIn.append (lie : LieIn source low middle trees)
    (later : LieIn source middle high others) : LieIn source low high (trees ++ others) := by
  induction trees generalizing low with
  | nil => exact later.lower lie.le
  | cons tree trees ih =>
      cases lie with
      | cons first rest => exact .cons first (ih rest)

theorem LiesIn.single (lies : LiesIn source low high tree) : LieIn source low high [tree] :=
  .cons lies (.nil (Nat.le_refl _))

theorem LiesIn.pair {first second : Tree} (lies : LiesIn source low middle first)
    (later : LiesIn source middle high second) : LieIn source low high [first, second] :=
  .cons lies later.single

theorem LieIn.optional {found : Option Tree} (ordered : low ≤ high)
    (met : ∀ tree ∈ found, LiesIn source low high tree) : LieIn source low high found.toList := by
  cases found with
  | none => exact .nil ordered
  | some tree => exact (met tree rfl).single

theorem LieIn.of_consecutive (consecutive : Consecutive (LiesIn source) low high trees) :
    LieIn source low high trees := by
  induction consecutive with
  | nil position => exact .nil (Nat.le_refl position)
  | cons first rest ih => exact .cons first ih

/-- The tree follows a text: every part is at the place that one gets to by stepping over the text
in front of it, every leaf is the piece of text that starts there, and the leaves stand one behind
the other, so that together they are what is left of the text when some of it is dropped. -/
structure Follows (origin text : String) (tree : Tree) : Prop where
  named : ∀ part, PartOf part tree → part.location.origin = origin
  inside : ∀ part, PartOf part tree → part.location.position ≤ text.length
  located : ∀ part, PartOf part tree →
    part.location = (Location.start origin).past (text.toList.take part.location.position)
  spelled : ∀ part, PartOf part tree → ∀ content, part.text = some content → part.children = [] ∧
    content.toList = (text.toList.drop part.location.position).take content.length
  apart : tree.leaves.Pairwise fun first second =>
    first.location.position + first.text.length ≤ second.location.position
  sublist : (tree.leaves.flatMap fun leaf => leaf.text.toList).Sublist text.toList

theorem LiesIn.follows {origin text : String}
    (lies : LiesIn (.ofText origin text) low high tree)
    (within : high ≤ (Source.ofText origin text).size) : tree.Follows origin text := by
  have placed (part : Tree) (among : PartOf part tree) : ∃ index ≤ text.length,
      part.location = (Location.start origin).past (text.toList.take index) ∧
        part.location.position = index := by
    obtain ⟨_, _, lies⟩ := lies.part among
    obtain ⟨index, bound, same⟩ := lies.hasPlace
    have position := Source.position_placeOf bound
    rw [Source.size_ofText] at bound
    exact ⟨index, bound, same.trans (Source.placeOf_ofText bound), same ▸ position⟩
  refine ⟨fun part among => ?_, fun part among => ?_, fun part among => ?_,
    fun part among content holding => ?_, lies.ordered.apart, ?_⟩
  · obtain ⟨index, -, same, -⟩ := placed part among
    rw [same, Location.origin_past]
    rfl
  · obtain ⟨index, bound, -, position⟩ := placed part among
    rw [position]
    exact bound
  · obtain ⟨index, -, same, position⟩ := placed part among
    rw [position]
    exact same
  · obtain ⟨_, _, lies⟩ := lies.part among
    obtain ⟨childless, first, last, holds⟩ := lies.spelled holding
    have position : part.location.position = first := holds.position
    have length : first + content.length = last := holds.length
    have spelled : content = (Source.ofText origin text).slice first last := holds.spelled
    refine ⟨childless, ?_⟩
    calc content.toList
      _ = (text.toList.drop first).take (last - first) := by rw [spelled, Source.toList_slice]; rfl
      _ = (text.toList.drop part.location.position).take content.length := by
        rw [position, ← length, Nat.add_sub_cancel_left]
  · exact (lies.ordered.sublist within).trans (List.drop_sublist _ _)

end RipInterpreter.Concrete.Tree
