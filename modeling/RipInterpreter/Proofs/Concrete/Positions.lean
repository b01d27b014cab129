import Mathlib.Data.List.Flatten
import RipInterpreter.Proofs.Concrete.TextOrder

namespace RipInterpreter

/-- The place belongs to a character of the text, or to its end. -/
structure Location.StandsIn (origin text : String) (place : Location) : Prop where
  named : place.origin = origin
  inside : place.position ≤ text.length
  located : place = (Location.start origin).past (text.toList.take place.position)

/-- A step over a character of the text leads to the next place. -/
theorem Location.StandsIn.after {origin text : String} {place : Location} {c : Char}
    (stands : place.StandsIn origin text) (here : text.toList[place.position]? = some c) :
    (place.after c).StandsIn origin text where
  named := (Location.origin_after place c).trans stands.named
  inside := by
    obtain ⟨bound, -⟩ := List.getElem?_eq_some_iff.mp here
    rw [Location.position_after, ← String.length_toList]
    exact bound
  located := by
    rw [Location.position_after, List.take_add_one, here, past, List.foldl_append]
    exact congrArg (fun start : Location => start.after c) stands.located

namespace Concrete

theorem Spelled.of_escape {label text : String} (spelled : Spelled label text)
    (kind : label = "escape") : ∃ c, text.toList = ['\\', c] := by
  cases spelled with
  | character c => exact absurd kind (by decide)
  | escape c => exact ⟨c, String.toList_ofList⟩
  | word listed text =>
      rw [kind] at listed
      exact absurd listed (by decide)

namespace Tree

/-- The places of the characters that the leaves of a tree hold. -/
def positions (tree : Tree) : List Nat :=
  tree.leaves.flatMap fun leaf => List.range' leaf.location.position leaf.text.length

theorem leavesAll_eq (trees : List Tree) : leavesAll trees = trees.flatMap leaves := by
  induction trees with
  | nil => rfl
  | cons tree trees ih => rw [leavesAll, ih, List.flatMap_cons]

theorem sublist_leaves (tree : Tree) : (tree.children.flatMap leaves).Sublist tree.leaves := by
  obtain ⟨label, place, text, children⟩ := tree
  cases text with
  | none =>
      have same : leaves ⟨label, place, none, children⟩ = children.flatMap leaves := by
        rw [leaves, leavesAll_eq]
      exact same ▸ .refl _
  | some content =>
      rw [leaves, leavesAll_eq]
      exact List.sublist_cons_self _ _

theorem sublist_positions (tree : Tree) :
    (tree.children.flatMap positions).Sublist tree.positions := by
  unfold positions
  rw [← List.flatMap_assoc]
  exact (sublist_leaves tree).flatMap _

theorem PartOf.sublist {part tree : Tree} (within : PartOf part tree) :
    part.positions.Sublist tree.positions := by
  induction within with
  | whole => exact .refl _
  | @inside child tree listed _ ih =>
      have among : ([child].flatMap positions).Sublist (tree.children.flatMap positions) :=
        (List.singleton_sublist.mpr listed).flatMap _
      rw [List.flatMap_singleton] at among
      exact (ih.trans among).trans (sublist_positions tree)

/-- The places of the characters of a tree rise, as the leaves do not overlap. -/
theorem Follows.rising {origin text : String} {tree : Tree} (follows : tree.Follows origin text) :
    tree.positions.Pairwise (· < ·) := by
  refine List.pairwise_flatMap.mpr ⟨fun leaf _ => List.pairwise_lt_range', ?_⟩
  refine follows.apart.imp fun apart first inside second behind => ?_
  have before := (List.mem_range'_1.mp inside).2
  have after := (List.mem_range'_1.mp behind).1
  omega

/-- What is known of every tree of a text by itself. -/
structure StandsIn (origin text : String) (tree : Tree) : Prop where
  place : tree.location.StandsIn origin text
  spelled : ∀ content, tree.text = some content →
    content.toList = (text.toList.drop tree.location.position).take content.length
  escape : tree.label = "escape" → ∀ content, tree.text = some content →
    ∃ c, content.toList = ['\\', c]
  rising : tree.positions.Pairwise (· < ·)

theorem Derived.part {part tree : Tree} (within : PartOf part tree) (derived : tree.Derived) :
    part.Derived := by
  induction within with
  | whole => exact derived
  | inside listed _ ih => exact ih (derived.inside _ listed)

theorem Follows.standsIn {origin text : String} {part tree : Tree}
    (follows : tree.Follows origin text) (derived : tree.Derived) (within : PartOf part tree) :
    part.StandsIn origin text where
  place := ⟨follows.named part within, follows.inside part within, follows.located part within⟩
  spelled content holding := (follows.spelled part within content holding).2
  escape kind content holding := by
    cases derived.part within with
    | branch => cases holding
    | leaf spelled =>
        cases holding
        exact spelled.of_escape kind
  rising := follows.rising.sublist within.sublist

/-- What a tree holds, if it is not empty, is written at its place. -/
theorem StandsIn.holds {origin text : String} {tree : Tree} {c : Char} {rest : List Char}
    (stands : tree.StandsIn origin text) (read : tree.content.toList = c :: rest) :
    (∃ content, tree.text = some content ∧ content.toList = c :: rest) ∧
      (∀ index < rest.length + 1,
        text.toList[tree.location.position + index]? = (c :: rest)[index]?) ∧
      (List.range' tree.location.position (rest.length + 1)).Sublist tree.positions := by
  obtain ⟨label, place, spelled, children⟩ := tree
  cases spelled with
  | none => cases read
  | some content =>
      change content.toList = c :: rest at read
      have length : content.length = rest.length + 1 := by
        rw [← String.length_toList, read, List.length_cons]
      refine ⟨⟨content, rfl, read⟩, fun index bound => ?_, ?_⟩
      · rw [← read, stands.spelled content rfl, length, List.getElem?_take_of_lt bound,
          List.getElem?_drop]
      · rw [positions, leaves, List.flatMap_cons, ← length]
        exact List.sublist_append_left _ _

end Tree

end Concrete

end RipInterpreter
