import RipInterpreter.Parsing.Parser

namespace RipInterpreter

namespace Location

/-- The place behind a text that starts at a place. -/
def past (place : Location) (text : List Char) : Location := text.foldl after place

@[simp] theorem origin_after (place : Location) (c : Char) :
    (place.after c).origin = place.origin := by
  unfold after
  split <;> rfl

@[simp] theorem position_after (place : Location) (c : Char) :
    (place.after c).position = place.position + 1 := by
  unfold after
  split <;> rfl

@[simp] theorem origin_past (place : Location) (text : List Char) :
    (place.past text).origin = place.origin := by
  induction text generalizing place with
  | nil => rfl
  | cons c rest ih => exact (ih (place.after c)).trans (origin_after place c)

@[simp] theorem position_past (place : Location) (text : List Char) :
    (place.past text).position = place.position + text.length := by
  induction text generalizing place with
  | nil => rfl
  | cons c rest ih =>
      have later : ((place.after c).past rest).position = (place.after c).position + rest.length :=
        ih (place.after c)
      rw [position_after] at later
      change ((place.after c).past rest).position = place.position + (rest.length + 1)
      omega

theorem getElem?_along {text : List Char} {count : Nat} (place : Location)
    (inside : count ≤ text.length) :
    (place.along text)[count]? = some (place.past (text.take count)) := by
  induction text generalizing place count with
  | nil =>
      rw [List.length_nil, Nat.le_zero] at inside
      subst inside
      rfl
  | cons c rest ih =>
      cases count with
      | zero => rfl
      | succ count => exact ih (place.after c) (Nat.le_of_succ_le_succ inside)

end Location

namespace Parsing.Source

variable {source : Source} {first middle last low high index : Nat} {span : Span}
  {spans more : List Span}

theorem size_ofText (origin text : String) : (ofText origin text).size = text.length :=
  String.length_toList

theorem placeOf_ofText {origin text : String} (inside : index ≤ text.length) :
    (ofText origin text).placeOf index =
      (Location.start origin).past (text.toList.take index) := by
  have bound : min index (ofText origin text).size = index :=
    Nat.min_eq_left (size_ofText origin text ▸ inside)
  have found : (ofText origin text).places[index]? =
      some ((Location.start origin).past (text.toList.take index)) := by
    rw [ofText, List.getElem?_toArray]
    exact (Location.start origin).getElem?_along (String.length_toList ▸ inside)
  rw [placeOf, bound, found, Option.getD_some]

theorem position_placeOf {origin text : String} (inside : index ≤ (ofText origin text).size) :
    ((ofText origin text).placeOf index).position = index := by
  rw [size_ofText] at inside
  rw [placeOf_ofText inside, Location.position_past, List.length_take, String.length_toList,
    Nat.min_eq_left inside]
  exact Nat.zero_add index

theorem toList_slice (source : Source) (first last : Nat) :
    (source.slice first last).toList = (source.chars.toList.drop first).take (last - first) := by
  rw [slice, String.toList_ofList, Array.toList_extract, List.extract_eq_take_drop]

theorem slice_append (source : Source) (ordered : first ≤ middle) (later : middle ≤ last) :
    source.slice first middle ++ source.slice middle last = source.slice first last := by
  unfold slice
  rw [← String.ofList_append, ← Array.toList_append, Array.extract_append_extract,
    Nat.min_eq_left ordered, Nat.max_eq_right later]

theorem slice_self (source : Source) (index : Nat) : source.slice index index = "" := by
  unfold slice
  rw [Array.extract_empty_of_stop_le_start (Nat.le_refl index)]

theorem slice_one {c : Char} (stands : source.chars[index]? = some c) :
    source.slice index (index + 1) = .singleton c := by
  have found : source.chars.toList[index]? = some c := by
    rw [Array.getElem?_toList]
    exact stands
  refine String.toList_injective ?_
  rw [toList_slice, String.toList_singleton, Nat.add_sub_cancel_left,
    List.drop_eq_getElem?_toList_append, found]
  rfl

theorem slice_of_continuesWith {expected : List Char}
    (continues : source.continuesWith index expected = true) :
    source.slice index (index + expected.length) = .ofList expected := by
  induction expected generalizing index with
  | nil =>
      unfold slice
      simp
  | cons c rest ih =>
      obtain ⟨here, later⟩ := Bool.and_eq_true_iff.mp continues
      have whole := slice_append source (Nat.le_succ index)
        (Nat.le_add_right (index + 1) rest.length)
      rw [slice_one (eq_of_beq here), ih later, String.singleton_eq_ofList,
        ← String.ofList_append] at whole
      rw [List.length_cons, Nat.add_comm rest.length 1, ← Nat.add_assoc]
      exact whole.symm

/-- A place in the text. -/
def HasPlace (source : Source) (place : Location) : Prop :=
  ∃ index ≤ source.size, place = source.placeOf index

/-- The span holds the text from one index up to another. -/
structure Holds (source : Source) (first last : Nat) (span : Span) : Prop where
  ordered : first ≤ last
  inside : last ≤ source.size
  located : span.location = source.placeOf first
  spelled : span.text = source.slice first last

theorem Holds.hasPlace (holds : source.Holds first last span) : source.HasPlace span.location :=
  ⟨first, Nat.le_trans holds.ordered holds.inside, holds.located⟩

theorem Holds.length (holds : source.Holds first last span) :
    first + span.text.length = last := by
  obtain ⟨ordered, inside, -, spelled⟩ := holds
  have count : span.text.length = min (last - first) (source.size - first) := by
    rw [spelled, ← String.length_toList, toList_slice, List.length_take, List.length_drop]
    rfl
  omega

theorem Holds.position {origin text : String} (holds : (ofText origin text).Holds first last span) :
    span.location.position = first := by
  rw [holds.located]
  exact position_placeOf (Nat.le_trans holds.ordered holds.inside)

/-- The spans stand one behind the other between two indices. -/
inductive Ordered (source : Source) : (low high : Nat) → List Span → Prop
  | nil {low high : Nat} (ordered : low ≤ high) : Ordered source low high []
  | cons {low first last high : Nat} {span : Span} {spans : List Span} (behind : low ≤ first)
    (holds : source.Holds first last span) (rest : Ordered source last high spans) :
    Ordered source low high (span :: spans)

namespace Ordered

theorem le (ordered : source.Ordered low high spans) : low ≤ high := by
  induction ordered with
  | nil ordered => exact ordered
  | cons behind holds rest ih => exact Nat.le_trans behind (Nat.le_trans holds.ordered ih)

theorem lower {less : Nat} (ordered : source.Ordered low high spans) (smaller : less ≤ low) :
    source.Ordered less high spans := by
  cases ordered with
  | nil ordered => exact .nil (Nat.le_trans smaller ordered)
  | cons behind holds rest => exact .cons (Nat.le_trans smaller behind) holds rest

theorem append (ordered : source.Ordered low middle spans)
    (later : source.Ordered middle high more) : source.Ordered low high (spans ++ more) := by
  induction ordered with
  | nil ordered => exact later.lower ordered
  | cons behind holds rest ih => exact .cons behind holds (ih later)

/-- Every span is a piece of the text behind the lower index. -/
theorem holds (ordered : source.Ordered low high spans) (listed : span ∈ spans) :
    ∃ first last, low ≤ first ∧ source.Holds first last span := by
  induction ordered with
  | nil => cases listed
  | cons behind holds rest ih =>
      rcases List.mem_cons.mp listed with rfl | listed
      · exact ⟨_, _, behind, holds⟩
      · obtain ⟨first, last, further, holds₁⟩ := ih listed
        exact ⟨first, last, Nat.le_trans behind (Nat.le_trans holds.ordered further), holds₁⟩

open scoped List in
/-- No part of the text is in two of the spans, and none of it has changed places. -/
theorem sublist (ordered : source.Ordered low high spans) (inside : high ≤ source.size) :
    (spans.flatMap fun span => span.text.toList).Sublist (source.chars.toList.drop low) := by
  induction ordered with
  | nil => exact List.nil_sublist _
  | @cons low first last high span spans behind holds rest ih =>
      have later := ih inside
      have whole : span.text.toList ++ source.chars.toList.drop last =
          source.chars.toList.drop first := by
        have split := List.take_append_drop (last - first) (source.chars.toList.drop first)
        rw [List.drop_drop, Nat.add_sub_cancel' holds.ordered] at split
        rw [holds.spelled, toList_slice]
        exact split
      rw [List.flatMap_cons]
      calc span.text.toList ++ spans.flatMap (fun span => span.text.toList)
        _ <+ span.text.toList ++ source.chars.toList.drop last := later.append_left _
        _ = source.chars.toList.drop first := whole
        _ <+ source.chars.toList.drop low := List.drop_sublist_drop_left _ behind

/-- No span starts in front of the end of an earlier one. -/
theorem apart {origin text : String} (ordered : (ofText origin text).Ordered low high spans) :
    spans.Pairwise fun first second =>
      first.location.position + first.text.length ≤ second.location.position := by
  induction ordered with
  | nil => exact .nil
  | @cons low first last high span spans behind holds rest ih =>
      refine .cons (fun later listed => ?_) ih
      obtain ⟨start, finish, further, holdsLater⟩ := rest.holds listed
      have length : first + span.text.length = last := holds.length
      rw [holds.position, holdsLater.position]
      omega

end Ordered

end Parsing.Source

end RipInterpreter
