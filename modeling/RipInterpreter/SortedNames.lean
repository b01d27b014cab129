namespace RipInterpreter

/-- Adds a name to an increasing list without repeats, at its place. -/
def insertName (name : String) : List String → List String
  | [] => [name]
  | other :: rest =>
    if name < other then name :: other :: rest
    else if name = other then other :: rest
    else other :: insertName name rest

/-- All the names of two lists in increasing order, each once. -/
def mergeNames (names more : List String) : List String :=
  more.foldr insertName (names.foldr insertName [])

theorem mem_insertName {name other : String} {names : List String} :
    other ∈ insertName name names ↔ other = name ∨ other ∈ names := by
  induction names with
  | nil => simp [insertName]
  | cons head rest ih =>
    unfold insertName
    split
    · simp
    · split
      · rename_i same
        subst same
        simp
      · simp only [List.mem_cons, ih]
        exact or_left_comm

theorem mem_foldr_insertName {other : String} {names base : List String} :
    other ∈ names.foldr insertName base ↔ other ∈ names ∨ other ∈ base := by
  induction names with
  | nil => simp
  | cons head rest ih => simp [mem_insertName, ih, or_assoc]

/-- Merging keeps exactly the names of both lists. -/
theorem mem_mergeNames {other : String} {names more : List String} :
    other ∈ mergeNames names more ↔ other ∈ names ∨ other ∈ more := by
  simp [mergeNames, mem_foldr_insertName, or_comm]

/-- Adding a name keeps a list increasing. -/
theorem pairwise_insertName {name : String} {names : List String}
    (increasing : names.Pairwise (· < ·)) : (insertName name names).Pairwise (· < ·) := by
  induction names with
  | nil => simp [insertName]
  | cons head rest ih =>
    obtain ⟨above, tail⟩ := List.pairwise_cons.mp increasing
    unfold insertName
    split
    · rename_i below
      refine List.pairwise_cons.mpr ⟨?_, increasing⟩
      intro other member
      rcases List.mem_cons.mp member with rfl | member
      · exact below
      · exact String.lt_trans below (above other member)
    · split
      · exact increasing
      · rename_i notBelow different
        refine List.pairwise_cons.mpr ⟨?_, ih tail⟩
        intro other member
        rcases mem_insertName.mp member with rfl | member
        · refine String.not_le.mp fun atMost => ?_
          exact different (String.le_antisymm atMost (String.not_lt.mp notBelow))
        · exact above other member

theorem pairwise_foldr_insertName {names base : List String}
    (increasing : base.Pairwise (· < ·)) :
    (names.foldr insertName base).Pairwise (· < ·) := by
  induction names with
  | nil => exact increasing
  | cons name rest ih => exact pairwise_insertName ih

/-- The names of a merge increase, so each occurs once. -/
theorem pairwise_mergeNames (names more : List String) :
    (mergeNames names more).Pairwise (· < ·) :=
  pairwise_foldr_insertName (pairwise_foldr_insertName .nil)

end RipInterpreter
