import RipInterpreter.Concrete.Tree
import RipInterpreter.Proofs.Text.Quoted

namespace RipInterpreter

namespace Text

/-- A text without a line feed. -/
def OneLine (text : String) : Prop := '\n' ∉ text.toList

instance (text : String) : Decidable (OneLine text) :=
  inferInstanceAs (Decidable ('\n' ∉ text.toList))

@[simp]
theorem oneLine_append {text more : String} :
    OneLine (text ++ more) ↔ OneLine text ∧ OneLine more := by
  simp [OneLine]

theorem oneLine_number (number : Nat) : OneLine number.repr := by
  have digits : ∀ c ∈ Nat.toDigits 10 number, c.isDigit = true := fun _ listed =>
    Nat.isDigit_of_mem_toDigits (by decide) (by decide) listed
  intro listed
  rw [Nat.repr_eq_ofList_toDigits, String.toList_ofList] at listed
  exact absurd (digits _ listed) (by decide)

theorem oneLine_place {place : Location} : OneLine place.text ↔ OneLine place.origin := by
  have colon : OneLine ":" := by decide
  simp [Location.text, oneLine_number, colon]

theorem oneLine_quoteText (text : String) : OneLine (quoteText text) := quoteText_unbroken text

end Text

open Text

namespace Listing

/-- A line behind a tab for each level. -/
def indented (line : Nat × String) : List Char := List.replicate line.1 '\t' ++ line.2.toList

theorem toList_render_cons (line : Nat × String) (rest : Listing) :
    (render (line :: rest)).toList = indented line ++ '\n' :: (render rest).toList := by
  obtain ⟨depth, text⟩ := line
  simp [render, indented, String.join_cons]

theorem oneLine_indented {line : Nat × String} : '\n' ∉ indented line ↔ OneLine line.2 := by
  simp [indented, OneLine]

theorem unbroken_of_mem_splitOn {text piece : List Char} (listed : piece ∈ text.splitOn '\n') :
    '\n' ∉ piece := by
  induction text generalizing piece with
  | nil =>
      cases List.mem_singleton.mp listed
      exact List.not_mem_nil
  | cons c rest ih =>
      rw [List.splitOn_cons_eq_if_modifyHead] at listed
      split at listed
      · rcases List.mem_cons.mp listed with rfl | later
        · exact List.not_mem_nil
        · exact ih later
      · rename_i other
        cases pieces : rest.splitOn '\n' with
        | nil => simp at pieces
        | cons first more =>
            rw [pieces] at listed ih
            rcases List.mem_cons.mp listed with rfl | later
            · have feed : c ≠ '\n' := by simpa using other
              exact List.not_mem_cons_of_ne_of_not_mem feed.symm (ih List.mem_cons_self)
            · exact ih (List.mem_cons_of_mem _ later)

theorem splitOn_render (listing : Listing) :
    (render listing).toList.splitOn '\n' = listing.map indented ++ [[]] ↔
      ∀ line ∈ listing, OneLine line.2 := by
  constructor
  · intro split line listed
    have piece : indented line ∈ (render listing).toList.splitOn '\n' := by
      rw [split]
      exact List.mem_append_left _ (List.mem_map_of_mem listed)
    exact oneLine_indented.mp (unbroken_of_mem_splitOn piece)
  · intro each
    induction listing with
    | nil => rfl
    | cons line rest ih =>
        obtain ⟨first, others⟩ := List.forall_mem_cons.mp each
        rw [toList_render_cons,
          List.splitOn_append_cons_self_of_not_mem (oneLine_indented.mpr first), ih others]
        rfl

end Listing

end RipInterpreter
