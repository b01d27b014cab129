namespace RipInterpreter

theorem mem_of_lookup {α β : Type} [BEq α] [LawfulBEq α] {entries : List (α × β)} {key : α}
    {value : β} (found : entries.lookup key = some value) : (key, value) ∈ entries := by
  obtain ⟨before, after, split, _⟩ := List.lookup_eq_some_iff.mp found
  rw [split]
  exact List.mem_append_right before List.mem_cons_self

structure Table (α : Type) where
  entries : List (String × α)

namespace Table

variable {α : Type}

def empty : Table α := ⟨[]⟩

instance : Inhabited (Table α) := ⟨empty⟩

def get? (table : Table α) (name : String) : Option α := table.entries.lookup name

def contains (table : Table α) (name : String) : Bool := (table.get? name).isSome

/-- The names in the order of their first insertion. -/
def names (table : Table α) : List String := table.entries.map Prod.fst

/-- Replaces the value of the first entry for `name`, or adds an entry at the end. -/
def insertEntry (name : String) (value : α) : List (String × α) → List (String × α)
  | [] => [(name, value)]
  | (other, stored) :: rest =>
    if name = other then (name, value) :: rest else (other, stored) :: insertEntry name value rest

/-- Stores `value` under `name` in place of any earlier value. -/
def insert (table : Table α) (name : String) (value : α) : Table α :=
  ⟨insertEntry name value table.entries⟩

/-- Whether two maps hold the same values under the same names. -/
def agrees [BEq α] (table other : Table α) : Bool :=
  table.entries.length == other.entries.length &&
    table.entries.all fun (name, value) =>
      match other.get? name with
      | some found => value == found
      | none => false

def ofList (entries : List (String × α)) : Table α :=
  entries.foldl (fun table entry => table.insert entry.1 entry.2) empty

@[simp] theorem get?_empty (name : String) : (empty : Table α).get? name = none := rfl

theorem lookup_insertEntry (name other : String) (value : α) (entries : List (String × α)) :
    (insertEntry name value entries).lookup other =
      if other = name then some value else entries.lookup other := by
  by_cases same : other = name
  · subst same
    induction entries with
    | nil => simp [insertEntry]
    | cons entry rest ih =>
      obtain ⟨held, stored⟩ := entry
      by_cases found : other = held
      · simp [insertEntry, found]
      · have unequal : (other == held) = false := by simp [found]
        simpa [insertEntry, found, List.lookup_cons, unequal] using ih
  · have unequal : (other == name) = false := by simp [same]
    induction entries with
    | nil => simp [insertEntry, List.lookup_cons, unequal, same]
    | cons entry rest ih =>
      obtain ⟨held, stored⟩ := entry
      by_cases found : name = held
      · subst found
        simp [insertEntry, List.lookup_cons, unequal, same]
      · simp only [same, if_false] at ih
        simp [insertEntry, found, List.lookup_cons, same, ih]

/-- After an insertion the name holds the new value and every other name what it held before. -/
theorem get?_insert (table : Table α) (name other : String) (value : α) :
    (table.insert name value).get? other = if other = name then some value else table.get? other :=
  lookup_insertEntry name other value table.entries

theorem mem_names_iff {table : Table α} {name : String} :
    name ∈ table.names ↔ (table.get? name).isSome = true := by
  simp [names, get?]

theorem mem_of_get? {table : Table α} {name : String} {value : α}
    (held : table.get? name = some value) : (name, value) ∈ table.entries := mem_of_lookup held

/-- Whatever a table built from a list holds is in the list. -/
theorem mem_of_get?_ofList {entries : List (String × α)} {name : String} {value : α}
    (held : (ofList entries).get? name = some value) : (name, value) ∈ entries := by
  have collected (more : List (String × α)) (table : Table α)
      (found : (more.foldl (fun table entry => table.insert entry.1 entry.2) table).get? name =
        some value) : (name, value) ∈ more ∨ table.get? name = some value := by
    induction more generalizing table with
    | nil => exact .inr found
    | cons entry rest ih =>
      rcases ih (table.insert entry.1 entry.2) found with inside | stored
      · exact .inl (List.mem_cons_of_mem entry inside)
      · rw [get?_insert] at stored
        split at stored
        · cases stored
          rename_i same
          exact .inl (same ▸ List.mem_cons_self)
        · exact .inr stored
  exact (collected entries empty held).resolve_right (by simp)

end Table

end RipInterpreter
