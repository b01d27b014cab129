import RipInterpreter.Modules.Path

namespace RipInterpreter.Path

/-- A part of a path that means something. -/
structure IsName (name : String) : Prop where
  plain : '/' ∉ name.toList
  nonempty : name ≠ ""
  other : name ≠ "."

/-- Empty parts and single dots inside a path. -/
def Meaningless (between : List String) : Prop := ∀ part ∈ between, part = "" ∨ part = "."

/-- What stands behind a path that goes on with further parts. -/
def further (more : List String) : String := String.join (more.map fun part => "/" ++ part)

/-- A path leads to a name in a directory. Parts without a meaning may follow either. -/
inductive LeadsInto : String → String → Prop
  | working {name : String} {rest : List String} (named : IsName name) (last : Meaningless rest) :
    LeadsInto (name ++ further rest) "."
  | root {name : String} {between rest : List String} (named : IsName name)
    (inside : Meaningless between) (last : Meaningless rest) :
    LeadsInto (further between ++ "/" ++ name ++ further rest) "/"
  | directory {directory name : String} {between rest : List String} (given : directory ≠ "")
    (ends : ¬ ['/'] <:+ directory.toList)
    (trimmed : ¬ ['/', '.'] <:+ directory.toList) (named : IsName name)
    (inside : Meaningless between) (last : Meaningless rest) :
    LeadsInto (directory ++ further between ++ "/" ++ name ++ further rest) directory

variable {path directory head name : String} {outer between rest : List String}

theorem parts_append (front back : String) :
    parts (front ++ "/" ++ back) = parts front ++ parts back := by
  have whole : (front ++ "/" ++ back).toList = front.toList ++ '/' :: back.toList := by simp
  unfold parts
  rw [whole, List.splitOn_append_cons_self, List.map_append]

theorem parts_of_plain (plain : '/' ∉ name.toList) : parts name = [name] := by
  unfold parts
  rw [List.splitOn_eq_singleton plain, List.map_singleton, String.ofList_toList]

theorem parts_ne_nil (path : String) : parts path ≠ [] :=
  mt List.map_eq_nil_iff.mp (List.splitOn_ne_nil _ _)

theorem intercalate_parts (path : String) : "/".intercalate (parts path) = path := by
  refine String.toList_inj.mp ?_
  rw [String.toList_intercalate, parts, List.map_map]
  simp

theorem Meaningless.plain (meaningless : Meaningless between) :
    ∀ part ∈ between, '/' ∉ part.toList := by
  intro part listed
  rcases meaningless part listed with rfl | rfl <;> decide

theorem Meaningless.idle (meaningless : Meaningless between) :
    ∀ part ∈ between, isIdle part = true :=
  fun part listed => by simpa [isIdle] using meaningless part listed

theorem IsName.not_idle (named : IsName name) : isIdle name = false := by
  simp [isIdle, named.nonempty, named.other]

theorem parts_further (plain : ∀ part ∈ rest, '/' ∉ part.toList) (path : String) :
    parts (path ++ further rest) = parts path ++ rest := by
  induction rest generalizing path with
  | nil => simp [further]
  | cons part rest ih =>
      obtain ⟨one, others⟩ := List.forall_mem_cons.mp plain
      have next : path ++ further (part :: rest) = path ++ "/" ++ part ++ further rest := by
        simp [further, String.append_assoc]
      rw [next, ih others, parts_append, parts_of_plain one, List.append_assoc,
        List.singleton_append]

/-- The last part of a directory that is written without idle parts at its end, unless it is a dot
alone. -/
theorem not_idle_of_trimmed {front : List String} {part : String} (given : directory ≠ "")
    (ends : ¬ ['/'] <:+ directory.toList) (trimmed : ¬ ['/', '.'] <:+ directory.toList)
    (split : parts directory = front ++ [part]) (other : front = [] → part ≠ ".") :
    isIdle part = false := by
  have spelled := intercalate_parts directory
  rw [split] at spelled
  by_cases single : front = []
  · subst single
    rw [List.nil_append, String.intercalate_singleton] at spelled
    simp [isIdle, spelled ▸ given, other rfl]
  · rw [String.intercalate_append_of_ne_nil single (List.cons_ne_nil _ _),
      String.intercalate_singleton] at spelled
    have nonempty : part ≠ "" := by
      rintro rfl
      exact ends ⟨("/".intercalate front).toList, by rw [← spelled]; simp⟩
    have other : part ≠ "." := by
      rintro rfl
      exact trimmed ⟨("/".intercalate front).toList, by rw [← spelled]; simp⟩
    simp [isIdle, nonempty, other]

/-- The directory is what stands in front of the last name, without idle parts in between. -/
theorem parent_of_split (split : Path.split path = (head, outer ++ between ++ name :: rest))
    (named : IsName name) (inside : Meaningless between) (last : Meaningless rest)
    (ends : ∀ part ∈ outer.getLast?, isIdle part = false) :
    parent path = some (head ++ "/".intercalate outer) := by
  have meant : (outer ++ between ++ name :: rest).reverse.dropWhile isIdle =
      name :: (between.reverse ++ outer.reverse) := by
    rw [List.reverse_append, List.reverse_cons, List.append_assoc, List.reverse_append,
      List.dropWhile_append_of_pos fun part listed => last.idle part (List.mem_reverse.mp listed)]
    exact List.dropWhile_cons_of_neg (by simp [named.not_idle])
  have front : (between.reverse ++ outer.reverse).dropWhile isIdle = outer.reverse := by
    rw [List.dropWhile_append_of_pos fun part listed => inside.idle part (List.mem_reverse.mp listed)]
    rcases List.eq_nil_or_concat outer with rfl | ⟨front, part, rfl⟩
    · rfl
    · rw [List.concat_eq_append, List.reverse_append]
      exact List.dropWhile_cons_of_neg (by simp [ends part (by simp)])
  unfold parent
  rw [split]
  simp only [meant, front, List.reverse_reverse]

/-- The head of a path and the parts of the directory in front of it spell the directory, by its
first part: nothing for a path from the root, or a dot that is kept. -/
theorem split_of_directory {tail : List String} (given : directory ≠ "")
    (ends : ¬ ['/'] <:+ directory.toList) (trimmed : ¬ ['/', '.'] <:+ directory.toList)
    (nonempty : tail ≠ []) (written : parts path = parts directory ++ tail) :
    ∃ head outer idle, Path.split path = (head, outer ++ idle ++ tail) ∧ Meaningless idle ∧
      (∀ part ∈ outer.getLast?, isIdle part = false) ∧ head ++ "/".intercalate outer = directory := by
  have spelled := intercalate_parts directory
  have meant {front : List String} {part : String} :=
    @not_idle_of_trimmed directory front part given ends trimmed
  cases split : parts directory with
  | nil => exact absurd split (parts_ne_nil directory)
  | cons first more =>
      rw [split] at written spelled meant
      have behind : ∀ part ∈ more.getLast?, isIdle part = false := by
        intro part isLast
        obtain ⟨front, rfl⟩ := List.getLast?_eq_some_iff.mp isLast
        exact meant (List.cons_append ..).symm (by nofun)
      by_cases rooted : first = ""
      · subst rooted
        cases more with
        | nil => exact absurd spelled.symm given
        | cons second others =>
            refine ⟨"/", second :: others, [], ?_, List.forall_mem_nil _, behind, ?_⟩
            · rw [Path.split, written, List.append_nil]
              rfl
            · rw [← spelled, String.intercalate_cons_cons, String.empty_append]
      · by_cases dotted : first = "."
        · subst dotted
          have split : Path.split path = (".", "" :: (more ++ tail)) := by
            rw [Path.split, written]
            simp [nonempty]
          cases more with
          | nil => exact ⟨".", [], [""], split, by simp [Meaningless], by nofun, spelled⟩
          | cons second others =>
              refine ⟨".", "" :: second :: others, [], ?_, List.forall_mem_nil _, behind, ?_⟩
              · rw [split, List.append_nil]
                rfl
              · rw [← spelled, String.intercalate_cons_cons, String.intercalate_cons_cons,
                  String.empty_append, String.append_assoc]
        · refine ⟨"", first :: more, [], ?_, List.forall_mem_nil _, ?_, ?_⟩
          · rw [Path.split, written]
            simp [rooted, dotted]
          · intro part isLast
            obtain ⟨front, shape⟩ := List.getLast?_eq_some_iff.mp isLast
            refine meant shape ?_
            rintro rfl
            cases shape
            exact dotted
          · rw [spelled, String.empty_append]

theorem parent_of_directory (given : directory ≠ "") (ends : ¬ ['/'] <:+ directory.toList)
    (trimmed : ¬ ['/', '.'] <:+ directory.toList) (named : IsName name)
    (inside : Meaningless between) (last : Meaningless rest) :
    parent (directory ++ further between ++ "/" ++ name ++ further rest) = some directory := by
  have written : parts (directory ++ further between ++ "/" ++ name ++ further rest) =
      parts directory ++ (between ++ name :: rest) := by
    rw [parts_further last.plain, parts_append, parts_further inside.plain,
      parts_of_plain named.plain, List.append_assoc, List.append_assoc, List.singleton_append]
  obtain ⟨head, outer, idle, split, meaningless, meant, spelled⟩ :=
    split_of_directory given ends trimmed (by simp) written
  rw [← List.append_assoc, List.append_assoc outer] at split
  rw [parent_of_split split named (List.forall_mem_append.mpr ⟨meaningless, inside⟩) last meant,
    spelled]

/-- So it is for every way in which a path leads to a name: the directory is found as it is written,
where the working directory has no name. -/
theorem LeadsInto.parent (leads : LeadsInto path directory) :
    ∃ found, parent path = some found ∧ (if found = "" then "." else found) = directory := by
  cases leads with
  | working named last =>
      rename_i name rest
      have split : Path.split (name ++ further rest) = ("", [] ++ [] ++ name :: rest) := by
        rw [Path.split, parts_further last.plain, parts_of_plain named.plain]
        split
        · rename_i same
          cases same
          exact absurd rfl named.nonempty
        · rename_i same
          cases same
          exact absurd rfl named.other
        · rfl
      exact ⟨_, parent_of_split split named (List.forall_mem_nil _) last (by nofun), rfl⟩
  | root named inside last =>
      rename_i name between rest
      have split : Path.split (further between ++ "/" ++ name ++ further rest) =
          ("/", [] ++ between ++ name :: rest) := by
        have whole := parts_further inside.plain ""
        rw [String.empty_append] at whole
        rw [Path.split, parts_further last.plain, parts_append, whole, parts_of_plain named.plain]
        cases between <;> simp [parts]
      exact ⟨_, parent_of_split split named inside last (by nofun), rfl⟩
  | directory given ends trimmed named inside last =>
      exact ⟨directory, parent_of_directory given ends trimmed named inside last, if_neg given⟩

end RipInterpreter.Path
