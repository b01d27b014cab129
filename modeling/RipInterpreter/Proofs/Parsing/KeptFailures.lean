import RipInterpreter.Proofs.Parsing.Records
import Mathlib.Data.List.Induction

namespace RipInterpreter.Parsing

namespace Failure

/-- The failures of a history that lie at a position, in order. -/
def tied (log : List Failure) (place : Nat) : List Failure :=
  log.filter (·.position = place)

/-- A failure with the alternatives of others merged into its own. -/
def merged (earliest : Failure) (others : List Failure) : Failure :=
  { earliest with
    expected := others.foldl (fun names other => mergeNames names other.expected)
      earliest.expected }

section

variable {earliest failure : Failure} {others : List Failure} {name : String}

theorem merged_concat : merged earliest (others ++ [failure]) =
    { merged earliest others with
      expected := mergeNames (merged earliest others).expected failure.expected } := by
  simp [merged]

theorem mem_merged : name ∈ (merged earliest others).expected ↔
    ∃ recorded ∈ earliest :: others, name ∈ recorded.expected := by
  induction others using List.reverseRecOn with
  | nil => simp [merged]
  | append_singleton others failure ih =>
      simp only [merged_concat, mem_mergeNames, ih]
      simp [or_and_right, exists_or, or_assoc]

theorem merged_increases (more : others ≠ []) :
    (merged earliest others).expected.Pairwise (· < ·) := by
  obtain ⟨before, last, rfl⟩ := (List.eq_nil_or_concat others).resolve_left more
  rw [List.concat_eq_append, merged_concat]
  exact pairwise_mergeNames _ _

end

/-- What is kept of a history: the first of the failures that got furthest, merged with the rest of
them. -/
structure Keeps (log : List Failure) (kept : Failure) : Prop where
  furthest : ∀ recorded ∈ log, recorded.position ≤ kept.position
  merges : ∃ earliest others,
    tied log kept.position = earliest :: others ∧ kept = merged earliest others

theorem Keeps.single (failure : Failure) : Keeps [failure] failure where
  furthest := by simp
  merges := ⟨failure, [], by simp [tied], rfl⟩

section

variable {log : List Failure} {kept failure : Failure} (keeps : Keeps log kept)
include keeps

theorem Keeps.further (further : kept.position < failure.position) :
    Keeps (log ++ [failure]) failure := by
  have below : ∀ recorded ∈ log, recorded.position < failure.position := by
    intro recorded listed
    have := keeps.furthest recorded listed
    omega
  have alone : tied log failure.position = [] := by
    apply List.filter_eq_nil_iff.mpr
    intro recorded listed
    have := below recorded listed
    simp only [decide_eq_true_eq]
    omega
  constructor
  · intro recorded listed
    rcases List.mem_append.mp listed with listed | listed
    · exact Nat.le_of_lt (below recorded listed)
    · simp_all
  · refine ⟨failure, [], ?_, rfl⟩
    rw [tied, List.filter_append, ← tied, alone]
    simp

theorem Keeps.level (level : kept.position = failure.position) : Keeps (log ++ [failure])
    { kept with expected := mergeNames kept.expected failure.expected } := by
  obtain ⟨earliest, others, split, same⟩ := keeps.merges
  constructor
  · intro recorded listed
    change recorded.position ≤ kept.position
    rcases List.mem_append.mp listed with listed | listed
    · exact keeps.furthest recorded listed
    · simp_all
  · refine ⟨earliest, others ++ [failure], ?_, ?_⟩
    · change tied (log ++ [failure]) kept.position = _
      rw [tied, List.filter_append, ← tied, split]
      simp [level]
    · rw [merged_concat, ← same]

theorem Keeps.behind (behind : failure.position < kept.position) :
    Keeps (log ++ [failure]) kept := by
  constructor
  · intro recorded listed
    rcases List.mem_append.mp listed with listed | listed
    · exact keeps.furthest recorded listed
    · simp_all [Nat.le_of_lt]
  · have ignored : tied (log ++ [failure]) kept.position = tied log kept.position := by
      simp [tied, Nat.ne_of_lt behind]
    rw [ignored]
    exact keeps.merges

/-- One more failure lies further, at the same place or behind. -/
theorem Keeps.next (failure : Failure) :
    Keeps (log ++ [failure]) (Failure.furthest (some kept) failure) := by
  unfold Failure.furthest
  dsimp only
  split
  · exact keeps.further ‹_›
  · split
    · exact keeps.level ‹_›
    · exact keeps.behind (by omega)

theorem Keeps.reached : ∃ recorded ∈ log, recorded.position = kept.position := by
  obtain ⟨earliest, others, split, -⟩ := keeps.merges
  have listed : earliest ∈ tied log kept.position := by simp [split]
  exact ⟨earliest, by simpa [tied] using listed⟩

theorem Keeps.max_position : (log.map position).max? = some kept.position := by
  apply List.max?_eq_some_iff.mpr
  constructor
  · obtain ⟨recorded, listed, same⟩ := keeps.reached
    exact List.mem_map.mpr ⟨recorded, listed, same⟩
  · simpa using keeps.furthest

theorem Keeps.mem_expected {name : String} : name ∈ kept.expected ↔
    ∃ recorded ∈ log, recorded.position = kept.position ∧ name ∈ recorded.expected := by
  obtain ⟨earliest, others, split, same⟩ := keeps.merges
  calc name ∈ kept.expected
    _ ↔ ∃ recorded ∈ tied log kept.position, name ∈ recorded.expected := by
      rw [split, ← mem_merged, ← same]
    _ ↔ _ := by simp [tied, and_assoc]

/-- In another order the same position and the same set of alternatives are kept. -/
theorem Keeps.perm {history : List Failure} {other : Failure} (keeps' : Keeps history other)
    (order : history.Perm log) :
    other.position = kept.position ∧ ∀ name, name ∈ other.expected ↔ name ∈ kept.expected := by
  have same : other.position = kept.position := by
    obtain ⟨recorded, listed, lies⟩ := keeps.reached
    obtain ⟨recorded', listed', lies'⟩ := keeps'.reached
    have := keeps.furthest recorded' (order.mem_iff.mp listed')
    have := keeps'.furthest recorded (order.mem_iff.mpr listed)
    omega
  refine ⟨same, fun name => ?_⟩
  simp only [keeps.mem_expected, keeps'.mem_expected, order.mem_iff, same]

end

end Failure

namespace Cursor

/-- By induction on what follows, whatever has been kept before. -/
theorem keeps_foldl_record {log rest : List Failure} {kept : Failure} {cursor : Cursor}
    (held : cursor.furthest = some kept) (keeps : Failure.Keeps log kept) :
    ∃ last, (rest.foldl record cursor).furthest = some last ∧
      Failure.Keeps (log ++ rest) last := by
  induction rest generalizing log kept cursor with
  | nil => exact ⟨kept, held, by simpa using keeps⟩
  | cons failure rest ih =>
      have next :
          (cursor.record failure).furthest = some (Failure.furthest (some kept) failure) := by
        simp [record, held]
      simpa using ih next (keeps.next failure)

theorem keeps_of_fresh (start : Nat) {history : List Failure} (recorded : history ≠ []) :
    ∃ kept, (history.foldl record ⟨start, none⟩).furthest = some kept ∧
      Failure.Keeps history kept := by
  obtain ⟨first, rest, rfl⟩ := List.exists_cons_of_ne_nil recorded
  have held : (Cursor.record ⟨start, none⟩ first).furthest = some first := rfl
  exact keeps_foldl_record held (.single first)

/-- What a fresh cursor keeps of any history of failures: the furthest position, the message, the
found text and the place of the earliest failure there, and the alternatives of all failures there,
in increasing order if there are several. In every order of the same failures the position and the
set of alternatives are the same. -/
theorem kept_failure_of_history (start : Nat) (history : List Failure) (recorded : history ≠ []) :
    ∃ kept earliest others,
      (history.foldl record ⟨start, none⟩).furthest = some kept ∧
      (history.map Failure.position).max? = some kept.position ∧
      history.filter (·.position = kept.position) = earliest :: others ∧
      kept.message = earliest.message ∧ kept.found = earliest.found ∧
      kept.location = earliest.location ∧
      (∀ name, name ∈ kept.expected ↔
        ∃ failure ∈ history, failure.position = kept.position ∧ name ∈ failure.expected) ∧
      (others ≠ [] → kept.expected.Pairwise (· < ·)) ∧
      (others = [] → kept.expected = earliest.expected) ∧
      ∀ reordered : List Failure, reordered.Perm history →
        ∃ other, (reordered.foldl record ⟨start, none⟩).furthest = some other ∧
          other.position = kept.position ∧
          ∀ name, name ∈ other.expected ↔ name ∈ kept.expected := by
  obtain ⟨kept, held, keeps⟩ := keeps_of_fresh start recorded
  obtain ⟨earliest, others, split, merges⟩ := keeps.merges
  refine ⟨kept, earliest, others, held, keeps.max_position, split, ?_, ?_, ?_,
    fun name => keeps.mem_expected, ?_, ?_, ?_⟩
  · rw [merges, Failure.merged]
  · rw [merges, Failure.merged]
  · rw [merges, Failure.merged]
  · intro several
    rw [merges]
    exact Failure.merged_increases several
  · rintro rfl
    rw [merges, Failure.merged, List.foldl_nil]
  · intro reordered order
    have still : reordered ≠ [] := by
      rintro rfl
      exact recorded order.nil_eq.symm
    obtain ⟨other, held', keeps'⟩ := keeps_of_fresh start still
    exact ⟨other, held', keeps.perm keeps' order⟩

/-- Two failures at one position and one behind them, recorded in between. -/
theorem kept_failure_of_three :
    let far : Location := ⟨"rip", 4, 1, 4⟩
    let history : List Failure :=
      [⟨"a", ["z"], none, some far⟩, ⟨"b", ["x"], some "c", none⟩,
        ⟨"d", ["y", "z"], none, some far⟩]
    history ≠ [] ∧ ∃ kept, (history.foldl record .initial).furthest = some kept ∧
      kept.position = 4 ∧ kept.message = "a" ∧ kept.expected.Pairwise (· < ·) := by
  intro far history
  have recorded : history ≠ [] := by simp [history]
  obtain ⟨kept, earliest, others, held, furthest, split, message, -, -, -, sorted, -⟩ :=
    kept_failure_of_history 0 history recorded
  have lies : kept.position = 4 := by
    simpa [history, far, Failure.position, List.max?] using furthest.symm
  rw [lies] at split
  simp only [history, far, Failure.position] at split
  obtain ⟨rfl, rfl⟩ : _ = earliest ∧ _ = others := by simpa using split
  exact ⟨recorded, kept, held, lies, message, sorted (by simp)⟩

end Cursor

end RipInterpreter.Parsing
