import RipInterpreter.Proofs.Machine.Questions

namespace RipInterpreter.Heap

variable {heap after : Heap} {left right : Handle} {first second : Payload}

/-- The question whether two values with data are equal is one about their data, unless they are the
same. -/
theorem equal_payloads {object object₁ : Object} (found : heap.get? left = some object)
    (found₁ : heap.get? right = some object₁) :
    heap.equal left right = if left = right then .ok true else
      equalPayloads (heap.equalWithin heap.objects.size) object.payload object₁.payload := by
  unfold equal depth equalWithin
  simp only [read_eq_ok found, read_eq_ok found₁]
  rfl

/-- Payloads are compared through the values inside them only. -/
theorem equalPayloads_congr {ε : Type} {equal equal₁ : Handle → Handle → Except ε Bool}
    (each : ∀ left ∈ first.contents, ∀ right ∈ second.contents,
      equal₁ left right = equal left right) :
    equalPayloads equal₁ first second = equalPayloads equal first second := by
  have pairwise {lefts rights : List Handle} (each : ∀ left ∈ lefts, ∀ right ∈ rights,
      equal₁ left right = equal left right) :
      allPairs equal₁ lefts rights = allPairs equal lefts rights := by
    induction lefts generalizing rights with
    | nil => cases rights <;> rfl
    | cons left lefts ih =>
        cases rights with
        | nil => rfl
        | cons right rights =>
            have others := ih fun other inside another matched =>
              each other (List.mem_cons_of_mem left inside) another
                (List.mem_cons_of_mem right matched)
            unfold allPairs
            rw [each left List.mem_cons_self right List.mem_cons_self, others]
  have both {key value key₁ value₁ : Handle} (each : ∀ left ∈ [key, value],
      ∀ right ∈ [key₁, value₁], equal₁ left right = equal left right) :
      equal₁ key key₁ = equal key key₁ ∧ equal₁ value value₁ = equal value value₁ :=
    ⟨each _ List.mem_cons_self _ List.mem_cons_self,
      each _ (List.mem_cons_of_mem _ List.mem_cons_self) _
        (List.mem_cons_of_mem _ List.mem_cons_self)⟩
  cases first <;> cases second <;> try rfl
  case list.list items others => exact congrArg (ite _ · _) (pairwise each)
  case map.map pairs others => exact congrArg (ite _ · _) (pairwise each)
  case keyValue.keyValue key value key₁ value₁ =>
      obtain ⟨keys, values⟩ := both each
      simp only [equalPayloads, keys, values]
  case range.range start last exclusive start₁ last₁ exclusive₁ =>
      obtain ⟨starts, lasts⟩ := both each
      simp only [equalPayloads, starts, lasts]

/-- The name of a class does not matter. -/
theorem equalPayloads_becomes {ε : Type} (equal : Handle → Handle → Except ε Bool)
    {first₁ second₁ : Payload} (left : first.Becomes first₁) (right : second.Becomes second₁) :
    equalPayloads equal first₁ second₁ = equalPayloads equal first second := by
  cases left with
  | same =>
      cases right with
      | same => rfl
      | named name ancestors => cases first <;> rfl
  | named name ancestors =>
      cases right with
      | same => cases second <;> rfl
      | named name ancestors => rfl

/-- By induction on the levels: the values inside the left one are older than it, so that neither
heap runs out of levels. -/
theorem Grows.equalWithin (grows : heap.Grows after) (closed : heap.Closed) {levels levels₁ : Nat}
    (held : heap.Holds left) (present : heap.Holds right) (deep : left.index < levels)
    (deep₁ : left.index < levels₁) :
    after.equalWithin levels₁ left right = heap.equalWithin levels left right := by
  induction levels generalizing levels₁ left right with
  | zero => omega
  | succ levels ih =>
      obtain ⟨levels₁, rfl⟩ : ∃ fewer, levels₁ = fewer + 1 := ⟨levels₁ - 1, by omega⟩
      obtain ⟨first, found⟩ := held
      obtain ⟨second, known⟩ := present
      obtain ⟨first₁, found₁, becomes⟩ := grows left first found
      obtain ⟨second₁, known₁, becomes₁⟩ := grows right second known
      have inner : equalPayloads (after.equalWithin levels₁) first.payload second.payload =
          equalPayloads (heap.equalWithin levels) first.payload second.payload :=
        equalPayloads_congr fun item inside other matched => by
          have older := (closed.objects left first found).contents inside
          have newer := (closed.objects right second known).contents matched
          exact ih older.1 newer.1 (by omega) (by omega)
      unfold Heap.equalWithin
      split
      · rfl
      · simp only [read, found, known, found₁, known₁]
        exact (equalPayloads_becomes _ becomes becomes₁).trans inner

/-- Two values that exist stay equal, or different, whatever happens to the heap. -/
theorem Grows.equal (grows : heap.Grows after) (closed : heap.Closed) (held : heap.Holds left)
    (present : heap.Holds right) :
    ∃ same, heap.equal left right = .ok same ∧ after.equal left right = .ok same := by
  obtain ⟨same, answered, -⟩ := answers_equal closed held present
  refine ⟨same, answered, ?_⟩
  have deep {heap : Heap} (held : heap.Holds left) : left.index < heap.depth :=
    Nat.lt_succ_of_lt (holds_iff.mp held)
  rw [← answered]
  exact grows.equalWithin closed held present (deep held) (deep (grows.holds held))

/-- Collections hold only older values, so that comparing and describing values ends: from its age
on, the number of levels that are looked at makes no difference. -/
structure Grounded (heap : Heap) : Prop where
  older : ∀ handle object, heap.get? handle = some object → ∀ item ∈ object.payload.contents,
    heap.Holds item ∧ item.index < handle.index
  compares : ∀ left right, heap.Holds left → heap.Holds right →
    ∃ same, heap.equal left right = .ok same ∧
      ∀ levels, left.index < levels → heap.equalWithin levels left right = .ok same
  inspects : ∀ value, heap.Holds value →
    ∃ text, heap.inspect value = .ok text ∧
      ∀ levels, value.index < levels → heap.inspectWithin levels value = .ok text
  displays : ∀ value, heap.Holds value → ∃ text, heap.display value = .ok text

theorem grounded_of_closed (closed : heap.Closed) : heap.Grounded where
  older handle object found _ := (closed.objects handle object found).contents
  compares left right held present := by
    obtain ⟨same, answered, -⟩ := answers_equal closed held present
    have deep : left.index < heap.depth := Nat.lt_succ_of_lt (holds_iff.mp held)
    exact ⟨same, answered, fun levels deeper =>
      ((Grows.refl heap).equalWithin closed held present deep deeper).trans answered⟩
  inspects value held := by
    obtain ⟨text, answered, -⟩ := answers_inspect closed held
    have deep : value.index < heap.depth := Nat.lt_succ_of_lt (holds_iff.mp held)
    exact ⟨text, answered, fun levels deeper =>
      (inspectWithin_levels closed deep deeper).trans answered⟩
  displays value held := by
    obtain ⟨text, answered, -⟩ := answers_display closed held
    exact ⟨text, answered⟩

/-- Values inside collections are compared as they are on their own, and the comparison answers. -/
theorem Closed.compares {item item₁ : Handle} {object object₁ : Object} (closed : heap.Closed)
    (found : heap.get? left = some object) (found₁ : heap.get? right = some object₁)
    (inside : item ∈ object.payload.contents) (inside₁ : item₁ ∈ object₁.payload.contents) :
    ∃ same, heap.equalWithin heap.objects.size item item₁ = .ok same ∧
      heap.equal item item₁ = .ok same := by
  have content := (closed.objects left object found).contents inside
  have content₁ := (closed.objects right object₁ found₁).contents inside₁
  obtain ⟨same, answered, levels⟩ :=
    (grounded_of_closed closed).compares item item₁ content.1 content₁.1
  exact ⟨same, levels _ (holds_iff.mp content.1), answered⟩

end RipInterpreter.Heap
