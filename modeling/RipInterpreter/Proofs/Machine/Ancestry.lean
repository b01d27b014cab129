import Mathlib.Data.List.Nodup
import RipInterpreter.Proofs.Machine.Changes
import RipInterpreter.Proofs.Machine.FreshWorld

/-!
The ancestors of classes. All changes of objects keep the order of the hierarchy: by induction over
the classes in the order of their making, since a new class merges the lines of classes that are in
order already.
-/

namespace RipInterpreter

/-- A payload stays that of a class with the same ancestors, or of no class. -/
theorem Payload.Becomes.isClass {payload later : Payload} (becomes : payload.Becomes later)
    (line : List Handle) :
    (∃ name, payload = .classObject name line) ↔ ∃ name, later = .classObject name line := by
  cases becomes with
  | same => exact Iff.rfl
  | named name ancestors => simp

/-- Only a class has ancestors. -/
theorem Payload.classObject_of_ancestors {payload : Payload} {line : List Handle}
    (some : line ≠ []) (held : payload.ancestors = line) :
    ∃ name, payload = .classObject name line := by
  cases payload with
  | classObject name ancestors => exact ⟨name, by rw [← held]; rfl⟩
  | _ => exact absurd held.symm some

namespace Heap

variable {heap after : Heap} {own parent ancestor : Handle} {line roots pending whole : List Handle}

/-- The object is a class with these ancestors. -/
def ClassAt (heap : Heap) (handle : Handle) (line : List Handle) : Prop :=
  ∃ object name, heap.get? handle = some object ∧ object.payload = .classObject name line

/-- The ancestors of a class are in order: itself comes first and the root last, each is a class and
occurs once, and nothing that an ancestor inherits is missing. -/
structure Lineal (heap : Heap) (own : Handle) (line : List Handle) : Prop where
  first : line.head? = some own
  distinct : line.Nodup
  inherits : ∀ ancestor ∈ line, ∃ inherited, heap.ClassAt ancestor inherited ∧ inherited ⊆ line
  last : line.getLast? = some KernelClass.object.handle
  root : line.length = 1 ↔ own = KernelClass.object.handle

/-- The root is there, and the ancestors of all classes are in order. -/
structure Ancestral (heap : Heap) : Prop where
  root : ∃ line, heap.ClassAt KernelClass.object.handle line
  classes : ∀ own line, heap.ClassAt own line → heap.Lineal own line

theorem ClassAt.ne_next (classAt : heap.ClassAt own line) : own ≠ heap.next := by
  obtain ⟨object, name, found, shape⟩ := classAt
  exact next_ne found

theorem ClassAt.ancestors (classAt : heap.ClassAt own line) : heap.ancestors own = .ok line := by
  obtain ⟨object, name, found, shape⟩ := classAt
  simp only [Heap.ancestors, read_eq_ok found, bind, Except.bind, shape]
  rfl

theorem ClassAt.isRoot (classAt : heap.ClassAt own line) :
    heap.isRoot own = .ok (decide (line.length = 1)) := by
  obtain ⟨object, name, found, shape⟩ := classAt
  simp only [Heap.isRoot, read_eq_ok found, bind, Except.bind, shape]
  rfl

/-- Classes stay what they are, whatever happens. -/
theorem Grows.classAt (grows : heap.Grows after) (classAt : heap.ClassAt own line) :
    after.ClassAt own line := by
  obtain ⟨object, name, found, shape⟩ := classAt
  obtain ⟨later, kept, becomes⟩ := grows own object found
  obtain ⟨name₁, shape₁⟩ := (becomes.isClass line).mp ⟨name, shape⟩
  exact ⟨later, name₁, kept, shape₁⟩

theorem Grows.lineal (grows : heap.Grows after) (lineal : heap.Lineal own line) :
    after.Lineal own line :=
  { lineal with
    inherits := fun ancestor inside =>
      have ⟨inherited, classAt, included⟩ := lineal.inherits ancestor inside
      ⟨inherited, grows.classAt classAt, included⟩ }

theorem Lineal.root_mem (lineal : heap.Lineal own line) : KernelClass.object.handle ∈ line :=
  List.mem_of_getLast? lineal.last

/-- The root has no ancestor but itself. -/
theorem Lineal.singleton (lineal : heap.Lineal KernelClass.object.handle line) :
    line = [KernelClass.object.handle] := by
  obtain ⟨only, rfl⟩ := List.length_eq_one_iff.mp (lineal.root.mpr rfl)
  cases lineal.first
  rfl

/-- What is no class stands alone in the place of one. -/
theorem classAt_or_alone (inherited : heap.ancestors own = .ok line) :
    heap.ClassAt own line ∨ line = [own] := by
  unfold Heap.ancestors at inherited
  cases read : heap.read own with
  | error fault =>
      rw [read] at inherited
      cases inherited
  | ok object =>
      simp only [read, bind, Except.bind] at inherited
      split at inherited
      · cases inherited
        exact .inl ⟨object, _, get?_of_read read, ‹_›⟩
      · cases inherited
        exact .inr rfl

/-- Two lists of ancestors of a new class on the way: nothing is missing but what the `pending` ones
bring along. -/
structure Merging (heap : Heap) (own : Handle) (line roots pending : List Handle) : Prop where
  first : line.head? = some own
  distinct : (line ++ roots).Nodup
  inherits : ∀ ancestor ∈ line ++ roots, ancestor ≠ own →
    ∃ inherited, heap.ClassAt ancestor inherited ∧ inherited ⊆ line ++ roots ++ pending
  rootless : KernelClass.object.handle ∉ line
  roots : ∀ root ∈ roots, root = KernelClass.object.handle

namespace Merging

variable {next : Handle} {rest inherited : List Handle}

/-- What is there already is left out. -/
theorem skip (merging : heap.Merging own line roots (next :: rest))
    (known : next ∈ line ∨ next ∈ roots) : heap.Merging own line roots rest where
  first := merging.first
  distinct := merging.distinct
  inherits ancestor inside other := by
    obtain ⟨inherited, classAt, included⟩ := merging.inherits ancestor inside other
    exact ⟨inherited, classAt, List.Subset.trans included fun item held => by grind⟩
  rootless := merging.rootless
  roots := merging.roots

/-- The root waits until all else is there. -/
theorem addRoot (merging : heap.Merging own line roots (KernelClass.object.handle :: rest))
    (alone : heap.ClassAt KernelClass.object.handle [KernelClass.object.handle])
    (unknown : ¬ (KernelClass.object.handle ∈ line ∨ KernelClass.object.handle ∈ roots)) :
    heap.Merging own line (roots ++ [KernelClass.object.handle]) rest where
  first := merging.first
  distinct := by
    rw [← List.append_assoc, List.nodup_middle, List.append_nil, List.nodup_cons, List.mem_append]
    exact ⟨unknown, merging.distinct⟩
  inherits ancestor inside other := by
    rw [← List.append_assoc, List.mem_append, List.mem_singleton] at inside
    rcases inside with inside | rfl
    · obtain ⟨inherited, classAt, included⟩ := merging.inherits ancestor inside other
      exact ⟨inherited, classAt, List.Subset.trans included fun item held => by grind⟩
    · exact ⟨_, alone, fun item held => by grind⟩
  rootless := merging.rootless
  roots root inside := by
    rcases List.mem_append.mp inside with inside | inside
    · exact merging.roots root inside
    · exact List.mem_singleton.mp inside

theorem addClass (merging : heap.Merging own line roots (next :: rest))
    (classAt : heap.ClassAt next inherited) (included : inherited ⊆ line ++ roots ++ next :: rest)
    (unknown : ¬ (next ∈ line ∨ next ∈ roots)) (other : next ≠ KernelClass.object.handle) :
    heap.Merging own (line ++ [next]) roots rest where
  first := by
    rw [List.head?_append, merging.first]
    rfl
  distinct := by
    rw [List.append_assoc, List.singleton_append, List.nodup_middle, List.nodup_cons,
      List.mem_append]
    exact ⟨unknown, merging.distinct⟩
  inherits ancestor inside apart := by
    have moved : line ++ roots ++ next :: rest ⊆ line ++ [next] ++ roots ++ rest :=
      fun item held => by grind
    by_cases same : ancestor = next
    · exact ⟨inherited, same ▸ classAt, List.Subset.trans included moved⟩
    · have earlier : ancestor ∈ line ++ roots := by grind
      obtain ⟨inherited, classAt, included⟩ := merging.inherits ancestor earlier apart
      exact ⟨inherited, classAt, List.Subset.trans included moved⟩
  rootless inside := by
    rcases List.mem_append.mp inside with inside | inside
    · exact merging.rootless inside
    · exact other (List.mem_singleton.mp inside).symm
  roots := merging.roots

end Merging

/-- By induction on the ancestors of a parent that are left to merge. -/
theorem merging_mergeAncestors {line₁ roots₁ : List Handle} (ancestral : heap.Ancestral)
    (lineal : heap.Lineal parent whole) (left : pending ⊆ whole)
    (covered : whole ⊆ line ++ roots ++ pending) (merging : heap.Merging own line roots pending)
    (merged : heap.mergeAncestors line roots pending = .ok (line₁, roots₁)) :
    heap.Merging own line₁ roots₁ [] ∧ line ++ roots ⊆ line₁ ++ roots₁ ∧
      whole ⊆ line₁ ++ roots₁ := by
  induction pending generalizing line roots with
  | nil =>
      cases merged
      exact ⟨merging, List.Subset.refl _, by simpa using covered⟩
  | cons next rest ih =>
      obtain ⟨inherited, classAt, included⟩ := lineal.inherits next (left List.mem_cons_self)
      have later : rest ⊆ whole := fun item inside => left (List.mem_cons_of_mem next inside)
      have order := ancestral.classes next inherited classAt
      have deeper {line₂ roots₂ : List Handle} (kept : line ++ roots ⊆ line₂ ++ roots₂)
          (taken : next ∈ line₂ ++ roots₂) (merging : heap.Merging own line₂ roots₂ rest)
          (merged : heap.mergeAncestors line₂ roots₂ rest = .ok (line₁, roots₁)) :
          heap.Merging own line₁ roots₁ [] ∧ line ++ roots ⊆ line₁ ++ roots₁ ∧
            whole ⊆ line₁ ++ roots₁ := by
        have still : whole ⊆ line₂ ++ roots₂ ++ rest := fun item inside => by
          have held := covered inside
          grind
        obtain ⟨merging, more, all⟩ := ih later still merging merged
        exact ⟨merging, List.Subset.trans kept more, all⟩
      simp only [mergeAncestors, classAt.isRoot, bind, Except.bind, Bool.or_eq_true,
        List.contains_iff_mem, decide_eq_true_eq] at merged
      split at merged
      · exact deeper (List.Subset.refl _) (List.mem_append.mpr ‹_›) (merging.skip ‹_›) merged
      · split at merged
        · obtain rfl := order.root.mp ‹_›
          exact deeper (fun item inside => by grind) (by grind)
            (merging.addRoot (order.singleton ▸ classAt) ‹_›) merged
        · exact deeper (fun item inside => by grind) (by grind)
            (merging.addClass classAt (List.Subset.trans included covered) ‹_› fun same =>
              ‹¬ inherited.length = 1› (order.root.mpr same)) merged

/-- By induction on the parents. -/
theorem merging_mergeParents {parents ancestors : List Handle} (ancestral : heap.Ancestral)
    (merging : heap.Merging own line roots [])
    (merged : heap.mergeParents line roots parents = .ok (some ancestors)) :
    ∃ line₁ roots₁, ancestors = line₁ ++ roots₁ ∧ heap.Merging own line₁ roots₁ [] ∧
      line ++ roots ⊆ ancestors ∧
      ∀ parent ∈ parents, ∃ whole, heap.ClassAt parent whole ∧ whole ⊆ ancestors := by
  induction parents generalizing line roots with
  | nil =>
      cases merged
      exact ⟨line, roots, rfl, merging, List.Subset.refl _, List.forall_mem_nil _⟩
  | cons parent rest ih =>
      unfold mergeParents at merged
      cases read : heap.read parent with
      | error fault =>
          rw [read] at merged
          cases merged
      | ok object =>
          simp only [read, bind, Except.bind] at merged
          split at merged
          · rename_i name whole shape
            have classAt : heap.ClassAt parent whole := ⟨object, name, get?_of_read read, shape⟩
            split at merged
            · cases merged
            · rename_i pair collected
              obtain ⟨line₁, roots₁⟩ := pair
              have lineal := ancestral.classes parent whole classAt
              have started : heap.Merging own line roots whole :=
                { merging with
                  inherits := fun ancestor inside other =>
                    have ⟨inherited, classAt, included⟩ := merging.inherits ancestor inside other
                    ⟨inherited, classAt, List.Subset.trans included (by grind)⟩ }
              obtain ⟨reached, kept, all⟩ := merging_mergeAncestors ancestral lineal
                (List.Subset.refl _) (List.subset_append_right _ _) started collected
              obtain ⟨line₂, roots₂, rfl, done, more, others⟩ := ih reached merged
              refine ⟨line₂, roots₂, rfl, done, List.Subset.trans kept more, ?_⟩
              exact List.forall_mem_cons.mpr ⟨⟨whole, classAt, List.Subset.trans all more⟩, others⟩
          · cases merged

/-- The line of a new class is in order, and holds those of its parents. -/
theorem merging_lineage {parents ancestors : List Handle} (ancestral : heap.Ancestral)
    (given : parents ≠ []) (lineage : heap.lineage heap.next parents = .ok (some ancestors)) :
    ∃ line, ancestors = line ++ [KernelClass.object.handle] ∧
      heap.Merging heap.next line [KernelClass.object.handle] [] := by
  obtain ⟨rootLine, rootAt⟩ := ancestral.root
  have started : heap.Merging heap.next [heap.next] [] [] :=
    { first := rfl
      distinct := List.nodup_singleton _
      inherits := fun ancestor inside other => absurd (List.mem_singleton.mp inside) other
      rootless := fun inside => rootAt.ne_next (List.mem_singleton.mp inside)
      roots := List.forall_mem_nil _ }
  obtain ⟨line, roots, rfl, merging, -, parental⟩ := merging_mergeParents ancestral started lineage
  obtain ⟨parent, rest, rfl⟩ := List.exists_cons_of_ne_nil given
  obtain ⟨whole, classAt, included⟩ := parental parent List.mem_cons_self
  -- The first parent brings the root, which is kept apart from the line.
  have rooted : KernelClass.object.handle ∈ roots :=
    (List.mem_append.mp (included (ancestral.classes parent whole classAt).root_mem)).resolve_left
      merging.rootless
  have alone : roots = [KernelClass.object.handle] := by
    have distinct : roots.Nodup := merging.distinct.of_append_right
    obtain ⟨first, others, rfl⟩ := List.exists_cons_of_ne_nil (List.ne_nil_of_mem rooted)
    obtain rfl := merging.roots first List.mem_cons_self
    have none : others = [] := List.eq_nil_iff_forall_not_mem.mpr fun other inside =>
      (List.nodup_cons.mp distinct).1
        (merging.roots other (List.mem_cons_of_mem _ inside) ▸ inside)
    rw [none]
  subst alone
  exact ⟨line, rfl, merging⟩

/-- A new class is in order together with the classes before it. -/
theorem Merging.lineal (merging : heap.Merging heap.next line [KernelClass.object.handle] [])
    (grows : heap.Grows after)
    (made : after.ClassAt heap.next (line ++ [KernelClass.object.handle]))
    (rootAt : heap.ClassAt KernelClass.object.handle whole) :
    after.Lineal heap.next (line ++ [KernelClass.object.handle]) where
  first := by
    rw [List.head?_append, merging.first]
    rfl
  distinct := merging.distinct
  inherits ancestor inside := by
    by_cases own : ancestor = heap.next
    · exact ⟨_, own ▸ made, List.Subset.refl _⟩
    · obtain ⟨inherited, classAt, included⟩ := merging.inherits ancestor inside own
      exact ⟨inherited, grows.classAt classAt, by simpa using included⟩
  last := by simp
  root := by
    have filled : line ≠ [] := by
      rintro rfl
      cases merging.first
    have long : 0 < line.length := List.length_pos_iff.mpr filled
    have other : heap.next ≠ KernelClass.object.handle := fun same => rootAt.ne_next same.symm
    simp only [List.length_append, List.length_singleton, other, iff_false]
    omega

theorem Change.ancestral {allows : Deed → Prop} (change : heap.Change allows after)
    (ancestral : heap.Ancestral) : after.Ancestral where
  root := by
    obtain ⟨line, rootAt⟩ := ancestral.root
    exact ⟨line, change.grows.classAt rootAt⟩
  classes own line classAt := by
    obtain ⟨later, name, found, shape⟩ := id classAt
    rcases change.origin found with ⟨rfl, brings⟩ | ⟨object, present, becomes⟩
    · cases brings with
      | @literal kernelClass payload literal =>
          cases (shape : payload = _)
          exact literal.elim
      | classObject name₁ prototype given lineage =>
          cases shape
          obtain ⟨line, rfl, merging⟩ := merging_lineage ancestral given lineage
          obtain ⟨whole, rootAt⟩ := ancestral.root
          exact merging.lineal change.grows classAt rootAt
      | _ => cases shape
    · obtain ⟨name₁, shape₁⟩ := (becomes.isClass line).mpr ⟨name, shape⟩
      exact change.grows.lineal (ancestral.classes own line ⟨object, name₁, present, shape₁⟩)

/-- By induction on the number of changes. -/
theorem Changes.ancestral {allows : Deed → Prop} (changes : heap.Changes allows after)
    (ancestral : heap.Ancestral) : after.Ancestral := by
  induction changes with
  | refl => exact ancestral
  | tail _ change ih => exact change.ancestral ih

/-- A value of a class is a value of all ancestors of that class, whatever object its property
`class` refers to. -/
theorem Ancestral.isA (ancestral : heap.Ancestral) {value : Handle}
    (is : heap.isA value parent = .ok true) (inherited : heap.ancestors parent = .ok line)
    (inside : ancestor ∈ line) : heap.isA value ancestor = .ok true := by
  unfold Heap.isA at is ⊢
  cases read : heap.read value with
  | error fault =>
      rw [read] at is
      cases is
  | ok object =>
      simp only [read, bind, Except.bind] at is ⊢
      cases own : object.classHandle with
      | none => simp [own, pure, Except.pure] at is
      | some kind =>
          simp only [own] at is ⊢
          cases lines : heap.ancestors kind with
          | error fault =>
              rw [lines] at is
              cases is
          | ok whole =>
              simp only [lines, pure, Except.pure, Except.ok.injEq, List.contains_iff_mem] at is ⊢
              rcases classAt_or_alone lines with classAt | rfl
              · obtain ⟨line₁, parentAt, included⟩ :=
                  (ancestral.classes kind whole classAt).inherits parent is
                cases inherited.symm.trans parentAt.ancestors
                exact included inside
              · obtain rfl := List.mem_singleton.mp is
                cases inherited.symm.trans lines
                exact inside

end Heap

namespace Kernel

/-- The classes of a new machine are those of the kernel, with their ancestors. -/
theorem classes_objects : (objects.zipIdx.all fun (object, index) =>
    match object.payload with
    | .classObject _ line => KernelClass.all.any fun kernelClass =>
        kernelClass.handle == ⟨index⟩ && kernelClass.lineage == line
    | _ => true) = true := by decide +kernel

theorem classAt_handle (kernelClass : KernelClass) :
    heap.ClassAt kernelClass.handle kernelClass.lineage := by
  cases kernelClass <;> exact ⟨_, _, rfl, rfl⟩

theorem lineal_handle (kernelClass : KernelClass) :
    heap.Lineal kernelClass.handle kernelClass.lineage where
  first := by cases kernelClass <;> rfl
  distinct := by cases kernelClass <;> decide
  inherits ancestor inside := by
    have inherited : ancestor = kernelClass.handle ∨ ancestor = KernelClass.object.handle := by
      cases kernelClass <;> simpa [KernelClass.lineage] using inside
    rcases inherited with rfl | rfl
    · exact ⟨_, classAt_handle kernelClass, List.Subset.refl _⟩
    · exact ⟨_, classAt_handle .object, by cases kernelClass <;> decide⟩
  last := by cases kernelClass <;> rfl
  root := by cases kernelClass <;> decide

theorem exists_kernelClass {own : Handle} {line : List Handle} (classAt : heap.ClassAt own line) :
    ∃ kernelClass : KernelClass, own = kernelClass.handle ∧ line = kernelClass.lineage := by
  obtain ⟨object, name, found, shape⟩ := classAt
  rw [get?_heap] at found
  have listed : (object, own.index) ∈ objects.zipIdx := List.mem_zipIdx_iff_getElem?.mpr found
  have known := List.all_eq_true.mp classes_objects _ listed
  simp only [shape, List.any_eq_true, Bool.and_eq_true, beq_iff_eq] at known
  obtain ⟨kernelClass, -, same, rfl⟩ := known
  exact ⟨kernelClass, same.symm, rfl⟩

theorem ancestral_heap : heap.Ancestral where
  root := ⟨_, classAt_handle .object⟩
  classes own line classAt := by
    obtain ⟨kernelClass, rfl, rfl⟩ := exists_kernelClass classAt
    exact lineal_handle kernelClass

end Kernel

end RipInterpreter
