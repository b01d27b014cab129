import Mathlib.Data.List.Perm.Subperm
import RipInterpreter.Proofs.Machine.Alters
import RipInterpreter.Proofs.Machine.Ancestry

namespace RipInterpreter

namespace Heap

variable {heap after : Heap} {own parent lower upper : Handle}
  {parents line ancestors mentioned before rest : List Handle} {key : String}

/-- Classes other than the root, each once, in the order in which they are first mentioned. -/
def withoutRoot (mentioned : List Handle) : List Handle :=
  (mentioned.filter (· ≠ KernelClass.object.handle)).eraseDups

/-- The root, if it is mentioned. -/
def onlyRoot (mentioned : List Handle) : List Handle :=
  if KernelClass.object.handle ∈ mentioned then [KernelClass.object.handle] else []

/-- Classes, each once, in the order in which they are first mentioned, but the root last. -/
def rootLast (mentioned : List Handle) : List Handle := withoutRoot mentioned ++ onlyRoot mentioned

theorem mem_withoutRoot : own ∈ withoutRoot mentioned ↔
    own ∈ mentioned ∧ own ≠ KernelClass.object.handle := by
  simp [withoutRoot, List.mem_eraseDups]

theorem mem_onlyRoot : own ∈ onlyRoot mentioned ↔
    own ∈ mentioned ∧ own = KernelClass.object.handle := by
  unfold onlyRoot
  split <;> grind

theorem mem_rootLast : own ∈ rootLast mentioned ↔ own ∈ mentioned := by
  rw [rootLast, List.mem_append, mem_withoutRoot, mem_onlyRoot]
  tauto

theorem withoutRoot_append_singleton (mentioned : List Handle) (next : Handle) :
    withoutRoot (mentioned ++ [next]) =
      if next ∈ mentioned ∨ next = KernelClass.object.handle then withoutRoot mentioned
      else withoutRoot mentioned ++ [next] := by
  by_cases root : next = KernelClass.object.handle
  · simp [withoutRoot, root]
  · by_cases known : next ∈ mentioned
    · simp [withoutRoot, root, known, List.eraseDups_append, List.removeAll]
    · simp [withoutRoot, root, known, List.eraseDups_append, List.removeAll, List.eraseDups_cons]

theorem onlyRoot_append_singleton (mentioned : List Handle) (next : Handle) :
    onlyRoot (mentioned ++ [next]) =
      if next ∈ mentioned ∨ next ≠ KernelClass.object.handle then onlyRoot mentioned
      else onlyRoot mentioned ++ [next] := by
  unfold onlyRoot
  grind

/-- What is mentioned first comes first, unless it is the root. -/
theorem withoutRoot_cons (fresh : own ∉ mentioned) (other : own ≠ KernelClass.object.handle) :
    withoutRoot (own :: mentioned) = own :: withoutRoot mentioned := by
  have kept : (mentioned.filter (· ≠ KernelClass.object.handle)).filter (fun item => !item == own) =
      mentioned.filter (· ≠ KernelClass.object.handle) := by
    rw [List.filter_eq_self]
    intro item inside
    have distinct : item ≠ own := fun same => fresh (same ▸ List.mem_of_mem_filter inside)
    simpa using distinct
  rw [withoutRoot, List.filter_cons_of_pos (by simpa using other), List.eraseDups_cons, kept,
    withoutRoot]

theorem rootLast_cons (fresh : own ∉ mentioned) (other : own ≠ KernelClass.object.handle) :
    rootLast (own :: mentioned) = own :: rootLast mentioned := by
  have same : onlyRoot (own :: mentioned) = onlyRoot mentioned := by
    unfold onlyRoot
    grind
  rw [rootLast, withoutRoot_cons fresh other, same, List.cons_append, rootLast]

theorem withoutRoot_split (rest : List Handle) (unknown : upper ∉ before)
    (other : upper ≠ KernelClass.object.handle) :
    ∃ later, withoutRoot (before ++ upper :: rest) = withoutRoot before ++ upper :: later := by
  have fresh : upper ∉ before.filter (· ≠ KernelClass.object.handle) := fun inside =>
    unknown (List.mem_of_mem_filter inside)
  rw [withoutRoot, List.filter_append, List.filter_cons_of_pos (by simpa using other),
    List.eraseDups_append, List.removeAll, List.filter_cons_of_pos (by simpa [other] using fresh),
    List.eraseDups_cons, withoutRoot]
  exact ⟨_, rfl⟩

/-- What was mentioned before a class, and nothing else, comes before it. -/
theorem rootLast_split (rest : List Handle) (unknown : upper ∉ before)
    (other : upper ≠ KernelClass.object.handle) :
    ∃ later, rootLast (before ++ upper :: rest) = withoutRoot before ++ upper :: later := by
  obtain ⟨later, split⟩ := withoutRoot_split rest unknown other
  rw [rootLast, split, List.append_assoc, List.cons_append]
  exact ⟨_, rfl⟩

/-- The ancestors of a class. What is no class has none. -/
def ancestry (heap : Heap) (handle : Handle) : List Handle :=
  match heap.get? handle with
  | some object => object.payload.ancestors
  | none => []

/-- A class has been made from these parents. Its ancestors are itself and, as the parents mention
them, theirs. -/
structure Extends (heap : Heap) (own : Handle) (parents : List Handle) : Prop where
  given : parents ≠ []
  classes : ∀ parent ∈ parents, ∃ line, heap.ClassAt parent line
  line : heap.ClassAt own (own :: rootLast (parents.flatMap heap.ancestry))

/-- Every class but the root has been made from parents. -/
def Derived (heap : Heap) : Prop :=
  ∀ own line, heap.ClassAt own line →
    own = KernelClass.object.handle ∨ ∃ parents, heap.Extends own parents

theorem ClassAt.ancestry (classAt : heap.ClassAt own line) : heap.ancestry own = line := by
  obtain ⟨object, name, found, shape⟩ := classAt
  rw [Heap.ancestry, found]
  exact congrArg Payload.ancestors shape

theorem classAt_of_mem (inside : upper ∈ heap.ancestry own) :
    heap.ClassAt own (heap.ancestry own) := by
  unfold ancestry at inside ⊢
  split at inside
  · rename_i object found
    obtain ⟨name, shape⟩ := Payload.classObject_of_ancestors (List.ne_nil_of_mem inside) rfl
    exact ⟨object, name, found, shape⟩
  · cases inside

theorem Ancestral.lineal (ancestral : heap.Ancestral) (inside : upper ∈ heap.ancestry own) :
    heap.Lineal own (heap.ancestry own) := ancestral.classes own _ (classAt_of_mem inside)

theorem Extends.ancestry (extended : heap.Extends own parents) :
    heap.ancestry own = own :: rootLast (parents.flatMap heap.ancestry) := extended.line.ancestry

theorem Grows.flatMap_ancestry (grows : heap.Grows after)
    (classes : ∀ parent ∈ parents, ∃ line, heap.ClassAt parent line) :
    parents.flatMap after.ancestry = parents.flatMap heap.ancestry := by
  refine List.flatMap_congr fun parent inside => ?_
  obtain ⟨line, classAt⟩ := classes parent inside
  rw [classAt.ancestry, (grows.classAt classAt).ancestry]

theorem Grows.extends (grows : heap.Grows after) (extended : heap.Extends own parents) :
    after.Extends own parents where
  given := extended.given
  classes parent inside := by
    obtain ⟨line, classAt⟩ := extended.classes parent inside
    exact ⟨line, grows.classAt classAt⟩
  line := by
    rw [grows.flatMap_ancestry extended.classes]
    exact grows.classAt extended.line

/-- By induction on the ancestors of a parent that are left to merge. -/
theorem mergeAncestors_eq (ancestral : heap.Ancestral) {inherited : List Handle}
    (classes : ∀ ancestor ∈ inherited, ∃ line, heap.ClassAt ancestor line) :
    heap.mergeAncestors (withoutRoot mentioned) (onlyRoot mentioned) inherited =
      .ok (withoutRoot (mentioned ++ inherited), onlyRoot (mentioned ++ inherited)) := by
  induction inherited generalizing mentioned with
  | nil => rw [mergeAncestors, List.append_nil]
  | cons next rest ih =>
      obtain ⟨line, classAt⟩ := classes next List.mem_cons_self
      have root := (ancestral.classes next line classAt).root
      have later : heap.mergeAncestors (withoutRoot (mentioned ++ [next]))
          (onlyRoot (mentioned ++ [next])) rest = _ :=
        ih fun ancestor inside => classes ancestor (List.mem_cons_of_mem next inside)
      rw [withoutRoot_append_singleton, onlyRoot_append_singleton, ← List.append_cons] at later
      rw [← later]
      simp only [mergeAncestors, classAt.isRoot, bind, Except.bind, root, Bool.or_eq_true,
        List.contains_iff_mem, decide_eq_true_eq, mem_withoutRoot, mem_onlyRoot]
      grind

/-- By induction on the parents. -/
theorem of_mergeParents (ancestral : heap.Ancestral)
    (merged : heap.mergeParents (withoutRoot mentioned) (onlyRoot mentioned) parents =
      .ok (some ancestors)) :
    (∀ parent ∈ parents, ∃ line, heap.ClassAt parent line) ∧
      ancestors = rootLast (mentioned ++ parents.flatMap heap.ancestry) := by
  induction parents generalizing mentioned with
  | nil =>
      cases merged
      exact ⟨List.forall_mem_nil _, by rw [List.flatMap_nil, List.append_nil, rootLast]⟩
  | cons parent rest ih =>
      unfold mergeParents at merged
      cases read : heap.read parent with
      | error fault =>
          rw [read] at merged
          cases merged
      | ok object =>
          simp only [read, bind, Except.bind] at merged
          split at merged
          · rename_i name line shape
            have classAt : heap.ClassAt parent line := ⟨object, name, get?_of_read read, shape⟩
            rw [mergeAncestors_eq ancestral fun ancestor inside => by
              obtain ⟨inherited, found, -⟩ :=
                (ancestral.classes parent line classAt).inherits ancestor inside
              exact ⟨inherited, found⟩] at merged
            obtain ⟨classes, rfl⟩ := ih merged
            refine ⟨List.forall_mem_cons.mpr ⟨⟨line, classAt⟩, classes⟩, ?_⟩
            rw [List.flatMap_cons, classAt.ancestry, List.append_assoc]
          · cases merged

/-- A new class extends the parents whose ancestors have been collected for it. -/
theorem extends_of_lineage (ancestral : heap.Ancestral) (given : parents ≠ [])
    (lineage : heap.lineage heap.next parents = .ok (some ancestors)) (grows : heap.Grows after)
    (made : after.ClassAt heap.next ancestors) : after.Extends heap.next parents := by
  obtain ⟨rootLine, rootAt⟩ := ancestral.root
  have other : heap.next ≠ KernelClass.object.handle := fun same => rootAt.ne_next same.symm
  have single : withoutRoot [heap.next] = [heap.next] := withoutRoot_cons List.not_mem_nil other
  have rootless : onlyRoot [heap.next] = [] := if_neg fun inside =>
    other (List.mem_singleton.mp inside).symm
  have merged : heap.mergeParents (withoutRoot [heap.next]) (onlyRoot [heap.next]) parents =
      .ok (some ancestors) := by
    rw [single, rootless]
    exact lineage
  obtain ⟨classes, rfl⟩ := of_mergeParents ancestral merged
  have fresh : heap.next ∉ parents.flatMap heap.ancestry := by
    intro inside
    obtain ⟨parent, -, inside⟩ := List.mem_flatMap.mp inside
    obtain ⟨line, classAt, -⟩ := (ancestral.lineal inside).inherits _ inside
    exact classAt.ne_next rfl
  refine ⟨given, fun parent inside => ?_, ?_⟩
  · obtain ⟨line, classAt⟩ := classes parent inside
    exact ⟨line, grows.classAt classAt⟩
  · rw [grows.flatMap_ancestry classes, ← rootLast_cons fresh other]
    exact made

theorem Change.derived {allows : Deed → Prop} (change : heap.Change allows after)
    (ancestral : heap.Ancestral) (derived : heap.Derived) : after.Derived := by
  intro own line classAt
  obtain ⟨later, name, found, shape⟩ := id classAt
  rcases change.origin found with ⟨rfl, brings⟩ | ⟨object, present, becomes⟩
  · cases brings with
    | @literal kernelClass payload literal =>
        cases (shape : payload = _)
        exact literal.elim
    | classObject name₁ prototype given lineage =>
        cases shape
        exact .inr ⟨_, extends_of_lineage ancestral given lineage change.grows classAt⟩
    | _ => cases shape
  · obtain ⟨name₁, shape₁⟩ := (becomes.isClass line).mpr ⟨name, shape⟩
    refine (derived own line ⟨object, name₁, present, shape₁⟩).imp_right ?_
    rintro ⟨parents, extended⟩
    exact ⟨parents, change.grows.extends extended⟩

/-- By induction on the number of changes. -/
theorem Changes.derived {allows : Deed → Prop} (changes : heap.Changes allows after)
    (ancestral : heap.Ancestral) (derived : heap.Derived) : after.Derived := by
  induction changes with
  | refl => exact derived
  | tail earlier change ih => exact change.derived (Changes.ancestral earlier ancestral) ih

/-- What comes before an item of a list without repeats. -/
theorem pair_sublist_iff {later : List Handle} (distinct : (before ++ upper :: later).Nodup)
    (apart : lower ≠ upper) :
    [lower, upper].Sublist (before ++ upper :: later) ↔ lower ∈ before := by
  constructor
  · intro ordered
    obtain ⟨front, back, split, first, second⟩ := List.sublist_append_iff.mp ordered
    cases front with
    | nil =>
        rw [List.nil_append] at split
        rw [← split, List.sublist_cons_iff] at second
        have again : upper ∈ later := by
          rcases second with second | ⟨rest, same, -⟩
          · exact second.subset (by simp)
          · exact absurd (List.cons.inj same).1 apart
        exact absurd again (List.nodup_cons.mp distinct.of_append_right).1
    | cons item front =>
        obtain rfl := (List.cons.inj split).1
        exact first.subset List.mem_cons_self
  · intro inside
    exact (List.singleton_sublist.mpr inside).append
      (List.singleton_sublist.mpr List.mem_cons_self)

/-- Of two different items of a list one comes before the other. -/
theorem pair_sublist_or (first : lower ∈ line) (second : upper ∈ line) (apart : lower ≠ upper) :
    [lower, upper].Sublist line ∨ [upper, lower].Sublist line := by
  obtain ⟨before, later, rfl⟩ := List.append_of_mem second
  rcases List.mem_append.mp first with earlier | behind
  · exact .inl ((List.singleton_sublist.mpr earlier).append
      (List.singleton_sublist.mpr List.mem_cons_self))
  · refine .inr ((List.Sublist.cons_cons upper ?_).trans (List.sublist_append_right before _))
    exact List.singleton_sublist.mpr ((List.mem_cons.mp behind).resolve_left apart)

/-- Of two items of a list without repeats only one comes before the other. -/
theorem pair_sublist_asymm (distinct : line.Nodup) (ordered : [lower, upper].Sublist line) :
    ¬ [upper, lower].Sublist line := by
  intro reversed
  induction line with
  | nil => cases ordered
  | cons first rest ih =>
      have fresh := (List.nodup_cons.mp distinct).1
      cases ordered with
      | cons _ later =>
          cases reversed with
          | cons _ again => exact ih (List.nodup_cons.mp distinct).2 later again
          | cons_cons _ again => exact fresh (later.subset (by simp))
      | cons_cons _ later =>
          cases reversed with
          | cons _ again => exact fresh (again.subset (by simp))
          | cons_cons _ again => exact fresh (later.subset (by simp))

namespace Ancestral

variable (ancestral : heap.Ancestral)
include ancestral

/-- What an ancestor derives from is an ancestor, too. -/
theorem mem_of_mem (inside : lower ∈ heap.ancestry own) (derives : upper ∈ heap.ancestry lower) :
    upper ∈ heap.ancestry own := by
  obtain ⟨line, classAt, included⟩ := (ancestral.lineal inside).inherits lower inside
  rw [classAt.ancestry] at derives
  exact included derives

/-- The root derives from no other class. -/
theorem eq_of_mem_root (derives : upper ∈ heap.ancestry KernelClass.object.handle) :
    upper = KernelClass.object.handle := by
  rw [(ancestral.lineal derives).singleton] at derives
  exact List.mem_singleton.mp derives

theorem own_precedes (inside : upper ∈ heap.ancestry own) (apart : own ≠ upper) :
    [own, upper].Sublist (heap.ancestry own) := by
  obtain ⟨rest, split⟩ := List.head?_eq_some_iff.mp (ancestral.lineal inside).first
  rw [split] at inside ⊢
  have later := (List.mem_cons.mp inside).resolve_left apart.symm
  exact (List.singleton_sublist.mpr later).cons_cons own

theorem precedes_root (inside : lower ∈ heap.ancestry own)
    (apart : lower ≠ KernelClass.object.handle) :
    [lower, KernelClass.object.handle].Sublist (heap.ancestry own) := by
  obtain ⟨front, split⟩ := List.getLast?_eq_some_iff.mp (ancestral.lineal inside).last
  have distinct := (ancestral.lineal inside).distinct
  rw [split] at inside distinct ⊢
  rw [pair_sublist_iff distinct apart]
  exact (List.mem_append.mp inside).resolve_right fun last => apart (List.mem_singleton.mp last)

end Ancestral

/-- Two ancestors of a class stand as they do among the ancestors of the first parent that has the
upper one, unless that is the root. -/
theorem Extends.precedes_iff (ancestral : heap.Ancestral)
    (extended : heap.Extends own (before ++ parent :: rest))
    (earliest : ∀ other ∈ before, upper ∉ heap.ancestry other)
    (leads : upper ∈ heap.ancestry parent) (derives : upper ∈ heap.ancestry lower)
    (apart : lower ≠ upper) (notRoot : upper ≠ KernelClass.object.handle) (notOwn : lower ≠ own) :
    [lower, upper].Sublist (heap.ancestry own) ↔ [lower, upper].Sublist (heap.ancestry parent) := by
  obtain ⟨front, back, split, unknown⟩ := List.eq_append_cons_of_mem leads
  have never : upper ∉ before.flatMap heap.ancestry ++ front := by
    intro inside
    rcases List.mem_append.mp inside with inside | inside
    · obtain ⟨other, earlier, inside⟩ := List.mem_flatMap.mp inside
      exact earliest other earlier inside
    · exact unknown inside
  obtain ⟨later, line⟩ := rootLast_split (back ++ rest.flatMap heap.ancestry) never notRoot
  have whole : heap.ancestry own =
      (own :: withoutRoot (before.flatMap heap.ancestry ++ front)) ++ upper :: later := by
    rw [extended.ancestry, List.flatMap_append, List.flatMap_cons, split, List.cons_append, ← line]
    simp only [List.append_assoc, List.cons_append]
  have distinct := (ancestral.classes own _ extended.line).distinct
  rw [← extended.ancestry, whole] at distinct
  have above := (ancestral.lineal leads).distinct
  rw [split] at above
  rw [whole, split, pair_sublist_iff distinct apart, pair_sublist_iff above apart, List.mem_cons,
    mem_withoutRoot, List.mem_append, List.mem_flatMap]
  -- No earlier parent has the lower class: it would have the upper one, too.
  have missing : ¬ ∃ other ∈ before, lower ∈ heap.ancestry other := by
    rintro ⟨other, earlier, inside⟩
    exact earliest other earlier (ancestral.mem_of_mem inside derives)
  have notTop : lower ≠ KernelClass.object.handle := by
    rintro rfl
    exact notRoot (ancestral.eq_of_mem_root derives)
  simp only [notOwn, missing, notTop, false_or, ne_eq, not_false_eq_true, and_true]

/-- The classes on the way from a class up to an ancestor, when one always goes to the first parent
that leads there. -/
inductive Climbs (heap : Heap) (goal : Handle) : Handle → Handle → Prop
  | here (own : Handle) : Climbs heap goal own own
  | up {own parent passed : Handle} {before rest : List Handle}
    (extended : heap.Extends own (before ++ parent :: rest))
    (earliest : ∀ other ∈ before, goal ∉ heap.ancestry other)
    (leads : goal ∈ heap.ancestry parent) (climbs : Climbs heap goal parent passed) :
    Climbs heap goal own passed

/-- By induction on the way. -/
theorem Climbs.precedes (ancestral : heap.Ancestral) (climbs : heap.Climbs upper own lower)
    (inside : upper ∈ heap.ancestry own) (derives : upper ∈ heap.ancestry lower)
    (apart : lower ≠ upper) (notRoot : upper ≠ KernelClass.object.handle) :
    [lower, upper].Sublist (heap.ancestry own) := by
  induction climbs with
  | here own => exact ancestral.own_precedes inside apart
  | @up own parent passed before rest extended earliest leads _ ih =>
      rcases eq_or_ne passed own with rfl | same
      · exact ancestral.own_precedes inside apart
      · exact (extended.precedes_iff ancestral earliest leads derives apart notRoot same).mpr
          (ih leads derives apart)

/-- A parent has fewer ancestors. -/
theorem Extends.length_lt (ancestral : heap.Ancestral) (extended : heap.Extends own parents)
    (inside : parent ∈ parents) : (heap.ancestry parent).length < (heap.ancestry own).length := by
  obtain ⟨line, classAt⟩ := extended.classes parent inside
  have distinct := (ancestral.classes parent line classAt).distinct
  rw [extended.ancestry, classAt.ancestry, List.length_cons, Nat.lt_succ_iff]
  refine (List.subperm_of_subset distinct fun ancestor above => ?_).length_le
  rw [mem_rootLast, List.mem_flatMap]
  exact ⟨parent, inside, by rwa [classAt.ancestry]⟩

/-- An ancestor that others precede comes from a parent. -/
theorem Extends.mem_flatMap (ancestral : heap.Ancestral) (extended : heap.Extends own parents)
    (ordered : [lower, upper].Sublist (heap.ancestry own)) (apart : lower ≠ upper) :
    upper ∈ parents.flatMap heap.ancestry := by
  have inside : upper ∈ heap.ancestry own := ordered.subset (by simp)
  have distinct := (ancestral.lineal inside).distinct
  rw [extended.ancestry] at ordered inside distinct
  refine (List.mem_cons.mp inside).elim ?_ mem_rootLast.mp
  rintro rfl
  exact absurd ((pair_sublist_iff distinct apart).mp ordered) List.not_mem_nil

/-- Among the parents that have an ancestor one is the first. -/
theorem exists_first (inside : upper ∈ parents.flatMap heap.ancestry) :
    ∃ before parent rest, parents = before ++ parent :: rest ∧
      (∀ other ∈ before, upper ∉ heap.ancestry other) ∧ upper ∈ heap.ancestry parent := by
  have has : ∃ parent ∈ parents, decide (upper ∈ heap.ancestry parent) = true := by
    simpa using inside
  obtain ⟨parent, chosen⟩ := Option.isSome_iff_exists.mp (List.find?_isSome.mpr has)
  obtain ⟨leads, before, rest, same, earliest⟩ := List.find?_eq_some_iff_append.mp chosen
  exact ⟨before, parent, rest, same, by simpa using earliest, by simpa using leads⟩

/-- By induction on the number of ancestors. -/
theorem climbs_of_precedes {own : Handle} (ancestral : heap.Ancestral) (derived : heap.Derived)
    (ordered : [lower, upper].Sublist (heap.ancestry own)) (derives : upper ∈ heap.ancestry lower)
    (apart : lower ≠ upper) (notRoot : upper ≠ KernelClass.object.handle) :
    heap.Climbs upper own lower := by
  by_cases same : lower = own
  · exact same ▸ .here lower
  have inside : upper ∈ heap.ancestry own := ordered.subset (by simp)
  rcases derived own _ (classAt_of_mem inside) with rfl | ⟨parents, extended⟩
  · exact absurd (ancestral.eq_of_mem_root inside) notRoot
  · obtain ⟨before, parent, rest, rfl, earliest, leads⟩ :=
      exists_first (extended.mem_flatMap ancestral ordered apart)
    have closer := (extended.precedes_iff ancestral earliest leads derives apart notRoot same).mp
      ordered
    exact .up extended earliest leads
      (climbs_of_precedes ancestral derived closer derives apart notRoot)
termination_by (heap.ancestry own).length
decreasing_by exact extended.length_lt ancestral (by simp)

/-- Of two ancestors one of which derives from the other, that comes first exactly if one passes it
on the way up to the other, or if the other is the root. -/
theorem Ancestral.precedes_iff (ancestral : heap.Ancestral) (derived : heap.Derived)
    (below : lower ∈ heap.ancestry own) (above : upper ∈ heap.ancestry own)
    (derives : upper ∈ heap.ancestry lower) (apart : lower ≠ upper) :
    [lower, upper].Sublist (heap.ancestry own) ↔
      upper = KernelClass.object.handle ∨ heap.Climbs upper own lower := by
  by_cases root : upper = KernelClass.object.handle
  · subst root
    simp only [true_or, iff_true]
    exact ancestral.precedes_root below apart
  · simp only [root, false_or]
    exact ⟨fun ordered => climbs_of_precedes ancestral derived ordered derives apart root,
      fun climbs => climbs.precedes ancestral above derives apart root⟩

/-- The prototype of a class holds a property for all values of the class. -/
def Defines (heap : Heap) (key : String) (definer prototype : Handle) (property : Property) : Prop :=
  heap.Stores definer "@" (.plain prototype) ∧ heap.Stores prototype key property

instance (heap : Heap) (key : String) (definer prototype : Handle) (property : Property) :
    Decidable (heap.Defines key definer prototype property) :=
  inferInstanceAs (Decidable (_ ∧ _))

/-- What both of two classes define, values of a class never get from the second one: they find it
at the first one, or at one before that. -/
def Shadows (heap : Heap) (own front back : Handle) : Prop :=
  ∀ receiver object key prototype property, heap.get? receiver = some object →
    object.properties.get? key = none → object.classHandle = some own →
    heap.Defines key front prototype property →
    ∃ definer found held, heap.findProperty receiver key = .ok (some (found, held)) ∧
      heap.Defines key definer found held ∧ definer ≠ back ∧
      (definer = front ∨ [definer, front].Sublist (heap.ancestry own))

section

variable {definer prototype : Handle} {property : Property}

theorem findInherited_of_defines (defines : heap.Defines key definer prototype property)
    (rest : List Handle) :
    heap.findInherited key (definer :: rest) = .ok (some (prototype, property)) := by
  obtain ⟨⟨object, found, stored⟩, holder, present, held⟩ := defines
  simp only [findInherited, read_eq_ok found, read_eq_ok present, bind, Except.bind, stored, held]
  rfl

theorem findInherited_of_missing (closed : heap.Closed) (known : heap.Holds definer)
    (missing : ∀ prototype property, ¬ heap.Defines key definer prototype property)
    (rest : List Handle) :
    heap.findInherited key (definer :: rest) = heap.findInherited key rest := by
  obtain ⟨object, found⟩ := known
  rw [findInherited]
  simp only [read_eq_ok found, bind, Except.bind]
  split
  · rename_i prototype stored
    obtain ⟨holder, present⟩ := (closed.objects definer object found).stored stored
    simp only [read_eq_ok present]
    split
    · rename_i property held
      exact absurd ⟨⟨object, found, stored⟩, holder, present, held⟩ (missing prototype property)
    · rfl
  · rfl

/-- By induction on the classes. -/
theorem findInherited_first (closed : heap.Closed)
    (known : ∀ ancestor ∈ ancestors, heap.Holds ancestor) {front : Handle}
    (inside : front ∈ ancestors) (defines : heap.Defines key front prototype property) :
    ∃ definer found held, heap.findInherited key ancestors = .ok (some (found, held)) ∧
      heap.Defines key definer found held ∧
      (definer = front ∨ [definer, front].Sublist ancestors) := by
  induction ancestors with
  | nil => cases inside
  | cons first rest ih =>
      by_cases missing : ∀ prototype property, ¬ heap.Defines key first prototype property
      · have apart : front ≠ first := by
          rintro rfl
          exact missing prototype property defines
        obtain ⟨definer, found, held, answer, defined, order⟩ :=
          ih (fun ancestor later => known ancestor (List.mem_cons_of_mem first later))
            (List.mem_of_ne_of_mem apart inside)
        rw [findInherited_of_missing closed (known first List.mem_cons_self) missing]
        exact ⟨definer, found, held, answer, defined, order.imp_right (.cons first)⟩
      · push Not at missing
        obtain ⟨found, held, defined⟩ := missing
        refine ⟨first, found, held, findInherited_of_defines defined rest, defined, ?_⟩
        rcases List.mem_cons.mp inside with rfl | later
        · exact .inl rfl
        · exact .inr ((List.singleton_sublist.mpr later).cons_cons first)

end

/-- Where one ancestor precedes another, it shadows it. -/
theorem Ancestral.shadows (ancestral : heap.Ancestral) (closed : heap.Closed) {front back : Handle}
    (ordered : [front, back].Sublist (heap.ancestry own)) : heap.Shadows own front back := by
  intro receiver object key prototype property present missing kind defines
  have inside : front ∈ heap.ancestry own := ordered.subset List.mem_cons_self
  have classAt := classAt_of_mem inside
  have known : ∀ ancestor ∈ heap.ancestry own, heap.Holds ancestor := by
    intro ancestor above
    obtain ⟨line, ⟨object, name, found, -⟩, -⟩ := (ancestral.lineal above).inherits ancestor above
    exact ⟨object, found⟩
  obtain ⟨definer, found, held, answer, defined, order⟩ :=
    findInherited_first closed known inside defines
  refine ⟨definer, found, held, ?_, defined, ?_, order⟩
  · simp only [findProperty, read_eq_ok present, bind, Except.bind, missing, kind,
      classAt.ancestors]
    exact answer
  · rintro rfl
    have distinct := (ancestral.lineal inside).distinct
    have apart : front ≠ definer := by simpa using ordered.nodup distinct
    exact order.elim apart.symm (pair_sublist_asymm distinct ordered)

end Heap

namespace Kernel

theorem derived_heap : heap.Derived := by
  intro own line classAt
  obtain ⟨kernelClass, rfl, rfl⟩ := exists_kernelClass classAt
  by_cases root : kernelClass = .object
  · exact .inl (congrArg KernelClass.handle root)
  · refine .inr ⟨[KernelClass.object.handle], List.cons_ne_nil _ _, ?_, ?_⟩
    · exact List.forall_mem_singleton.mpr ⟨_, classAt_handle .object⟩
    · rw [List.flatMap_singleton, (classAt_handle .object).ancestry]
      rw [KernelClass.lineage, if_neg root] at classAt
      exact classAt

end Kernel

end RipInterpreter
