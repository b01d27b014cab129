import RipInterpreter.Machine.World
import RipInterpreter.Evaluation.Calls
import RipInterpreter.Proofs.Machine.ClosedHeap

namespace RipInterpreter

variable {α β : Type}

/-- An answer that is left when faults are forgotten. -/
theorem eq_ok_of_toOption {ε : Type} {answer : Except ε α} {result : α}
    (same : answer.toOption = some result) : answer = .ok result := by
  cases answer with
  | error fault => cases same
  | ok found => exact congrArg Except.ok (Option.some.inj same)

/-- The question has an answer, and one of the given kind. -/
def Answers (answer : Except ReadFault α) (expected : α → Prop) : Prop :=
  ∃ result, answer = .ok result ∧ expected result

namespace Answers

theorem ok {expected : α → Prop} {result : α} (holds : expected result) :
    Answers (.ok result) expected := ⟨result, rfl, holds⟩

theorem bind {answer : Except ReadFault α} {next : α → Except ReadFault β} {middle : α → Prop}
    {expected : β → Prop} (first : Answers answer middle)
    (second : ∀ result, middle result → Answers (next result) expected) :
    Answers (answer >>= next) expected := by
  obtain ⟨result, rfl, holds⟩ := first
  exact second result holds

theorem mono {answer : Except ReadFault α} {first second : α → Prop}
    (answers : Answers answer first) (weaker : ∀ result, first result → second result) :
    Answers answer second := by
  obtain ⟨result, answered, holds⟩ := answers
  exact ⟨result, answered, weaker result holds⟩

theorem mapM {question : α → Except ReadFault β} {items : List α}
    (each : ∀ item ∈ items, Answers (question item) fun _ => True) :
    Answers (items.mapM question) fun _ => True := by
  induction items with
  | nil => exact .ok trivial
  | cons item rest ih =>
      rw [List.mapM_cons]
      exact (each item List.mem_cons_self).bind fun _ _ =>
        (ih fun other inside => each other (List.mem_cons_of_mem item inside)).bind fun _ _ =>
          .ok trivial

/-- The answers to a list of questions are those to each of them. -/
theorem mapM_congr {question question₁ : α → Except ReadFault β} (items : List α)
    (each : ∀ item ∈ items, question₁ item = question item) :
    items.mapM question₁ = items.mapM question := by
  induction items with
  | nil => rfl
  | cons item rest ih =>
      rw [List.mapM_cons, List.mapM_cons, each item List.mem_cons_self,
        ih fun other inside => each other (List.mem_cons_of_mem item inside)]

end Answers

namespace Heap

variable {heap : Heap} {handle left right : Handle}

/-- The property is stored in the object of the handle. -/
def Stores (heap : Heap) (owner : Handle) (key : String) (property : Property) : Prop :=
  ∃ object, heap.get? owner = some object ∧ object.properties.get? key = some property

instance (heap : Heap) (owner : Handle) (key : String) (property : Property) :
    Decidable (heap.Stores owner key property) :=
  decidable_of_iff (∃ object ∈ heap.get? owner, object.properties.get? key = some property) Iff.rfl

theorem answers_read (held : heap.Holds handle) :
    Answers (heap.read handle) fun object => heap.get? handle = some object := by
  obtain ⟨object, found⟩ := held
  exact ⟨object, by simp [read, found], found⟩

theorem answers_isClass (held : heap.Holds handle) :
    Answers (heap.isClass handle) fun _ => True :=
  (answers_read held).bind fun object _ => by
    cases object.payload <;> exact .ok trivial

theorem answers_isRoot (held : heap.Holds handle) : Answers (heap.isRoot handle) fun _ => True :=
  (answers_read held).bind fun object _ => by
    cases object.payload <;> exact .ok trivial

/-- The class is among the ancestors of an object. -/
def Inherits (heap : Heap) (ancestor : Handle) : Prop :=
  ∃ handle object, heap.get? handle = some object ∧ ancestor ∈ object.payload.ancestors

theorem Inherits.holds {ancestor : Handle} (inherits : heap.Inherits ancestor)
    (closed : heap.Closed) : heap.Holds ancestor := by
  obtain ⟨handle, object, found, inside⟩ := inherits
  exact (closed.objects handle object found).payload ancestor (Payload.mentions_of_ancestors inside)

theorem Inherits.proper {ancestor : Handle} (inherits : heap.Inherits ancestor)
    (sound : heap.Sound) : heap.Proper ancestor := by
  obtain ⟨handle, object, found, inside⟩ := inherits
  exact (sound.objects handle object found).ancestors ancestor inside

theorem answers_ancestors (held : heap.Holds handle) :
    Answers (heap.ancestors handle) fun ancestors =>
      ∀ ancestor ∈ ancestors, ancestor = handle ∨ heap.Inherits ancestor :=
  (answers_read held).bind fun object found => by
    cases shape : object.payload with
    | classObject name ancestors =>
        refine .ok fun ancestor inside => .inr ⟨handle, object, found, ?_⟩
        rw [shape]
        exact inside
    | _ => exact .ok fun ancestor inside => .inl (List.mem_singleton.mp inside)

theorem answers_isA (closed : heap.Closed) {value parent : Handle} (held : heap.Holds value) :
    Answers (heap.isA value parent) fun _ => True :=
  (answers_read held).bind fun object found => by
    cases own : object.classHandle with
    | none => exact .ok trivial
    | some parent =>
        exact (answers_ancestors (closed.classHandle found own)).bind fun _ _ => .ok trivial

theorem answers_mergeAncestors {line roots inherited : List Handle}
    (held : ∀ ancestor ∈ inherited, heap.Holds ancestor) :
    Answers (heap.mergeAncestors line roots inherited) fun merged =>
      ∀ ancestor ∈ merged.1 ++ merged.2,
        ancestor ∈ line ++ roots ∨ ancestor ∈ inherited := by
  induction inherited generalizing line roots with
  | nil => exact .ok fun ancestor inside => .inl inside
  | cons first rest ih =>
      refine (answers_isRoot (held first List.mem_cons_self)).bind fun root _ => ?_
      have deeper {line₁ roots₁ : List Handle}
          (origin : ∀ ancestor ∈ line₁ ++ roots₁, ancestor ∈ line ++ roots ∨ ancestor = first) :
          Answers (heap.mergeAncestors line₁ roots₁ rest) fun merged =>
            ∀ ancestor ∈ merged.1 ++ merged.2,
              ancestor ∈ line ++ roots ∨ ancestor ∈ first :: rest := by
        refine (ih fun ancestor inside => held ancestor (List.mem_cons_of_mem first inside)).mono ?_
        intro merged known ancestor inside
        rcases known ancestor inside with earlier | later
        · rcases origin ancestor earlier with earlier | rfl
          · exact .inl earlier
          · exact .inr List.mem_cons_self
        · exact .inr (List.mem_cons_of_mem first later)
      split
      · exact deeper fun ancestor inside => .inl inside
      · split
        · refine deeper fun ancestor inside => ?_
          simp only [List.mem_append, List.mem_singleton] at inside ⊢
          grind
        · refine deeper fun ancestor inside => ?_
          simp only [List.mem_append, List.mem_singleton] at inside ⊢
          grind

theorem answers_mergeParents (closed : heap.Closed) {line roots parents : List Handle}
    (held : ∀ parent ∈ parents, heap.Holds parent) :
    Answers (heap.mergeParents line roots parents) fun merged =>
      ∀ ancestors, merged = some ancestors → ∀ ancestor ∈ ancestors,
        ancestor ∈ line ++ roots ∨ heap.Inherits ancestor := by
  induction parents generalizing line roots with
  | nil =>
      refine .ok fun ancestors same ancestor inside => .inl ?_
      cases same
      exact inside
  | cons parent rest ih =>
      refine (answers_read (held parent List.mem_cons_self)).bind fun object found => ?_
      have inherits {ancestor : Handle} (inside : ancestor ∈ object.payload.ancestors) :
          heap.Inherits ancestor := ⟨parent, object, found, inside⟩
      cases shape : object.payload with
      | classObject name inherited =>
          rw [shape] at inherits
          refine (answers_mergeAncestors fun ancestor inside =>
            (inherits inside).holds closed).bind fun merged origin => ?_
          refine (ih fun other inside => held other (List.mem_cons_of_mem parent inside)).mono ?_
          intro result known ancestors same ancestor inside
          rcases known ancestors same ancestor inside with earlier | inherited
          · exact (origin ancestor earlier).imp_right inherits
          · exact .inr inherited
      | _ => exact .ok fun ancestors same => nomatch same

/-- The ancestors of a new class are the class itself and ancestors of its parents. -/
theorem answers_lineage (closed : heap.Closed) {newClass : Handle} {parents : List Handle}
    (held : ∀ parent ∈ parents, heap.Holds parent) :
    Answers (heap.lineage newClass parents) fun lineage =>
      ∀ ancestors, lineage = some ancestors → ∀ ancestor ∈ ancestors,
        ancestor = newClass ∨ heap.Inherits ancestor :=
  (answers_mergeParents closed held).mono fun _ known ancestors same ancestor inside =>
    (known ancestors same ancestor inside).imp_left List.mem_singleton.mp

theorem answers_findInherited (closed : heap.Closed) (key : String) {ancestors : List Handle}
    (held : ∀ ancestor ∈ ancestors, heap.Holds ancestor) :
    Answers (heap.findInherited key ancestors) fun found =>
      ∀ owner property, found = some (owner, property) → heap.Stores owner key property := by
  induction ancestors with
  | nil => exact .ok fun owner property same => nomatch same
  | cons ancestor rest ih =>
      have later := ih fun other inside => held other (List.mem_cons_of_mem ancestor inside)
      refine (answers_read (held ancestor List.mem_cons_self)).bind fun object found => ?_
      split
      · rename_i prototype stored
        have present := (closed.objects ancestor object found).stored stored
        refine (answers_read present).bind fun holder known => ?_
        split
        · rename_i property owned
          refine .ok fun owner result same => ?_
          cases same
          exact ⟨holder, known, owned⟩
        · exact later
      · exact later

theorem answers_findProperty (closed : heap.Closed) (key : String) (held : heap.Holds handle) :
    Answers (heap.findProperty handle key) fun found =>
      ∀ owner property, found = some (owner, property) → heap.Stores owner key property := by
  refine (answers_read held).bind fun object found => ?_
  split
  · rename_i property owned
    refine .ok fun owner result same => ?_
    cases same
    exact ⟨object, found, owned⟩
  · cases own : object.classHandle with
    | none => exact .ok fun owner property same => nomatch same
    | some parent =>
        have present := closed.classHandle found own
        refine (answers_ancestors present).bind fun ancestors known => ?_
        refine answers_findInherited closed key fun ancestor inside => ?_
        rcases known ancestor inside with rfl | inherits
        · exact present
        · exact inherits.holds closed

theorem answers_messageOf (closed : heap.Closed) (held : heap.Holds handle) :
    Answers (heap.messageOf handle) fun _ => True := by
  refine (answers_read held).bind fun object found => ?_
  split
  · rename_i message stored
    have present := (closed.objects handle object found).stored stored
    exact (answers_read present).bind fun object _ => by
      cases object.payload <;> exact .ok trivial
  · exact .ok trivial

theorem answers_classOf (closed : heap.Closed) (held : heap.Holds handle) :
    Answers (heap.classOf handle) fun own => ∀ parent, own = some parent → heap.Holds parent :=
  (answers_read held).bind fun _ found => .ok fun _ own => closed.classHandle found own

theorem answers_className (held : heap.Holds handle) :
    Answers (heap.className handle) fun _ => True :=
  (answers_read held).bind fun object _ => by
    cases object.payload <;> exact .ok trivial

theorem answers_inspectPlain (closed : heap.Closed) (held : heap.Holds handle) :
    Answers (heap.inspectPlain handle) fun _ => True := by
  refine (answers_messageOf closed held).bind fun message _ => ?_
  cases message with
  | some message => exact .ok trivial
  | none =>
      refine (answers_classOf closed held).bind fun own present => ?_
      cases own with
      | none => exact .ok trivial
      | some parent => exact (answers_className (present parent rfl)).bind fun _ _ => .ok trivial

theorem answers_inspectWithin (closed : heap.Closed) {levels : Nat} (held : heap.Holds handle)
    (deep : handle.index < levels) : Answers (heap.inspectWithin levels handle) fun _ => True := by
  induction levels generalizing handle with
  | zero => omega
  | succ levels ih =>
      refine (answers_read held).bind fun object found => ?_
      have fits := closed.objects handle object found
      have inner (item : Handle) (inside : item ∈ object.payload.contents) :
          Answers (heap.inspectWithin levels item) fun _ => True :=
        ih (fits.contents inside).1 (by
          have older := fits.older item inside
          omega)
      cases shape : object.payload with
      | plain => exact answers_inspectPlain closed held
      | list items =>
          rw [shape] at inner
          exact (Answers.mapM inner).bind fun _ _ => .ok trivial
      | map pairs =>
          rw [shape] at inner
          exact (Answers.mapM inner).bind fun _ _ => .ok trivial
      | keyValue key value =>
          rw [shape] at inner
          exact (inner key List.mem_cons_self).bind fun _ _ =>
            (inner value (List.mem_cons_of_mem key List.mem_cons_self)).bind fun _ _ => .ok trivial
      | range start last exclusive =>
          rw [shape] at inner
          exact (inner start List.mem_cons_self).bind fun _ _ =>
            (inner last (List.mem_cons_of_mem start List.mem_cons_self)).bind fun _ _ => .ok trivial
      | _ => exact .ok trivial

/-- All levels beyond the age of a value lead to the same text: by induction on the levels, which the
older values inside never use up. -/
theorem inspectWithin_levels (closed : heap.Closed) {levels levels₁ : Nat}
    (deep : handle.index < levels) (deep₁ : handle.index < levels₁) :
    heap.inspectWithin levels₁ handle = heap.inspectWithin levels handle := by
  induction levels generalizing levels₁ handle with
  | zero => omega
  | succ levels ih =>
      obtain ⟨levels₁, rfl⟩ : ∃ fewer, levels₁ = fewer + 1 := ⟨levels₁ - 1, by omega⟩
      unfold inspectWithin
      cases found : heap.read handle with
      | error fault => rfl
      | ok object =>
          have fits := closed.objects handle object (get?_of_read found)
          have inner (item : Handle) (inside : item ∈ object.payload.contents) :
              heap.inspectWithin levels₁ item = heap.inspectWithin levels item := by
            have older := fits.older item inside
            exact ih (by omega) (by omega)
          obtain ⟨properties, payload⟩ := object
          cases payload with
          | list items =>
              change (items.mapM (heap.inspectWithin levels₁) >>= _) = _
              rw [Answers.mapM_congr items inner]
              rfl
          | map pairs =>
              change (pairs.mapM (heap.inspectWithin levels₁) >>= _) = _
              rw [Answers.mapM_congr pairs inner]
              rfl
          | keyValue key value =>
              change (heap.inspectWithin levels₁ key >>= _) = _
              rw [inner key List.mem_cons_self,
                inner value (List.mem_cons_of_mem key List.mem_cons_self)]
              rfl
          | range start last exclusive =>
              change (heap.inspectWithin levels₁ start >>= _) = _
              rw [inner start List.mem_cons_self,
                inner last (List.mem_cons_of_mem start List.mem_cons_self)]
              rfl
          | _ => rfl

theorem answers_inspect (closed : heap.Closed) (held : heap.Holds handle) :
    Answers (heap.inspect handle) fun _ => True :=
  answers_inspectWithin closed held (Nat.lt_succ_of_lt (holds_iff.mp held))

theorem answers_display (closed : heap.Closed) (held : heap.Holds handle) :
    Answers (heap.display handle) fun _ => True :=
  (answers_read held).bind fun object _ => by
    have inspected := answers_inspect closed held
    cases object.payload with
    | string value => exact .ok trivial
    | character value => exact .ok trivial
    | _ => exact inspected

theorem answers_allPairs {question : Handle → Handle → Except ReadFault Bool}
    {lefts rights : List Handle}
    (each : ∀ left ∈ lefts, ∀ right ∈ rights, Answers (question left right) fun _ => True) :
    Answers (allPairs question lefts rights) fun _ => True := by
  induction lefts generalizing rights with
  | nil => cases rights <;> exact .ok trivial
  | cons left lefts ih =>
      cases rights with
      | nil => exact .ok trivial
      | cons right rights =>
          refine (each left List.mem_cons_self right List.mem_cons_self).bind fun same _ => ?_
          split
          · exact ih fun left inside right matched =>
              each left (List.mem_cons_of_mem _ inside) right (List.mem_cons_of_mem _ matched)
          · exact .ok trivial

theorem answers_equalPayloads {equal : Handle → Handle → Except ReadFault Bool}
    {first second : Payload} (each : ∀ left ∈ first.contents, ∀ right ∈ second.contents,
      Answers (equal left right) fun _ => True) :
    Answers (equalPayloads equal first second) fun _ => True := by
  unfold equalPayloads
  split
  case h_10 =>
      split
      · exact answers_allPairs each
      · exact .ok trivial
  case h_11 =>
      split
      · exact answers_allPairs each
      · exact .ok trivial
  case h_12 =>
      refine (each _ List.mem_cons_self _ List.mem_cons_self).bind fun same _ => ?_
      split
      · exact each _ (List.mem_cons_of_mem _ List.mem_cons_self) _
          (List.mem_cons_of_mem _ List.mem_cons_self)
      · exact .ok trivial
  case h_13 =>
      split
      · exact .ok trivial
      · refine (each _ List.mem_cons_self _ List.mem_cons_self).bind fun same _ => ?_
        split
        · exact each _ (List.mem_cons_of_mem _ List.mem_cons_self) _
            (List.mem_cons_of_mem _ List.mem_cons_self)
        · exact .ok trivial
  all_goals exact .ok trivial

/-- By induction on the levels, which the older values inside the left one never use up. -/
theorem answers_equalWithin (closed : heap.Closed) {levels : Nat} (held : heap.Holds left)
    (present : heap.Holds right) (deep : left.index < levels) :
    Answers (heap.equalWithin levels left right) fun _ => True := by
  induction levels generalizing left right with
  | zero => omega
  | succ levels ih =>
      unfold equalWithin
      split
      · exact .ok trivial
      · refine (answers_read held).bind fun first found =>
          (answers_read present).bind fun second known => ?_
        refine answers_equalPayloads fun item inside other matched => ?_
        have older := (closed.objects left first found).contents inside
        have newer := (closed.objects right second known).contents matched
        exact ih older.1 newer.1 (by omega)

theorem answers_equal (closed : heap.Closed) (held : heap.Holds left) (present : heap.Holds right) :
    Answers (heap.equal left right) fun _ => True :=
  answers_equalWithin closed held present (Nat.lt_succ_of_lt (holds_iff.mp held))

theorem answers_matchParameters (closed : heap.Closed) {parameters : List Parameter}
    {arguments : List Handle} (held : ∀ value, .matcher value ∈ parameters → heap.Holds value)
    (given : ∀ argument ∈ arguments, heap.Holds argument) :
    Answers (heap.matchParameters parameters arguments) fun _ => True := by
  induction parameters generalizing arguments with
  | nil => cases arguments <;> exact .ok trivial
  | cons parameter rest ih =>
      cases arguments with
      | nil => cases parameter <;> exact .ok trivial
      | cons argument others =>
          have later := ih (fun value inside => held value (List.mem_cons_of_mem parameter inside))
            fun other inside => given other (List.mem_cons_of_mem argument inside)
          cases parameter with
          | binding name => exact later
          | matcher expected =>
              refine (answers_equal closed (held expected List.mem_cons_self)
                (given argument List.mem_cons_self)).bind fun same _ => ?_
              split
              · exact later.bind fun _ _ => .ok trivial
              · exact .ok trivial

/-- The better of the best overload so far and the next one is one of the two. -/
theorem fits_better {fits : Overload → Prop} (best : Option (Overload × Nat)) (overload : Overload)
    (literals : Option Nat) :
    let better := match literals, best with
      | none, _ => best
      | some literals, none => some (overload, literals)
      | some literals, some (_, most) => if most < literals then some (overload, literals) else best
    (∀ earlier count, best = some (earlier, count) → fits earlier) →
    (∀ count, literals = some count → fits overload) →
    ∀ chosen count, better = some (chosen, count) → fits chosen := by
  intro better earlier known chosen count same
  simp only [better] at same
  split at same
  · exact earlier chosen count same
  · cases same
    exact known _ rfl
  · split at same
    · cases same
      exact known _ rfl
    · exact earlier _ _ same

/-- The overload that is chosen is one of those given and takes as many arguments as there are. -/
theorem answers_selectOverload (closed : heap.Closed) {arguments : List Handle}
    {best : Option (Overload × Nat)} {overloads : List Overload} {fits : Overload → Prop}
    (given : ∀ argument ∈ arguments, heap.Holds argument)
    (compared : ∀ overload ∈ overloads, ∀ value, .matcher value ∈ overload.parameters →
      heap.Holds value)
    (earlier : ∀ overload literals, best = some (overload, literals) → fits overload)
    (fitting : ∀ overload ∈ overloads, overload.parameters.length = arguments.length →
      fits overload) :
    Answers (heap.selectOverload arguments best overloads) fun selected =>
      ∀ overload literals, selected = some (overload, literals) → fits overload := by
  induction overloads generalizing best with
  | nil => exact .ok earlier
  | cons overload rest ih =>
      have later (literals : Option Nat) (known : ∀ count, literals = some count → fits overload) :=
        ih (fun other inside => compared other (List.mem_cons_of_mem overload inside))
          (fits_better best overload literals earlier known)
          fun other inside => fitting other (List.mem_cons_of_mem overload inside)
      unfold selectOverload
      split
      · rename_i same
        exact (answers_matchParameters closed (compared overload List.mem_cons_self) given).bind
          fun literals _ => later literals fun _ _ => fitting overload List.mem_cons_self same
      · exact later none fun count same => nomatch same

end Heap

end RipInterpreter
