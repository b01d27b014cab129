import RipInterpreter.Scope

namespace RipInterpreter.Frames

variable {α : Type} {store before middle after : Frames α} {own : Nat} {new : String → Prop}

/-- Every frame of `before` is the same in `after`. -/
structure Preserved (before after : Frames α) : Prop where
  size : before.frames.size ≤ after.frames.size
  same : ∀ number < before.frames.size, after.frame? number = before.frame? number

/-- Every frame of `before` but `own` is the same in `after`, and `own` holds all its bindings and
besides at most some of `new` names. -/
structure Extended (own : Nat) (new : String → Prop) (before after : Frames α) : Prop where
  size : before.frames.size ≤ after.frames.size
  others : ∀ number < before.frames.size, number ≠ own →
    after.frame? number = before.frame? number
  kept : ∀ name value, (before.bindingsOf own).get? name = some value →
    (after.bindingsOf own).get? name = some value
  gained : ∀ name value, (after.bindingsOf own).get? name = some value →
    (before.bindingsOf own).get? name = some value ∨ new name

theorem Preserved.refl (store : Frames α) : store.Preserved store :=
  ⟨Nat.le_refl _, fun _ _ => rfl⟩

theorem Preserved.trans (first : before.Preserved middle) (second : middle.Preserved after) :
    before.Preserved after where
  size := Nat.le_trans first.size second.size
  same number bound :=
    (second.same number (Nat.lt_of_lt_of_le bound first.size)).trans (first.same number bound)

theorem Extended.refl (own : Nat) (new : String → Prop) (store : Frames α) :
    store.Extended own new store where
  size := Nat.le_refl _
  others _ _ _ := rfl
  kept _ _ held := held
  gained _ _ held := .inl held

theorem Extended.mono {wider : String → Prop} (extended : before.Extended own new after)
    (included : ∀ name, new name → wider name) : before.Extended own wider after :=
  { extended with
    gained := fun name value held => (extended.gained name value held).imp_right (included name) }

theorem Extended.trans (first : before.Extended own new middle)
    (second : middle.Extended own new after) : before.Extended own new after where
  size := Nat.le_trans first.size second.size
  others number bound other :=
    (second.others number (Nat.lt_of_lt_of_le bound first.size) other).trans
      (first.others number bound other)
  kept name value held := second.kept name value (first.kept name value held)
  gained name value held := by
    rcases second.gained name value held with earlier | fresh
    · exact first.gained name value earlier
    · exact .inr fresh

/-- Where every frame is kept, so is the own one. -/
theorem Preserved.extended (preserved : before.Preserved after) (held : own < before.frames.size) :
    before.Extended own new after where
  size := preserved.size
  others number bound _ := preserved.same number bound
  kept name value found := by
    rwa [bindingsOf, preserved.same own held]
  gained name value found := by
    rw [bindingsOf, preserved.same own held] at found
    exact .inl found

theorem frame?_enter (store : Frames α) (outer : List Nat) (origin : Option String) {number : Nat}
    (held : number < store.frames.size) :
    (store.enter outer origin).2.frame? number = store.frame? number := by
  simp [enter, frame?, Array.getElem?_push, Nat.ne_of_lt held]

theorem size_enter (store : Frames α) (outer : List Nat) (origin : Option String) :
    (store.enter outer origin).2.frames.size = store.frames.size + 1 := by
  simp [enter]

/-- What happens in a new frame alone leaves all earlier frames as they were. -/
theorem preserved_of_fresh (outer : List Nat) (origin : Option String)
    (extended : (store.enter outer origin).2.Extended store.frames.size new after) :
    store.Preserved after where
  size := by
    have grown := extended.size
    rw [size_enter] at grown
    omega
  same number held := by
    have inside : number < (store.enter outer origin).2.frames.size := by
      rw [size_enter]
      omega
    rw [extended.others number inside (Nat.ne_of_lt held), frame?_enter store outer origin held]

theorem free_of_bind {scope : Scope} {name : String} {value : α}
    (bound : store.bind scope name value = .ok after) :
    (store.bindingsOf scope.own).get? name = none := by
  have succeeded := isOk_bind store scope name value
  rw [bound] at succeeded
  have free : store.hasOwn scope name = false := by
    simpa [Except.isOk, Except.toBool] using succeeded.symm
  simpa [hasOwn, Table.contains] using free

theorem size_bind {scope : Scope} {name : String} {value : α}
    (bound : store.bind scope name value = .ok after) :
    after.frames.size = store.frames.size := by
  unfold bind at bound
  split at bound
  · cases bound
  · cases bound
    simp

theorem frame?_bind {scope : Scope} {name : String} {value : α}
    (bound : store.bind scope name value = .ok after) (number : Nat) :
    after.frame? number = if number = scope.own then (store.frame? number).map fun frame =>
      { frame with bindings := frame.bindings.insert name value } else store.frame? number := by
  unfold bind at bound
  split at bound
  · cases bound
  · cases bound
    by_cases own : number = scope.own
    · subst own
      simp [frame?, Array.getElem?_modify]
    · simp [frame?, Array.getElem?_modify, own, Ne.symm own]

theorem bindingsOf_bind_own {scope : Scope} {name : String} {value : α}
    (bound : store.bind scope name value = .ok after) (held : scope.own < store.frames.size) :
    after.bindingsOf scope.own = (store.bindingsOf scope.own).insert name value := by
  have inside : store.frame? scope.own = some store.frames[scope.own] :=
    Array.getElem?_eq_getElem held
  rw [bindingsOf, frame?_bind bound, if_pos rfl, bindingsOf, inside]
  rfl

theorem bound_or_held {scope : Scope} {name found : String} {value present : α} {number : Nat}
    (bound : store.bind scope name value = .ok after)
    (stored : (after.bindingsOf number).get? found = some present) :
    present = value ∨ (store.bindingsOf number).get? found = some present := by
  by_cases own : number = scope.own
  · subst own
    by_cases held : scope.own < store.frames.size
    · rw [bindingsOf_bind_own bound held, Table.get?_insert] at stored
      split at stored
      · exact .inl (Option.some.inj stored).symm
      · exact .inr stored
    · have outside : after.frame? scope.own = none := by
        simp [frame?, size_bind bound, Nat.le_of_not_lt held]
      rw [bindingsOf, outside] at stored
      cases stored
  · rw [bindingsOf_bind bound own] at stored
    exact .inr stored

/-- Binding a name adds it to the innermost frame, which did not hold it. -/
theorem extended_bind {scope : Scope} {name : String} {value : α}
    (bound : store.bind scope name value = .ok after) (held : scope.own < store.frames.size) :
    store.Extended scope.own (· = name) after where
  size := Nat.le_of_eq (size_bind bound).symm
  others number _ other := by
    rw [frame?_bind bound, if_neg other]
  kept found present stored := by
    have distinct : found ≠ name := by
      rintro rfl
      rw [free_of_bind bound] at stored
      cases stored
    rw [bindingsOf_bind_own bound held, Table.get?_insert, if_neg distinct]
    exact stored
  gained found present stored := by
    rw [bindingsOf_bind_own bound held, Table.get?_insert] at stored
    split at stored
    · exact .inr ‹_›
    · exact .inl stored

/-- A new frame can bind any name, and then binds nothing else. -/
theorem bind_child {scope inner : Scope} (name : String) (value : α)
    (entered : store.child scope = (inner, after)) :
    ∃ last, after.bind inner name value = .ok last ∧ store.frame? inner.own = none ∧
      inner.outer = scope.chain ∧
      last.frame? inner.own = some ⟨Table.empty.insert name value, store.originOf scope⟩ ∧
      ∀ number, number ≠ inner.own → last.frame? number = store.frame? number := by
  cases entered
  have fresh : store.frame? store.frames.size = none := by simp [frame?]
  have made : (store.child scope).2.frame? store.frames.size =
      some ⟨.empty, store.originOf scope⟩ := by simp [frame?, child, enter]
  have free : (store.child scope).2.hasOwn (store.child scope).1 name = false := by
    change ((store.child scope).2.bindingsOf store.frames.size).contains name = false
    rw [bindingsOf, made]
    rfl
  obtain ⟨last, bound⟩ : ∃ last, (store.child scope).2.bind (store.child scope).1 name value =
      .ok last := ⟨_, by rw [bind, free]; rfl⟩
  refine ⟨last, bound, fresh, rfl, ?_, fun number other => ?_⟩
  · rw [frame?_bind bound]
    exact (if_pos rfl).trans (congrArg _ made)
  · rw [frame?_bind bound]
    refine (if_neg other).trans ?_
    have apart : number ≠ store.frames.size := other
    simp [frame?, child, enter, Array.getElem?_push, apart]

variable {scope other : Scope} {origin : String}

theorem originOf_enter_own (outer : List Nat) (origin : Option String) :
    (store.enter outer origin).2.originOf (store.enter outer origin).1 = origin := by
  simp [originOf, enter, frame?]

theorem originOf_enter (outer : List Nat) (text : Option String)
    (serves : store.originOf scope = some origin) :
    (store.enter outer text).2.originOf scope = some origin := by
  have held : scope.own < store.frames.size := by
    rcases Nat.lt_or_ge scope.own store.frames.size with held | beyond
    · exact held
    · have missing : store.frame? scope.own = none := Array.getElem?_eq_none beyond
      rw [originOf, missing] at serves
      cases serves
  rw [originOf, frame?_enter store outer text held]
  exact serves

theorem originOf_bind {name : String} {value : α} (bound : store.bind other name value = .ok after) :
    after.originOf scope = store.originOf scope := by
  unfold bind at bound
  split at bound
  · cases bound
  · cases bound
    by_cases same : other.own = scope.own
    · cases known : store.frames[scope.own]? <;>
        simp [originOf, frame?, Array.getElem?_modify, same, known]
    · simp [originOf, frame?, Array.getElem?_modify, same]

end RipInterpreter.Frames
