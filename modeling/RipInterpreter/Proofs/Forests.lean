import RipInterpreter.Proofs.Frames

/-!
Forests of frames, as any sequence of operations on scopes builds them. A binding shows in exactly
those scopes that come to its frame before any other frame with the name.
-/

namespace RipInterpreter

/-- What can be done with the scopes made so far, which go by their numbers. -/
inductive ScopeOperation (α : Type) where
  | root
  | child (scope : Nat)
  | childFrom (scope : Nat) (origin : String)
  | clone (scope : Nat)
  | bind (scope : Nat) (name : String) (value : α)

/-- The text that a frame is for by itself, and not because the frame around it is. -/
def ScopeOperation.text? {α : Type} : ScopeOperation α → Option String
  | .childFrom _ origin => some origin
  | _ => none

/-- A store of frames, the scopes that were made in it, and the operations that made its frames. -/
structure Forest (α : Type) where
  store : Frames α
  scopes : List Scope
  makers : List (ScopeOperation α)

namespace Forest

variable {α : Type} {forest : Forest α} {scope other : Scope}

def empty : Forest α := ⟨.empty, [], []⟩

/-- Adds a new scope with its frame. -/
def plant (forest : Forest α) (maker : ScopeOperation α) (made : Scope × Frames α) : Forest α :=
  ⟨made.2, forest.scopes ++ [made.1], forest.makers ++ [maker]⟩

/-- Does what is asked for. A name that cannot be bound changes nothing, nor does a scope that is
not there. -/
def perform (forest : Forest α) (operation : ScopeOperation α) : Forest α :=
  match operation with
  | .root => forest.plant operation forest.store.root
  | .child number =>
    match forest.scopes[number]? with
    | some scope => forest.plant operation (forest.store.child scope)
    | none => forest
  | .childFrom number origin =>
    match forest.scopes[number]? with
    | some scope => forest.plant operation (forest.store.childFrom scope origin)
    | none => forest
  | .clone number => { forest with scopes := forest.scopes ++ forest.scopes[number]?.toList }
  | .bind number name value =>
    match forest.scopes[number]? with
    | some scope =>
      match forest.store.bind scope name value with
      | .ok store => { forest with store := store }
      | .error _ => forest
    | none => forest

/-- The forest that operations build, one after the other. -/
def build (operations : List (ScopeOperation α)) : Forest α := operations.foldl perform empty

/-- The text that a frame was made for by itself. -/
def textAt (forest : Forest α) (number : Nat) : Option String :=
  (forest.makers[number]?).bind ScopeOperation.text?

end Forest

namespace Frames

variable {α : Type} {store changed : Frames α} {scope : Scope} {name : String} {value : α}

/-- Among the frames of a chain, the binding shows if its frame is there and none in front of it has
the name. -/
theorem findSome?_bind (bound : store.bind scope name value = .ok changed)
    (held : scope.own < store.frames.size) (chain : List Nat) (found : String) :
    (chain.findSome? fun number => (changed.bindingsOf number).get? found) =
      if found = name ∧ scope.own ∈ chain ∧ ∀ number ∈ chain.takeWhile (· != scope.own),
        (store.bindingsOf number).get? name = none
      then some value
      else chain.findSome? fun number => (store.bindingsOf number).get? found := by
  have own (found : String) : (changed.bindingsOf scope.own).get? found =
      if found = name then some value else (store.bindingsOf scope.own).get? found := by
    rw [bindingsOf_bind_own bound held, Table.get?_insert]
  by_cases same : found = name
  · subst same
    induction chain with
    | nil => simp
    | cons number rest ih =>
        by_cases here : number = scope.own
        · subst here
          simp [own]
        · have kept : changed.bindingsOf number = store.bindingsOf number :=
            bindingsOf_bind bound here
          rw [List.findSome?_cons, List.findSome?_cons, kept]
          cases stored : (store.bindingsOf number).get? found with
          | some earlier => simp [here, stored]
          | none => simp [ih, here, Ne.symm here, stored]
  · rw [if_neg fun met => same met.1]
    refine congrArg (chain.findSome? ·) (funext fun number => ?_)
    by_cases here : number = scope.own
    · rw [here, own, if_neg same]
    · rw [bindingsOf_bind bound here]

/-- What a scope looks up after a name was bound. -/
theorem lookup_bind (bound : store.bind scope name value = .ok changed)
    (held : scope.own < store.frames.size) (other : Scope) (found : String) :
    changed.lookup other found =
      if found = name ∧ scope.own ∈ other.chain ∧
        ∀ number ∈ other.chain.takeWhile (· != scope.own),
          (store.bindingsOf number).get? name = none
      then some value
      else store.lookup other found :=
  findSome?_bind bound held other.chain found

theorem bind_of_free (free : (store.bindingsOf scope.own).get? name = none) :
    ∃ changed, store.bind scope name value = .ok changed := by
  have own : store.hasOwn scope name = false := by rw [hasOwn, Table.contains, free]; rfl
  rw [bind, own]
  exact ⟨_, rfl⟩

theorem fault_of_bind {fault : CompilerFault}
    (refused : store.bind scope name value = .error fault) : fault = .alreadyDefined name := by
  unfold bind at refused
  split at refused
  · cases refused
    rfl
  · cases refused

/-- Both walks along a chain see the same names. -/
theorem mem_identifiers (store : Frames α) (scope : Scope) (name : String) :
    name ∈ store.identifiers scope ↔ (store.lookup scope name).isSome = true := by
  unfold identifiers lookup
  induction scope.chain with
  | nil => simp
  | cons number rest ih =>
      rw [List.foldr_cons, mem_mergeNames, ih, List.findSome?_cons, Table.mem_names_iff]
      cases (store.bindingsOf number).get? name <;> simp

theorem pairwise_identifiers (store : Frames α) (scope : Scope) :
    (store.identifiers scope).Pairwise (· < ·) := by
  unfold identifiers
  cases scope.chain with
  | nil => exact .nil
  | cons number rest => exact pairwise_mergeNames _ _

end Frames

namespace Forest

variable {α : Type} {forest : Forest α} {scope : Scope} {maker : ScopeOperation α}

/-- Every scope is a chain of frames of the store, and serves the text of the nearest frame that was
made for a text by itself. -/
structure Sound (forest : Forest α) : Prop where
  makers : forest.makers.length = forest.store.frames.size
  held : ∀ scope ∈ forest.scopes, ∀ number ∈ scope.chain, number < forest.store.frames.size
  serves : ∀ scope ∈ forest.scopes,
    forest.store.originOf scope = scope.chain.findSome? forest.textAt

theorem sound_empty : (empty : Forest α).Sound :=
  ⟨rfl, fun _ inside => (nomatch inside), fun _ inside => (nomatch inside)⟩

/-- The new frame serves its own text, or else that of the frames around it. -/
theorem Sound.plant {outer : List Nat} {origin : Option String} (sound : forest.Sound)
    (held : ∀ number ∈ outer, number < forest.store.frames.size)
    (serves : origin = maker.text?.or (outer.findSome? forest.textAt)) :
    (forest.plant maker (forest.store.enter outer origin)).Sound := by
  let after := forest.plant maker (forest.store.enter outer origin)
  have size : after.store.frames.size = forest.store.frames.size + 1 :=
    Frames.size_enter forest.store outer origin
  have own : after.textAt forest.store.frames.size = maker.text? := by
    simp [after, textAt, Forest.plant, ← sound.makers]
  -- The frames that were there keep their makers, since a new one comes last.
  have earlier {chain : List Nat} (inside : ∀ number ∈ chain, number < forest.store.frames.size) :
      chain.findSome? after.textAt = chain.findSome? forest.textAt := by
    induction chain with
    | nil => rfl
    | cons number rest ih =>
        obtain ⟨first, others⟩ := List.forall_mem_cons.mp inside
        have same : after.textAt number = forest.textAt number := by
          have known := sound.makers ▸ first
          simp only [after, textAt, Forest.plant, List.getElem?_append_left known]
        rw [List.findSome?_cons, List.findSome?_cons, same, ih others]
  refine ⟨?_, fun scope listed number inside => ?_, fun scope listed => ?_⟩
  · simp [Forest.plant, Frames.size_enter, sound.makers]
  · rcases List.mem_append.mp listed with old | new
    · exact Nat.lt_of_lt_of_eq (Nat.lt_succ_of_lt (sound.held scope old number inside)) size.symm
    · cases List.mem_singleton.mp new
      rcases List.mem_cons.mp inside with rfl | around
      · exact Nat.lt_of_lt_of_eq (Nat.lt_succ_self _) size.symm
      · exact Nat.lt_of_lt_of_eq (Nat.lt_succ_of_lt (held number around)) size.symm
  · rcases List.mem_append.mp listed with old | new
    · have known := sound.held scope old
      have kept : after.store.frame? scope.own = forest.store.frame? scope.own :=
        Frames.frame?_enter forest.store outer origin (known scope.own List.mem_cons_self)
      change after.store.originOf scope = scope.chain.findSome? after.textAt
      rw [earlier known, ← sound.serves scope old, Frames.originOf, kept, Frames.originOf]
    · cases List.mem_singleton.mp new
      calc (forest.store.enter outer origin).2.originOf (forest.store.enter outer origin).1
        _ = origin := Frames.originOf_enter_own outer origin
        _ = maker.text?.or (outer.findSome? after.textAt) := by rw [serves, earlier held]
        _ = (forest.store.frames.size :: outer).findSome? after.textAt := by
          rw [List.findSome?_cons, own]
          cases maker.text? <;> rfl

theorem Sound.bind {name : String} {value : α} {store : Frames α} (sound : forest.Sound)
    (bound : forest.store.bind scope name value = .ok store) :
    Sound { forest with store := store } where
  makers := sound.makers.trans (Frames.size_bind bound).symm
  held other listed number inside :=
    Nat.lt_of_lt_of_eq (sound.held other listed number inside) (Frames.size_bind bound).symm
  serves other listed := (Frames.originOf_bind bound).trans (sound.serves other listed)

theorem Sound.clone (sound : forest.Sound) (number : Nat) :
    Sound { forest with scopes := forest.scopes ++ forest.scopes[number]?.toList } := by
  have known {scope : Scope} (listed : scope ∈ forest.scopes ++ forest.scopes[number]?.toList) :
      scope ∈ forest.scopes := by
    rcases List.mem_append.mp listed with old | copied
    · exact old
    · exact List.mem_of_getElem? (Option.mem_toList.mp copied)
  exact ⟨sound.makers, fun scope listed => sound.held scope (known listed),
    fun scope listed => sound.serves scope (known listed)⟩

theorem Sound.perform (sound : forest.Sound) (operation : ScopeOperation α) :
    (forest.perform operation).Sound := by
  unfold Forest.perform
  cases operation with
  | root => exact sound.plant (List.forall_mem_nil _) rfl
  | clone number => exact sound.clone number
  | child number =>
      dsimp only
      split
      · rename_i scope found
        have listed := List.mem_of_getElem? found
        exact sound.plant (sound.held scope listed) (sound.serves scope listed)
      · exact sound
  | childFrom number origin =>
      dsimp only
      split
      · rename_i scope found
        exact sound.plant (sound.held scope (List.mem_of_getElem? found)) rfl
      · exact sound
  | bind number name value =>
      dsimp only
      split
      · split
        · rename_i store bound
          exact sound.bind bound
        · exact sound
      · exact sound

/-- By induction on the operations. -/
theorem sound_build (operations : List (ScopeOperation α)) : (build operations).Sound := by
  have further {forest : Forest α} (sound : forest.Sound) :
      (operations.foldl Forest.perform forest).Sound := by
    induction operations generalizing forest with
    | nil => exact sound
    | cons operation rest ih => exact ih (sound.perform operation)
  exact further sound_empty

/-- In every forest that scope operations build: a name can be bound in a scope exactly if the own
frame of the scope does not hold it, and otherwise nothing changes. Once it is bound, all scopes look
up what they did before, but that the name has its new value in those whose chain comes to the frame
before any other frame with the name. The identifiers of a scope are the names that it looks up, each
once, and its text is the one that the nearest of its frames was made for. -/
theorem scopes_share_frames (operations : List (ScopeOperation α)) :
    let forest := build operations
    (∀ number scope, forest.scopes[number]? = some scope → ∀ name value,
      ((∃ changed, forest.store.bind scope name value = .ok changed) ↔
        (forest.store.bindingsOf scope.own).get? name = none) ∧
      (∀ fault, forest.store.bind scope name value = .error fault →
        fault = .alreadyDefined name ∧ forest.perform (.bind number name value) = forest) ∧
      ∀ changed, forest.store.bind scope name value = .ok changed →
        forest.perform (.bind number name value) = { forest with store := changed } ∧
        ∀ other ∈ forest.scopes, ∀ found, changed.lookup other found =
          if found = name ∧ scope.own ∈ other.chain ∧
            ∀ frame ∈ other.chain.takeWhile (· != scope.own),
              (forest.store.bindingsOf frame).get? name = none
          then some value
          else forest.store.lookup other found) ∧
    ∀ scope ∈ forest.scopes,
      (∀ name, name ∈ forest.store.identifiers scope ↔
        ∃ value, forest.store.lookup scope name = some value) ∧
      (forest.store.identifiers scope).Pairwise (· < ·) ∧
      forest.store.originOf scope = scope.chain.findSome? forest.textAt := by
  intro forest
  have sound : forest.Sound := sound_build operations
  refine ⟨fun number scope found name value => ⟨⟨?_, Frames.bind_of_free⟩, ?_, ?_⟩,
    fun scope listed => ⟨fun name => ?_, Frames.pairwise_identifiers _ _, sound.serves scope listed⟩⟩
  · rintro ⟨changed, bound⟩
    exact Frames.free_of_bind bound
  · intro fault refused
    refine ⟨Frames.fault_of_bind refused, ?_⟩
    simp only [Forest.perform, found, refused]
  · intro changed bound
    have held := sound.held scope (List.mem_of_getElem? found) scope.own List.mem_cons_self
    refine ⟨?_, fun other _ name => Frames.lookup_bind bound held other name⟩
    simp only [Forest.perform, found, bound]
  · rw [Frames.mem_identifiers, Option.isSome_iff_exists]

/-- A name that is bound through a clone shows in the frames inside its frame, in front of an outer
binding. -/
theorem scopes_share_frames_with_clone :
    let forest : Forest Nat := build
      [.root, .bind 0 "a" 1, .child 0, .clone 1, .childFrom 1 "lib", .child 3]
    let clone : Scope := ⟨1, [0]⟩
    let inner : Scope := ⟨3, [2, 1, 0]⟩
    forest.scopes[2]? = some clone ∧ inner ∈ forest.scopes ∧
    ∃ changed, forest.store.bind clone "a" 2 = .ok changed ∧
      changed.lookup inner "a" = some 2 ∧ changed.lookup ⟨0, []⟩ "a" = some 1 ∧
      forest.store.originOf inner = some "lib" := by
  intro forest clone inner
  have found : forest.scopes[2]? = some clone := by decide +kernel
  have listed : inner ∈ forest.scopes := by decide +kernel
  have root : (⟨0, []⟩ : Scope) ∈ forest.scopes := by decide +kernel
  obtain ⟨binding, scopes⟩ := scopes_share_frames
    [.root, .bind 0 "a" 1, .child 0, .clone 1, .childFrom 1 "lib", .child 3]
  obtain ⟨free, -, shown⟩ := binding 2 clone found "a" 2
  obtain ⟨changed, bound⟩ := free.mpr (by decide +kernel)
  obtain ⟨-, looksUp⟩ := shown changed bound
  refine ⟨found, listed, changed, bound, ?_, ?_, ?_⟩
  · rw [looksUp inner listed "a", if_pos (by decide +kernel)]
  · rw [looksUp ⟨0, []⟩ root "a", if_neg (by decide +kernel)]
    decide +kernel
  · rw [(scopes inner listed).2.2]
    decide +kernel

end Forest

end RipInterpreter
