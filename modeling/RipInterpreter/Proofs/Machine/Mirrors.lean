import RipInterpreter.Proofs.Machine.Bare
import RipInterpreter.Proofs.Machine.Steps

/-!
Runs beside bare runs. `Action.Mirrors` says that a step, taken in the bare form of a state, has the
bare form of the outcome that another one has in the state itself. A bare run has no comments to
evaluate, and the two may be allowed different depths, so that one of them may be halted before the
other; `Side` says which.
-/

namespace RipInterpreter

variable {α α₁ β β₁ γ : Type}

/-- Of a run and its bare form, the one that may be halted where the other goes on. -/
inductive Side where
  | full
  | bare

/-- The bare form of a state, whose loader finds bare modules. -/
def World.stripped (world : World) : World := { world.bare with loader := world.loader.bare }

/-- The second outcome is the bare form of the first, and the loader is still the one given. -/
inductive Outcome.Mirrors (side : Side) (image : α → β) (loader : Loader) :
    Outcome α → Outcome β → Prop
  | value {result : α} {after : World} (kept : after.loader = loader) :
    Mirrors side image loader (.value result after) (.value (image result) after.stripped)
  | signal {raised : Signal} {after : World} (kept : after.loader = loader) :
    Mirrors side image loader (.signal raised after) (.signal raised.bare after.stripped)
  | failure {error : Error} {after : World} (kept : after.loader = loader) :
    Mirrors side image loader (.failure error after) (.failure error.bare after.stripped)
  | cut {reason : Halt} {outcome : Outcome β} (earlier : side = .full) :
    Mirrors side image loader (.halted reason) outcome
  | cutBare {outcome : Outcome α} {reason : Halt} (earlier : side = .bare) :
    Mirrors side image loader outcome (.halted reason)

theorem Outcome.Mirrors.halted {side : Side} {image : α → β} {loader : Loader}
    (reason reason₁ : Halt) : Mirrors side image loader (.halted reason) (.halted reason₁) := by
  cases side with
  | full => exact .cut rfl
  | bare => exact .cutBare rfl

namespace Action

/-- The second step does in the bare form of any state what the first one does in the state. -/
def Mirrors (side : Side) (image : α → β) (action : Action α) (action₁ : Action β) : Prop :=
  ∀ world, (action world).Mirrors side image world.loader (action₁ world.stripped)

/-- The step does the same in the bare form of any state: it does not look at bodies or places. -/
def Blind (side : Side) (action : Action α) : Prop := action.Mirrors side id action

variable {side : Side}

theorem Mirrors.bind {action : Action α} {action₁ : Action α₁} {continuation : α → Action β}
    {continuation₁ : α₁ → Action β₁} {image : α → α₁} {image₁ : β → β₁}
    (before : action.Mirrors side image action₁)
    (next : ∀ result, (continuation result).Mirrors side image₁ (continuation₁ (image result))) :
    (action >>= continuation).Mirrors side image₁ (action₁ >>= continuation₁) := by
  intro world
  have first := before world
  rw [bind_apply, bind_apply]
  generalize action world = outcome, action₁ world.stripped = outcome₁ at first ⊢
  cases first with
  | value kept => exact kept ▸ next _ _
  | signal kept => exact .signal kept
  | failure kept => exact .failure kept
  | cut earlier => exact .cut earlier
  | cutBare earlier => exact .cutBare earlier

theorem Blind.bind {action : Action α} {continuation : α → Action β} (before : action.Blind side)
    (next : ∀ result, (continuation result).Blind side) : (action >>= continuation).Blind side :=
  Mirrors.bind before next

theorem Mirrors.pure (image : α → β) (result : α) :
    (pure result : Action α).Mirrors side image (pure (image result)) := fun _ => .value rfl

theorem Blind.pure (result : α) : (pure result : Action α).Blind side := Mirrors.pure id result

theorem Mirrors.fail (image : α → β) (error : Error) :
    (fail error : Action α).Mirrors side image (fail error.bare) := fun _ => .failure rfl

theorem Mirrors.fault (image : α → β) (reason : RuntimeFault) :
    (fault reason : Action α).Mirrors side image (fault reason) := fun _ => .failure rfl

theorem Blind.fault (reason : RuntimeFault) : (fault reason : Action α).Blind side :=
  Mirrors.fault id reason

theorem Mirrors.raise (image : α → β) (raised : Signal) :
    (raise raised : Action α).Mirrors side image (raise raised.bare) := fun _ => .signal rfl

theorem Mirrors.halt (image : α → β) (reason reason₁ : Halt) :
    (halt reason : Action α).Mirrors side image (halt reason₁) := fun _ => .halted reason reason₁

theorem Mirrors.world : Action.world.Mirrors side World.stripped Action.world := fun _ => .value rfl

theorem Mirrors.change {update update₁ : World → World}
    (same : ∀ world, update₁ world.stripped = (update world).stripped)
    (kept : ∀ world, (update world).loader = world.loader) :
    (change update).Mirrors side id (change update₁) := fun world => by
  unfold Action.change
  rw [same]
  exact .value (kept world)

theorem Mirrors.ask {question : Heap → Except ReadFault α} {question₁ : Heap → Except ReadFault β}
    {image : α → β} (same : ∀ heap, question₁ heap.bare = (question heap).map image) :
    (ask question).Mirrors side image (ask question₁) := fun world => by
  unfold Action.ask
  have asked : question₁ world.stripped.heap = (question world.heap).map image := same world.heap
  rw [asked]
  cases question world.heap with
  | ok result => exact .value rfl
  | error fault =>
      cases fault with
      | dangling handle => exact .failure rfl
      | tooDeep => exact .halted _ _

theorem Blind.ask {question : Heap → Except ReadFault α}
    (same : ∀ heap, question heap.bare = question heap) : (ask question).Blind side :=
  Mirrors.ask fun heap => by
    rw [same]
    cases question heap <;> rfl

theorem Mirrors.locate {action : Action α} {action₁ : Action β} {image : α → β}
    (mirrors : action.Mirrors side image action₁) (place : Location) :
    (locate place action).Mirrors side image (locate place.bare action₁) := fun world => by
  have inner := mirrors world
  unfold Action.locate
  generalize action world = outcome, action₁ world.stripped = outcome₁ at inner ⊢
  cases inner with
  | value kept => exact .value kept
  | signal kept => exact .signal kept
  | @failure error after kept =>
      change Outcome.Mirrors _ _ _ _ (.failure (error.bare.locate place.bare) after.stripped)
      rw [← Error.bare_locate]
      exact .failure kept
  | cut earlier => exact .cut earlier
  | cutBare earlier => exact .cutBare earlier

theorem Mirrors.settle {action action₁ : Action α} (mirrors : action.Mirrors side id action₁) :
    (settle action).Mirrors side Completion.bare (settle action₁) := fun world => by
  have inner := mirrors world
  unfold Action.settle
  generalize action world = outcome, action₁ world.stripped = outcome₁ at inner ⊢
  cases inner with
  | value kept => exact .value kept
  | signal kept => exact .value kept
  | failure kept => exact .value kept
  | cut earlier => exact .cut earlier
  | cutBare earlier => exact .cutBare earlier

theorem Mirrors.resume (completion : Completion α) :
    completion.resume.Mirrors side id completion.bare.resume := by
  cases completion with
  | value result => exact .pure id result
  | signal raised => exact .raise id raised
  | failure error => exact .fail id error

theorem Mirrors.catchReturned {action action₁ : Action Handle}
    (mirrors : action.Mirrors side id action₁) :
    (catchReturned action).Mirrors side id (catchReturned action₁) := fun world => by
  have inner := mirrors world
  unfold Action.catchReturned
  generalize action world = outcome, action₁ world.stripped = outcome₁ at inner ⊢
  cases inner with
  | value kept => exact .value kept
  | @signal raised _ kept =>
      cases raised with
      | returned value => exact .value kept
      | thrown value place => exact .signal kept
      | exited value => exact .signal kept
  | failure kept => exact .failure kept
  | cut earlier => exact .cut earlier
  | cutBare earlier => exact .cutBare earlier

theorem Mirrors.mapM {visit : α → Action β} {visit₁ : α₁ → Action β₁} {shape : α → α₁}
    {image : β → β₁} (each : ∀ item, (visit item).Mirrors side image (visit₁ (shape item)))
    (items : List α) :
    (items.mapM visit).Mirrors side (List.map image) ((items.map shape).mapM visit₁) := by
  induction items with
  | nil => exact .pure (List.map image) []
  | cons item rest ih =>
      rw [List.map_cons, List.mapM_cons, List.mapM_cons]
      exact .bind (each item) fun result => .bind ih fun results =>
        .pure (List.map image) (result :: results)

/-- The values that the visits give need no change. -/
theorem Mirrors.mapM_id {visit : α → Action β} {visit₁ : α₁ → Action β} {shape : α → α₁}
    (each : ∀ item, (visit item).Mirrors side id (visit₁ (shape item))) (items : List α) :
    (items.mapM visit).Mirrors side id ((items.map shape).mapM visit₁) := by
  have mapped := Mirrors.mapM each items
  rwa [List.map_id_fun] at mapped

theorem Blind.mapM {visit : α → Action β} (each : ∀ item, (visit item).Blind side)
    (items : List α) : (items.mapM visit).Blind side := by
  have alike (item : α) : (visit item).Mirrors side id (visit (id item)) := each item
  have mapped := Mirrors.mapM_id alike items
  rwa [List.map_id] at mapped

theorem mirrors_allocate (object : Object) :
    (allocate object).Mirrors side id (allocate object.bare) := fun world => by
  have same : allocate object.bare world.stripped =
      .value world.heap.next { world with heap := (world.heap.add object).2 }.stripped := by
    change Outcome.value world.heap.bare.next
      { world.stripped with heap := (world.heap.bare.add object.bare).2 } = _
    rw [Heap.next_bare, Heap.bare_add]
    rfl
  rw [same]
  exact .value rfl

theorem Blind.modify (handle : Handle) {update : Object → Object}
    (same : ∀ object, update object.bare = (update object).bare) :
    (change fun world => { world with heap := world.heap.modify handle update }).Blind side :=
  Mirrors.change (fun world => congrArg (fun heap => { world.stripped with heap := heap })
    (Heap.bare_modify world.heap handle same)) fun _ => rfl

theorem mirrors_read (handle : Handle) :
    (ask fun heap => heap.read handle).Mirrors side Object.bare
      (ask fun heap => heap.read handle) :=
  .ask fun heap => heap.read_bare handle

theorem blind_setProperty (object : Handle) (key : String) (property : Property) :
    (setProperty object key property).Blind side :=
  Mirrors.bind (mirrors_read object) fun _ => Blind.modify object fun _ => rfl

theorem blind_set (object : Handle) (key : String) (value : Handle) :
    (set object key value).Blind side := blind_setProperty object key (.plain value)

theorem blind_newInteger (value : Int) : (newInteger value).Blind side := mirrors_allocate _

theorem blind_newDecimal (value : Float) : (newDecimal value).Blind side := mirrors_allocate _

theorem blind_newCharacter (value : Char) : (newCharacter value).Blind side := mirrors_allocate _

theorem blind_newString (value : String) : (newString value).Blind side := mirrors_allocate _

theorem blind_newRegularExpression (pattern : String) :
    (newRegularExpression pattern).Blind side := mirrors_allocate _

theorem blind_newList (items : List Handle) : (newList items).Blind side := mirrors_allocate _

theorem blind_newMap (pairs : List Handle) : (newMap pairs).Blind side := mirrors_allocate _

theorem blind_newKeyValue (key value : Handle) : (newKeyValue key value).Blind side := by
  have made : (newInstance .keyValue (.keyValue key value)).Blind side := mirrors_allocate _
  exact made.bind fun pair => (blind_set pair "key" key).bind fun _ =>
    (blind_set pair "value" value).bind fun _ => .pure pair

theorem blind_newRange (start last : Handle) (exclusive : Bool) :
    (newRange start last exclusive).Blind side := by
  have made : (newInstance .range (.range start last exclusive)).Blind side := mirrors_allocate _
  exact made.bind fun range => (blind_set range "start" start).bind fun _ =>
    (blind_set range "end" last).bind fun _ =>
      (blind_set range "exclusive" (.ofBool exclusive)).bind fun _ => .pure range

theorem mirrors_newLambda (closure : Scope) (overloads : List Overload) :
    (newLambda closure overloads).Mirrors side id
      (newLambda closure (overloads.map Overload.bare)) := mirrors_allocate _

theorem blind_newException (message : String) : (newException message).Blind side := by
  have made : (newInstance .exception .plain).Blind side := mirrors_allocate _
  exact made.bind fun exception => (blind_newString message).bind fun text =>
    (blind_set exception "message" text).bind fun _ => .pure exception

theorem blind_newClass (name : Option String) (parents : List Handle) :
    (newClass name parents).Blind side := by
  have prototype : (allocate ⟨.empty, .plain⟩).Blind side := mirrors_allocate _
  refine prototype.bind fun prototype => Mirrors.bind .world fun state => ?_
  have own : state.stripped.heap.next = state.heap.next := state.heap.next_bare
  rw [own]
  refine Blind.bind (.ask fun heap => Heap.lineage_bare) fun lineage => ?_
  cases lineage with
  | none => exact .fault _
  | some ancestors => exact mirrors_allocate _

theorem blind_nameClass (object : Handle) (name : String) : (nameClass object name).Blind side :=
  Mirrors.bind (mirrors_read object) fun _ => Blind.modify object fun ⟨_, payload⟩ => by
    cases payload with
    | classObject known ancestors => cases known <;> rfl
    | _ => rfl

theorem blind_enter (scope : Scope) : (enter scope).Blind side := fun _ => .value rfl

theorem blind_enterFrom (scope : Scope) (origin : String) : (enterFrom scope origin).Blind side :=
  fun _ => .value rfl

theorem blind_bindName (scope : Scope) (name : String) (value : Handle) :
    (bindName scope name value).Blind side := fun world => by
  unfold bindName
  have frames : world.stripped.frames = world.frames := rfl
  rw [frames]
  cases world.frames.bind scope name value with
  | ok frames => exact .value rfl
  | error fault => exact .failure rfl

end Action

end RipInterpreter
