import RipInterpreter.Proofs.Machine.Laws

namespace RipInterpreter

/-- The two states differ in their objects and in the number of resolver runs at most. -/
structure World.SameOutside (world after : World) : Prop where
  frames : after.frames = world.frames
  loader : after.loader = world.loader
  searchPaths : after.searchPaths = world.searchPaths
  loaded : after.loaded = world.loaded
  loading : after.loading = world.loading
  requests : after.requests = world.requests

theorem World.SameOutside.refl (world : World) : world.SameOutside world :=
  ⟨rfl, rfl, rfl, rfl, rfl, rfl⟩

theorem World.SameOutside.trans {world middle after : World}
    (first : world.SameOutside middle) (second : middle.SameOutside after) :
    world.SameOutside after :=
  ⟨second.frames.trans first.frames, second.loader.trans first.loader,
    second.searchPaths.trans first.searchPaths, second.loaded.trans first.loaded,
    second.loading.trans first.loading, second.requests.trans first.requests⟩

namespace Action

variable {α β : Type}

/-- The step changes objects only. -/
def ObjectsOnly (action : Action α) : Prop := action.Relates World.SameOutside

namespace ObjectsOnly

variable {action : Action α} {continuation : α → Action β}

theorem bind (first : action.ObjectsOnly) (next : ∀ result, (continuation result).ObjectsOnly) :
    (action >>= continuation).ObjectsOnly :=
  Relates.bind first next (fun _ _ same => same) fun _ _ _ => .trans

theorem pure (result : α) : (pure result : Action α).ObjectsOnly :=
  Relates.pure World.SameOutside.refl result

theorem fail (error : Error) : (fail error : Action α).ObjectsOnly :=
  Relates.fail World.SameOutside.refl error

theorem fault (reason : RuntimeFault) : (fault reason : Action α).ObjectsOnly :=
  Relates.fail World.SameOutside.refl _

theorem world : Action.world.ObjectsOnly := Relates.world World.SameOutside.refl

theorem ask (question : Heap → Except ReadFault α) : (ask question).ObjectsOnly :=
  Relates.ask World.SameOutside.refl question

end ObjectsOnly

/-- To change objects only is a law of all that the machine does between two nodes. -/
theorem ObjectsOnly.law : Law ObjectsOnly where
  pure := .pure
  bind := .bind
  fail := fun _ => .fail _
  world := .world
  ask := .ask
  change update objects := Relates.change update fun world => by
    obtain ⟨heap, resolverRuns, changed⟩ := objects world
    rw [changed]
    exact ⟨rfl, rfl, rfl, rfl, rfl, rfl⟩

theorem objectsOnly_uncaught (value : Handle) (place : Location) :
    (uncaught value place : Action α).ObjectsOnly :=
  (ObjectsOnly.ask _).bind fun message => by
    cases message with
    | some message => exact .fail _
    | none => exact (ObjectsOnly.ask _).bind fun _ => .fail _

theorem objectsOnly_accepts (scope : Scope) (matcher : Syntax.Name) (value : Handle) :
    (accepts scope matcher value).ObjectsOnly := by
  refine ObjectsOnly.world.bind fun world => ?_
  split
  · exact .fail _
  · refine (ObjectsOnly.ask _).bind fun isClass => ?_
    split
    · exact .ask _
    · exact .ask _

theorem objectsOnly_findHandler (scope : Scope) (value : Handle) (handlers : List Syntax.Handler) :
    (findHandler scope value handlers).ObjectsOnly := by
  induction handlers with
  | nil => exact .pure _
  | cons handler rest ih =>
      have decided (taken : Bool) : (if taken = true then (pure (some handler) : Action _)
          else findHandler scope value rest).ObjectsOnly := by
        cases taken with
        | true => exact .pure _
        | false => exact ih
      unfold findHandler
      cases handler.matcher with
      | none => exact decided true
      | some matcher => exact (objectsOnly_accepts scope matcher value).bind decided

theorem objectsOnly_caught (completion : Completion Handle) : (caught completion).ObjectsOnly := by
  unfold caught
  split
  · exact .pure _
  · exact (ObjectsOnly.law.newException _).bind fun _ => .pure _
  · exact .pure _

end Action

end RipInterpreter
