import RipInterpreter.Proofs.Machine.Laws

namespace RipInterpreter

variable {α β : Type}

/-- The step ended with a value or with an error without a place, and the loader is the one given. -/
inductive Outcome.Quiet (loader : Loader) : Outcome α → Prop
  | value {result : α} {after : World} (kept : after.loader = loader) :
    Quiet loader (.value result after)
  | failure {error : Error} {after : World} (unplaced : error.location = none)
    (kept : after.loader = loader) : Quiet loader (.failure error after)
  | halted (reason : Halt) : Quiet loader (.halted reason)

namespace Action

/-- The step raises nothing, places no error and keeps the loader. -/
def Quiet (action : Action α) : Prop := ∀ world, (action world).Quiet world.loader

theorem Quiet.bind {action : Action α} {continuation : α → Action β} (first : action.Quiet)
    (next : ∀ result, (continuation result).Quiet) : (action >>= continuation).Quiet := by
  intro world
  have ended := first world
  rw [bind_apply]
  generalize action world = outcome at ended ⊢
  cases ended with
  | value kept => exact kept ▸ next _ _
  | failure unplaced kept => exact .failure unplaced kept
  | halted reason => exact .halted reason

theorem Quiet.pure (result : α) : (pure result : Action α).Quiet := fun _ => .value rfl

theorem Quiet.unplaced {action : Action α} (quiet : action.Quiet) {world after : World}
    {error : Error} (failed : action world = .failure error after) : error.location = none := by
  have ended := quiet world
  rw [failed] at ended
  cases ended with
  | failure unplaced kept => exact unplaced

/-- To be quiet is a law of all that the machine does between two nodes. -/
theorem Quiet.law : Law Quiet where
  pure := .pure
  bind := .bind
  fail := fun unplaced _ => .failure unplaced rfl
  world := fun _ => .value rfl
  ask question := by
    intro world
    unfold Action.ask
    split
    · exact .value rfl
    · exact .failure rfl rfl
    · exact .halted _
  change update objects := by
    intro world
    obtain ⟨heap, resolverRuns, changed⟩ := objects world
    exact .value (by rw [changed])

theorem quiet_enter (scope : Scope) : (enter scope).Quiet := fun _ => .value rfl

theorem quiet_enterFrom (scope : Scope) (origin : String) : (enterFrom scope origin).Quiet :=
  fun _ => .value rfl

theorem quiet_bindName (scope : Scope) (name : String) (value : Handle) :
    (bindName scope name value).Quiet := by
  intro world
  unfold bindName
  split
  · exact .value rfl
  · exact .failure rfl rfl

theorem quiet_bindParameters (scope : Scope) (parameters : List Parameter)
    (arguments : List Handle) : (bindParameters scope parameters arguments).Quiet := by
  induction parameters generalizing arguments with
  | nil => exact .pure ()
  | cons parameter rest ih =>
      cases arguments with
      | nil => cases parameter <;> exact .pure ()
      | cons argument others =>
          cases parameter with
          | binding name => exact (quiet_bindName scope name argument).bind fun _ => ih others
          | matcher value => exact ih others

theorem quiet_caught (completion : Completion Handle) : (caught completion).Quiet := by
  unfold caught
  split
  · exact .pure _
  · exact (Quiet.law.newException _).bind fun _ => .pure _
  · exact .pure _

end Action

end RipInterpreter
