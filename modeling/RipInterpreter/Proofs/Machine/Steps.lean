import RipInterpreter.Machine.World

namespace RipInterpreter

variable {α β : Type}

theorem Error.locate_locate (error : Error) (inner outer : Location) :
    (error.locate inner).locate outer = error.locate inner := by
  cases error with
  | compiler fault place => cases place <;> rfl
  | runtime fault place => cases place <;> rfl
  | _ => rfl

/-- The state that a step leaves behind, unless it was halted. -/
def Outcome.world? : Outcome α → Option World
  | .value _ world | .signal _ world | .failure _ world => some world
  | .halted _ => none

/-- The value that a step ends with, if with any. -/
def Outcome.result? : Outcome α → Option α
  | .value result _ => some result
  | _ => none

/-- Whether a step ends with a value, and a test of it and of the state it leaves behind succeeds. -/
def Outcome.endsIn (test : α → World → Bool) : Outcome α → Bool
  | .value result world => test result world
  | _ => false

theorem Outcome.value_of_endsIn {test : α → World → Bool} {outcome : Outcome α}
    (met : outcome.endsIn test = true) :
    ∃ result world, outcome = .value result world ∧ test result world = true := by
  cases outcome with
  | value result world => exact ⟨result, world, rfl, met⟩
  | _ => cases met

/-- The error that a step fails with, if it does. -/
def Outcome.error? : Outcome α → Option Error
  | .failure error _ => some error
  | _ => none

namespace Action

theorem bind_apply (action : Action α) (continuation : α → Action β) (world : World) :
    (action >>= continuation) world =
      match action world with
      | .value result after => continuation result after
      | .signal raised after => .signal raised after
      | .failure error after => .failure error after
      | .halted reason => .halted reason := rfl

theorem bind_of_value {action : Action α} {value : α} {world after : World}
    (ended : action world = .value value after) (continuation : α → Action β) :
    (action >>= continuation) world = continuation value after := by
  rw [bind_apply, ended]

theorem value_of_bind {action : Action α} {continuation : α → Action β} {result : β}
    {world after : World} (ended : (action >>= continuation) world = .value result after) :
    ∃ value middle, action world = .value value middle ∧
      continuation value middle = .value result after := by
  rw [bind_apply] at ended
  cases first : action world with
  | value value middle => exact ⟨value, middle, rfl, by rwa [first] at ended⟩
  | _ =>
      rw [first] at ended
      cases ended

theorem failed_of_bind {action : Action α} {continuation : α → Action β} {error : Error}
    {world after : World} (failed : (action >>= continuation) world = .failure error after) :
    action world = .failure error after ∨ ∃ value middle, action world = .value value middle ∧
      continuation value middle = .failure error after := by
  rw [bind_apply] at failed
  cases ended : action world with
  | value value middle => exact .inr ⟨value, middle, rfl, by rwa [ended] at failed⟩
  | failure reason middle =>
      rw [ended] at failed
      cases failed
      exact .inl rfl
  | _ =>
      rw [ended] at failed
      cases failed

theorem raised_of_bind {action : Action α} {continuation : α → Action β} {raised : Signal}
    {world after : World} (signalled : (action >>= continuation) world = .signal raised after) :
    action world = .signal raised after ∨ ∃ value middle, action world = .value value middle ∧
      continuation value middle = .signal raised after := by
  rw [bind_apply] at signalled
  cases ended : action world with
  | value value middle => exact .inr ⟨value, middle, rfl, by rwa [ended] at signalled⟩
  | signal earlier middle =>
      rw [ended] at signalled
      cases signalled
      exact .inl rfl
  | _ =>
      rw [ended] at signalled
      cases signalled

theorem ask_eq_value {question : Heap → Except ReadFault α} {answer : α}
    {world after : World} (answered : ask question world = .value answer after) :
    question world.heap = .ok answer ∧ after = world := by
  unfold ask at answered
  split at answered <;> cases answered
  exact ⟨‹_›, rfl⟩

theorem ask_eq_failure {question : Heap → Except ReadFault α} {error : Error}
    {world after : World} (failed : ask question world = .failure error after) :
    ∃ fault, error = .internal fault := by
  unfold ask at failed
  split at failed <;> cases failed
  exact ⟨_, rfl⟩

instance : LawfulMonad Action :=
  LawfulMonad.mk' Action
    (by
      intro α action
      funext world
      change (action >>= pure) world = action world
      rw [bind_apply]
      cases action world <;> rfl)
    (fun _ _ => rfl)
    (by
      intro α β γ action second third
      funext world
      simp only [bind_apply]
      cases action world <;> rfl)

/-- Every state that the step leaves behind is related to the one it started in. -/
def Relates (relation : World → World → Prop) (action : Action α) : Prop :=
  ∀ world after, (action world).world? = some after → relation world after

variable {relation first second : World → World → Prop} {action : Action α}
  {continuation : α → Action β}

theorem Relates.mono (related : action.Relates first)
    (weaker : ∀ world after, first world after → second world after) : action.Relates second :=
  fun world after left => weaker world after (related world after left)

/-- Two steps in a row: the relation of the whole has to hold where the first step ends the run, and
where the second one goes on. -/
theorem Relates.bind (before : action.Relates first)
    (next : ∀ result, (continuation result).Relates second)
    (stop : ∀ world after, first world after → relation world after)
    (compose : ∀ world middle after, first world middle → second middle after →
      relation world after) :
    (action >>= continuation).Relates relation := by
  intro world after left
  rw [bind_apply] at left
  have reached := before world
  cases ended : action world with
  | value result middle =>
      rw [ended] at left reached
      exact compose world middle after (reached middle rfl) (next result middle after left)
  | signal raised middle =>
      rw [ended] at left reached
      cases left
      exact stop world after (reached after rfl)
  | failure error middle =>
      rw [ended] at left reached
      cases left
      exact stop world after (reached after rfl)
  | halted reason =>
      rw [ended] at left
      cases left

theorem Relates.of_unchanged (reflexive : ∀ world, relation world world)
    (same : ∀ world after, (action world).world? = some after → after = world) :
    action.Relates relation := by
  intro world after left
  rw [same world after left]
  exact reflexive world

theorem Relates.pure (reflexive : ∀ world, relation world world) (result : α) :
    (pure result : Action α).Relates relation :=
  .of_unchanged reflexive fun _ _ left => (Option.some.inj left).symm

theorem Relates.fail (reflexive : ∀ world, relation world world) (error : Error) :
    (fail error : Action α).Relates relation :=
  .of_unchanged reflexive fun _ _ left => (Option.some.inj left).symm

theorem Relates.raise (reflexive : ∀ world, relation world world) (raised : Signal) :
    (raise raised : Action α).Relates relation :=
  .of_unchanged reflexive fun _ _ left => (Option.some.inj left).symm

theorem Relates.world (reflexive : ∀ world, relation world world) :
    Action.world.Relates relation :=
  .of_unchanged reflexive fun _ _ left => (Option.some.inj left).symm

theorem Relates.halt (reason : Halt) : (halt reason : Action α).Relates relation :=
  fun _ _ left => nomatch left

theorem Relates.ask (reflexive : ∀ world, relation world world)
    (question : Heap → Except ReadFault α) : (ask question).Relates relation := by
  refine .of_unchanged reflexive fun world after left => ?_
  unfold Action.ask at left
  split at left
  · exact (Option.some.inj left).symm
  · exact (Option.some.inj left).symm
  · cases left

theorem Relates.change (update : World → World)
    (changes : ∀ world, relation world (update world)) : (change update).Relates relation := by
  intro world after left
  cases left
  exact changes world

theorem value_of_locate {place : Location} {result : α} {world after : World}
    (ended : locate place action world = .value result after) :
    action world = .value result after := by
  unfold locate at ended
  split at ended
  · cases ended
  · exact ended

theorem world?_locate (place : Location) (action : Action α) (world : World) :
    (locate place action world).world? = (action world).world? := by
  unfold locate
  cases action world <;> rfl

theorem world?_settle (action : Action α) (world : World) :
    (settle action world).world? = (action world).world? := by
  unfold settle
  cases action world <;> rfl

theorem world?_catchReturned (action : Action Handle) (world : World) :
    (catchReturned action world).world? = (action world).world? := by
  unfold catchReturned
  cases action world with
  | signal raised after => cases raised <;> rfl
  | _ => rfl

theorem Relates.locate (related : action.Relates relation) (place : Location) :
    (locate place action).Relates relation := fun world after left =>
  related world after (by rwa [world?_locate] at left)

theorem Relates.settle (related : action.Relates relation) : (settle action).Relates relation :=
  fun world after left => related world after (by rwa [world?_settle] at left)

theorem Relates.catchReturned {action : Action Handle} (related : action.Relates relation) :
    (catchReturned action).Relates relation := fun world after left =>
  related world after (by rwa [world?_catchReturned] at left)

theorem Relates.resume (reflexive : ∀ world, relation world world) (completion : Completion α) :
    completion.resume.Relates relation := by
  cases completion with
  | value result => exact .pure reflexive result
  | signal raised => exact .raise reflexive raised
  | failure error => exact .fail reflexive error

end Action

end RipInterpreter
