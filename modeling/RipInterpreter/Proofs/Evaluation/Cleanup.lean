import RipInterpreter.Proofs.Evaluation.Lawful
import RipInterpreter.Proofs.Machine.Alters

/-!
The final block of an attempt. It runs after the body and the handler that took what the body threw,
however they ended, but not if the search for that handler fails.
-/

namespace RipInterpreter

open Syntax

variable {α β : Type}

/-- The error knows its place, or has none. -/
def Error.Located (error : Error) : Prop := ∀ place, error.locate place = error

/-- The same end, its error told where it happened. -/
def Completion.located (place : Location) : Completion α → Completion α
  | .failure error => .failure (error.locate place)
  | completion => completion

namespace Action

/-- The step fails with located errors only. -/
def FailsLocated (action : Action α) : Prop :=
  ∀ world error after, action world = .failure error after → error.Located

/-- Takes a step to its end, then runs another. If the other one ends with a value, the first end
counts, otherwise the second. -/
def followedBy (earlier : Action α) (cleanup : Action β) : Action α := do
  let completion ← settle earlier
  let _ ← cleanup
  completion.resume

theorem FailsLocated.bind {action : Action α} {continuation : α → Action β}
    (before : action.FailsLocated) (next : ∀ result, (continuation result).FailsLocated) :
    (action >>= continuation).FailsLocated := by
  intro world error after failed
  rcases failed_of_bind failed with ended | ⟨result, middle, -, failed⟩
  · exact before world error after ended
  · exact next result middle error after failed

theorem FailsLocated.pure (result : α) : (pure result : Action α).FailsLocated :=
  fun _ _ _ failed => nomatch failed

theorem failsLocated_locate (place : Location) (action : Action α) :
    (locate place action).FailsLocated := by
  intro world error after failed other
  unfold locate at failed
  split at failed
  · cases failed
    exact Error.locate_locate _ place other
  · rename_i distinct
    exact absurd failed (distinct error after)

theorem failsLocated_enter (scope : Scope) : (enter scope).FailsLocated :=
  fun _ _ _ failed => nomatch failed

theorem failsLocated_runBlock {evaluator : Evaluator}
    (nested : ∀ scope node, (evaluator scope node).FailsLocated) (scope : Scope) (block : Block) :
    (runBlock evaluator scope block).FailsLocated := by
  refine (failsLocated_enter scope).bind fun inner => ?_
  have ran (last : Handle) (statements : List Node) :
      (runFrom evaluator inner last statements).FailsLocated := by
    induction statements generalizing last with
    | nil => exact .pure last
    | cons statement rest ih => exact (nested inner statement).bind fun _ => ih _
  exact ran .nil block.statements

end Action

theorem failsLocated_evaluate (depth : Nat) (scope : Scope) (node : Node) :
    (evaluate depth scope node).FailsLocated := by
  cases depth with
  | zero => exact fun _ _ _ failed => nomatch failed
  | succ depth => exact Action.failsLocated_locate _ _

namespace Action

theorem settle_ends (action : Action α) (world : World) :
    (∃ completion after, settle action world = .value completion after) ∨
      ∃ reason, settle action world = .halted reason := by
  unfold settle
  cases action world with
  | halted reason => exact .inr ⟨reason, rfl⟩
  | _ => exact .inl ⟨_, _, rfl⟩

theorem caught_ends (completion : Completion Handle) (world : World) :
    ∃ value after, caught completion world = .value value after := by
  unfold caught
  split
  · exact ⟨_, _, rfl⟩
  · rename_i reason place
    obtain ⟨-, made⟩ := newException_apply reason.message world
    exact ⟨some world.heap.next, _, bind_of_value made fun exception => pure (some exception)⟩
  · exact ⟨_, _, rfl⟩

/-- The step raises nothing. -/
def RaisesNothing (action : Action α) : Prop :=
  ∀ world raised after, action world ≠ .signal raised after

theorem RaisesNothing.bind {action : Action α} {continuation : α → Action β}
    (before : action.RaisesNothing) (next : ∀ result, (continuation result).RaisesNothing) :
    (action >>= continuation).RaisesNothing := by
  intro world raised after signalled
  rcases raised_of_bind signalled with ended | ⟨result, middle, -, signalled⟩
  · exact before world raised after ended
  · exact next result middle raised after signalled

theorem raisesNothing_pure (result : α) : (pure result : Action α).RaisesNothing :=
  fun _ _ _ signalled => nomatch signalled

theorem raisesNothing_ask (question : Heap → Except ReadFault α) : (ask question).RaisesNothing := by
  intro world raised after signalled
  unfold ask at signalled
  split at signalled <;> cases signalled

theorem raisesNothing_accepts (scope : Scope) (matcher : Name) (value : Handle) :
    (accepts scope matcher value).RaisesNothing := by
  have looked : Action.world.RaisesNothing := fun _ _ _ signalled => nomatch signalled
  refine looked.bind fun world => ?_
  split
  · exact fun _ _ _ signalled => nomatch signalled
  · refine (raisesNothing_ask _).bind fun isClass => ?_
    split
    · exact raisesNothing_ask _
    · exact raisesNothing_ask _

theorem raisesNothing_findHandler (scope : Scope) (value : Handle) (handlers : List Handler) :
    (findHandler scope value handlers).RaisesNothing := by
  induction handlers with
  | nil => exact raisesNothing_pure none
  | cons handler rest ih =>
      have decided (taken : Bool) : (if taken = true then (pure (some handler) : Action _)
          else findHandler scope value rest).RaisesNothing := by
        split
        · exact raisesNothing_pure _
        · exact ih
      unfold findHandler
      cases handler.matcher with
      | none => exact decided true
      | some matcher => exact (raisesNothing_accepts scope matcher value).bind decided

/-- The body ends with something that handlers get to see, and the search for the one that takes it
fails. -/
def SelectionFails (evaluator : Evaluator) (scope : Scope) (body : Block) (handlers : List Handler)
    (world : World) : Prop :=
  ∃ completion middle value later error after,
    settle (runBlock evaluator scope body) world = .value completion middle ∧
    caught completion middle = .value (some value) later ∧
    findHandler scope value handlers later = .failure error after

section

variable {evaluator : Evaluator} {scope : Scope} {body : Block} {handlers : List Handler}
  {world middle later : World} {completion : Completion Handle} {value : Option Handle}

theorem handled_of_ran
    (ran : settle (runBlock evaluator scope body) world = .value completion middle)
    (seen : caught completion middle = .value value later) :
    handled evaluator scope body handlers world =
      (match value with
        | none => pure completion
        | some value => do
          match ← findHandler scope value handlers with
          | none => pure completion
          | some handler => settle (runHandler evaluator scope handler value) : Action _) later :=
  (bind_of_value ran _).trans (bind_of_value seen _)

theorem selectionFails_of_ran
    (ran : settle (runBlock evaluator scope body) world = .value completion middle)
    (seen : caught completion middle = .value value later) :
    SelectionFails evaluator scope body handlers world ↔
      ∃ given error after, value = some given ∧
        findHandler scope given handlers later = .failure error after := by
  constructor
  · rintro ⟨_, _, given, _, error, after, same, caught, failed⟩
    cases ran.symm.trans same
    cases seen.symm.trans caught
    exact ⟨given, error, after, rfl, failed⟩
  · rintro ⟨given, error, after, rfl, failed⟩
    exact ⟨completion, middle, given, later, error, after, ran, seen, failed⟩

end

/-- Ends an attempt whose body, or the handler that took over, has ended. -/
def finish (evaluator : Evaluator) (scope : Scope) (cleanup : Option Clause)
    (completion : Completion Handle) : Action Handle :=
  match cleanup with
  | none => completion.resume
  | some clause => do
    let _ ← runBlock evaluator scope clause.body
    completion.resume

theorem attempt_eq_handled (evaluator : Evaluator) (scope : Scope) (body : Block)
    (handlers : List Handler) (cleanup : Option Clause) :
    attempt evaluator scope body handlers cleanup =
      handled evaluator scope body handlers >>= finish evaluator scope cleanup := rfl

/-- A body with handlers never raises: it has an end that is kept, or the search fails. -/
theorem handled_ends (evaluator : Evaluator) (scope : Scope) (body : Block)
    (handlers : List Handler) (world : World) :
    (SelectionFails evaluator scope body handlers world ∧
      ∃ error after, handled evaluator scope body handlers world = .failure error after) ∨
    (¬ SelectionFails evaluator scope body handlers world ∧
      ((∃ completion after, handled evaluator scope body handlers world = .value completion after) ∨
        ∃ reason, handled evaluator scope body handlers world = .halted reason)) := by
  rcases settle_ends (runBlock evaluator scope body) world with
    ⟨completion, middle, ran⟩ | ⟨reason, ran⟩
  · obtain ⟨value, later, seen⟩ := caught_ends completion middle
    rw [selectionFails_of_ran ran seen, handled_of_ran ran seen]
    cases value with
    | none => exact .inr ⟨by simp, .inl ⟨completion, later, rfl⟩⟩
    | some value =>
        simp only [bind_apply]
        cases found : findHandler scope value handlers later with
        | signal raised after =>
            exact absurd found (raisesNothing_findHandler scope value handlers later raised after)
        | failure error after => exact .inl ⟨⟨value, error, after, rfl, found⟩, error, after, rfl⟩
        | halted reason => exact .inr ⟨by simp [found], .inr ⟨reason, rfl⟩⟩
        | value handler after =>
            refine .inr ⟨by simp [found], ?_⟩
            cases handler with
            | none => exact .inl ⟨completion, after, rfl⟩
            | some handler => exact settle_ends (runHandler evaluator scope handler value) after
  · refine .inr ⟨?_, .inr ⟨reason, ?_⟩⟩
    · rintro ⟨_, _, _, _, _, _, same, _⟩
      cases ran.symm.trans same
    · unfold handled
      rw [bind_apply, ran]

theorem locate_resume (place : Location) (completion : Completion α) (world : World) :
    locate place completion.resume world = (completion.located place).resume world := by
  cases completion <;> rfl

theorem settle_located {ended : Action (Completion α)} {world after : World}
    {completion : Completion α} (valued : ended world = .value completion after)
    (place : Location) :
    settle (locate place (ended >>= Completion.resume)) world =
      .value (completion.located place) after := by
  unfold settle locate
  rw [bind_of_value valued]
  cases completion <;> rfl

/-- Where the body and its handlers have an end, it does not matter whether that is kept for the
cleanup inside the attempt or outside of it. -/
theorem locate_resume_after {ended : Action (Completion α)} {cleanup : Action β}
    (located : cleanup.FailsLocated) (place : Location) {world after : World}
    {completion : Completion α} (valued : ended world = .value completion after) :
    locate place (ended >>= fun completion => cleanup >>= fun _ => completion.resume) world =
      (locate place (ended >>= Completion.resume)).followedBy cleanup world := by
  have inside : (ended >>= fun completion => cleanup >>= fun _ => completion.resume) world =
      (cleanup >>= fun _ => completion.resume) after := bind_of_value valued _
  have outside : (locate place (ended >>= Completion.resume)).followedBy cleanup world =
      (cleanup >>= fun _ => (completion.located place).resume) after := by
    unfold followedBy
    rw [bind_of_value (settle_located valued place)]
  rw [outside, locate, inside, bind_apply, bind_apply]
  cases ran : cleanup after with
  | value result last => exact locate_resume place completion last
  | failure error last =>
      have kept := located after error last ran place
      exact congrArg (Outcome.failure · last) kept
  | _ => rfl

theorem ask_of_answers {question : Heap → Except ReadFault α} {known : α → Prop} {world : World}
    (answers : Answers (question world.heap) known) :
    ∃ result, ask question world = .value result world := by
  obtain ⟨result, answered, _⟩ := answers
  exact ⟨result, by rw [ask, answered]⟩

theorem accepts_apply (scope : Scope) (matcher : Name) (value : Handle) (world : World) :
    accepts scope matcher value world = (match world.frames.lookup scope matcher.text with
      | none => fail (.runtime (.unknownReference matcher.text) (some matcher.location))
      | some expected => (ask fun heap => heap.isClass expected) >>= fun isClass =>
        if isClass = true then ask fun heap => heap.isA value expected
        else ask fun heap => heap.equal value expected : Action Bool) world := rfl

theorem accepts_of_unbound {scope : Scope} {matcher : Name} {world : World}
    (unbound : world.frames.lookup scope matcher.text = none) (value : Handle) :
    accepts scope matcher value world =
      .failure (.runtime (.unknownReference matcher.text) (some matcher.location)) world := by
  rw [accepts_apply, unbound]
  rfl

/-- On a sound machine a type that has a value decides. -/
theorem accepts_of_bound {scope : Scope} {matcher : Name} {value expected : Handle} {world : World}
    (sound : world.Sound) (proper : world.heap.Proper value)
    (bound : world.frames.lookup scope matcher.text = some expected) :
    ∃ taken, accepts scope matcher value world = .value taken world := by
  have present := (sound.state.lookup bound).holds
  obtain ⟨isClass, asked⟩ : ∃ isClass, ask (fun heap => heap.isClass expected) world =
      .value isClass world := ask_of_answers (Heap.answers_isClass present)
  rw [accepts_apply, bound]
  simp only [bind_of_value asked]
  split
  · exact ask_of_answers (Heap.answers_isA sound.heap proper.holds)
  · exact ask_of_answers (Heap.answers_equal sound.heap proper.holds present)

/-- The handlers before the one with this type refuse the value, and the type has no value. -/
inductive MissesType (scope : Scope) (value : Handle) (world : World) : List Handler → Name → Prop
  | here {handler : Handler} {rest : List Handler} {matcher : Name}
    (typed : handler.matcher = some matcher)
    (unbound : world.frames.lookup scope matcher.text = none) :
    MissesType scope value world (handler :: rest) matcher
  | later {handler : Handler} {rest : List Handler} {matcher missing : Name}
    (typed : handler.matcher = some matcher)
    (refused : accepts scope matcher value world = .value false world)
    (misses : MissesType scope value world rest missing) :
    MissesType scope value world (handler :: rest) missing

theorem findHandler_typed {handler : Handler} {matcher : Name}
    (typed : handler.matcher = some matcher) (scope : Scope) (value : Handle)
    (rest : List Handler) :
    findHandler scope value (handler :: rest) = accepts scope matcher value >>= fun taken =>
      if taken = true then pure (some handler) else findHandler scope value rest := by
  rw [findHandler, typed]

theorem MissesType.fails {scope : Scope} {value : Handle} {world : World} {handlers : List Handler}
    {missing : Name} (misses : MissesType scope value world handlers missing) :
    findHandler scope value handlers world =
      .failure (.runtime (.unknownReference missing.text) (some missing.location)) world := by
  induction misses with
  | here typed unbound => rw [findHandler_typed typed, bind_apply, accepts_of_unbound unbound]
  | later typed refused _ ih =>
      rw [findHandler_typed typed, bind_of_value refused]
      exact ih

/-- On a sound machine nothing else makes the search fail. -/
theorem missesType_of_fails {scope : Scope} {value : Handle} {world after : World}
    {handlers : List Handler} {error : Error} (sound : world.Sound)
    (proper : world.heap.Proper value)
    (failed : findHandler scope value handlers world = .failure error after) :
    ∃ missing, MissesType scope value world handlers missing := by
  induction handlers with
  | nil => cases failed
  | cons handler rest ih =>
      cases typed : handler.matcher with
      | none =>
          rw [findHandler, typed] at failed
          cases failed
      | some matcher =>
          cases bound : world.frames.lookup scope matcher.text with
          | none => exact ⟨matcher, .here typed bound⟩
          | some expected =>
              obtain ⟨taken, decided⟩ := accepts_of_bound sound proper bound
              rw [findHandler_typed typed, bind_of_value decided] at failed
              cases taken with
              | true => cases failed
              | false =>
                  obtain ⟨missing, misses⟩ := ih failed
                  exact ⟨missing, .later typed decided misses⟩

/-- What handlers get to see is a value that a program may have. -/
theorem proper_of_caught {depth : Nat} {scope : Scope} {body : Block}
    {world middle later : World} {completion : Completion Handle} {value : Handle}
    (sound : world.SoundState)
    (ran : settle (runBlock (evaluate depth) scope body) world = .value completion middle)
    (seen : caught completion middle = .value (some value) later) :
    world.Leads later ∧ later.heap.Proper value := by
  have ended := (gives_runBlock (lawful_evaluate depth) scope body sound).settle
  unfold Lawful at ended
  rw [ran] at ended
  cases ended with
  | value leads meets =>
      have given := lawful_caught (leads.soundState sound) meets
      unfold Lawful at given
      rw [seen] at given
      cases given with
      | value more known => exact ⟨leads.trans more, known value rfl⟩

theorem selectionFails_iff (depth : Nat) (scope : Scope) (body : Block) (handlers : List Handler)
    {world : World} (sound : world.Sound) :
    SelectionFails (evaluate depth) scope body handlers world ↔
      ∃ completion middle value later missing,
        settle (runBlock (evaluate depth) scope body) world = .value completion middle ∧
        caught completion middle = .value (some value) later ∧
        MissesType scope value later handlers missing := by
  constructor
  · rintro ⟨completion, middle, value, later, error, after, ran, seen, failed⟩
    obtain ⟨leads, proper⟩ := proper_of_caught sound.state ran seen
    obtain ⟨missing, misses⟩ := missesType_of_fails (leads.sound sound) proper failed
    exact ⟨completion, middle, value, later, missing, ran, seen, misses⟩
  · rintro ⟨completion, middle, value, later, missing, ran, seen, misses⟩
    exact ⟨completion, middle, value, later, _, _, ran, seen, misses.fails⟩

end Action

/-- The final block of an attempt runs exactly once, after the same attempt without it and however
that ends, and its own end counts unless it is a value. The one exception: where the search for a
handler fails, the attempt ends with the error of the search and the final block does not run. On a
machine that programs have got to, the search fails exactly where it comes to a handler whose type is
a name without a value. -/
theorem attempt_runs_cleanup (depth : Nat) (scope : Scope) (body : Block) (handlers : List Handler)
    (clause : Clause) (place : Location) (world : World) :
    let whole := evaluate (depth + 1) scope (.attempt body handlers (some clause) place)
    let bare := evaluate (depth + 1) scope (.attempt body handlers none place)
    let cleanup := Action.runBlock (evaluate depth) scope clause.body
    let fails := Action.SelectionFails (evaluate depth) scope body handlers world
    (¬ fails → whole world = bare.followedBy cleanup world) ∧
    (fails → whole world = bare world ∧ ∃ error after, bare world = .failure error after) ∧
    (world.Sound → (fails ↔ ∃ completion middle value later missing,
      Action.settle (Action.runBlock (evaluate depth) scope body) world = .value completion middle ∧
      Action.caught completion middle = .value (some value) later ∧
      Action.MissesType scope value later handlers missing)) := by
  have located : (Action.runBlock (evaluate depth) scope clause.body).FailsLocated :=
    Action.failsLocated_runBlock (failsLocated_evaluate depth) scope clause.body
  intro whole bare cleanup fails
  refine ⟨fun fine => ?_, fun failing => ?_, Action.selectionFails_iff depth scope body handlers⟩
  · rcases Action.handled_ends (evaluate depth) scope body handlers world with
      ⟨failing, _⟩ | ⟨_, ⟨completion, after, ended⟩ | ⟨reason, ended⟩⟩
    · exact absurd failing fine
    · exact Action.locate_resume_after located place ended
    · simp only [whole, bare, evaluate, Action.step, Action.attempt, Action.locate,
        Action.followedBy, Action.settle, Action.bind_apply, ended]
  · rcases Action.handled_ends (evaluate depth) scope body handlers world with
      ⟨_, error, after, ended⟩ | ⟨fine, _⟩
    · simp only [whole, bare, evaluate, Action.step, Action.attempt, Action.locate,
        Action.bind_apply, ended]
      exact ⟨rfl, _, _, rfl⟩
    · exact absurd failing fine

/-- In `try { throw nil } catch (Missing e) { } finally { exit true }` the exit does not happen. -/
theorem cleanup_skipped_for_missing_type :
    let start := World.fresh ⟨fun _ name paths => .refused (.missingModule name paths)⟩ []
    let place := Location.start "text"
    let body : Block := ⟨[.throwing (.reference ⟨"nil", place⟩) place], place⟩
    let handler : Handler := ⟨some ⟨"Missing", place⟩, ⟨"e", place⟩, .empty place, place⟩
    let clause : Clause := ⟨⟨[.exiting (some (.reference ⟨"true", place⟩)) place], place⟩, place⟩
    let whole := evaluate 3 Kernel.globals (.attempt body [handler] (some clause) place)
    let bare := evaluate 3 Kernel.globals (.attempt body [handler] none place)
    let cleanup := Action.runBlock (evaluate 2) Kernel.globals clause.body
    (∃ after, whole start = .failure (.runtime (.unknownReference "Missing") (some place)) after) ∧
    (∃ after, bare.followedBy cleanup start = .signal (.exited .trueValue) after) ∧
    whole start ≠ bare.followedBy cleanup start := by
  refine ⟨⟨_, rfl⟩, ⟨_, rfl⟩, fun same => ?_⟩
  cases same

/-- With a handler that takes everything, or a type that has a value, the exit does happen. -/
theorem cleanup_runs_after_untyped_handler :
    let start := World.fresh ⟨fun _ name paths => .refused (.missingModule name paths)⟩ []
    let place := Location.start "text"
    let body : Block := ⟨[.throwing (.reference ⟨"nil", place⟩) place], place⟩
    let handler : Handler := ⟨none, ⟨"e", place⟩, .empty place, place⟩
    let clause : Clause := ⟨⟨[.exiting (some (.reference ⟨"true", place⟩)) place], place⟩, place⟩
    let whole := evaluate 3 Kernel.globals (.attempt body [handler] (some clause) place)
    let bare := evaluate 3 Kernel.globals (.attempt body [handler] none place)
    let cleanup := Action.runBlock (evaluate 2) Kernel.globals clause.body
    ¬ Action.SelectionFails (evaluate 2) Kernel.globals body [handler] start ∧
    whole start = bare.followedBy cleanup start ∧
    ∃ after, whole start = .signal (.exited .trueValue) after := by
  intro start place body handler clause whole bare cleanup
  have fine : ¬ Action.SelectionFails (evaluate 2) Kernel.globals body [handler] start := by
    rintro ⟨completion, middle, value, later, error, after, _, _, failed⟩
    cases failed
  have same := (attempt_runs_cleanup 2 Kernel.globals body [handler] clause place start).1 fine
  exact ⟨fine, same, _, rfl⟩

end RipInterpreter
