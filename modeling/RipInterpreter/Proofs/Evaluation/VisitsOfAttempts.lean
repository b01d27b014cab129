import RipInterpreter.Proofs.Evaluation.Cleanup
import RipInterpreter.Proofs.Evaluation.VisitsOfSteps

namespace RipInterpreter

open Syntax
open Evaluator (Starts)

namespace Action

/-- Whether a handler accepts a value is found out without changing anything. -/
theorem accepts_unchanged (scope : Scope) (matcher : Name) (value : Handle) :
    (accepts scope matcher value).Relates Eq := by
  have bound {α β : Type} {action : Action α} {next : α → Action β} (first : action.Relates Eq)
      (second : ∀ result, (next result).Relates Eq) : (action >>= next).Relates Eq :=
    Relates.bind first second (fun _ _ same => same) fun _ _ _ => Eq.trans
  have asked {α : Type} (question : Heap → Except ReadFault α) : (ask question).Relates Eq :=
    .ask (fun _ => rfl) question
  refine bound (.world fun _ => rfl) fun state => ?_
  split
  · exact .fail (fun _ => rfl) _
  · refine bound (asked _) fun isClass => ?_
    split
    · exact asked _
    · exact asked _

/-- Beside faults of the interpreter only a type without a value makes the search fail. -/
theorem missesType_of_placed {scope : Scope} {value : Handle} {world after : World}
    {handlers : List Handler} {error : Error}
    (failed : findHandler scope value handlers world = .failure error after)
    (placed : error.location ≠ none) :
    ∃ missing, MissesType scope value world handlers missing ∧
      error = .runtime (.unknownReference missing.text) (some missing.location) := by
  induction handlers with
  | nil => cases failed
  | cons handler rest ih =>
      cases typed : handler.matcher with
      | none =>
          rw [findHandler, typed] at failed
          cases failed
      | some matcher =>
          rw [findHandler_typed typed] at failed
          cases bound : world.frames.lookup scope matcher.text with
          | none =>
              rw [bind_apply, accepts_of_unbound bound] at failed
              cases failed
              exact ⟨matcher, .here typed bound, rfl⟩
          | some expected =>
              rcases failed_of_bind failed with refused | ⟨taken, middle, decided, failed⟩
              · rw [accepts_apply, bound] at refused
                refine absurd (Quiet.unplaced ((Quiet.law.ask _).bind fun isClass => ?_) refused)
                  placed
                split
                · exact Quiet.law.ask _
                · exact Quiet.law.ask _
              · cases accepts_unchanged scope matcher value world middle (by rw [decided]; rfl)
                cases taken with
                | true => cases failed
                | false =>
                    obtain ⟨missing, misses, shape⟩ := ih failed
                    exact ⟨missing, .later typed decided misses, shape⟩

/-- What becomes of an evaluation in an attempt that ended without a value: the attempt ends in the
same way, or its final block ends it in another way, or the body had ended in this way and handlers
were asked to take the value. -/
inductive Unwinds (evaluator : Evaluator) (scope : Scope) (body : Block) (handlers : List Handler)
    (cleanup : Option Clause) (world : World) (raised : Unwinding) (outcome : Outcome Handle) : Prop
  | passed {last : World} (ended : outcome = raised.outcome last)
  | superseded {clause : Clause} {middle : World} (last : cleanup = some clause)
    (unvalued : outcome.result? = none)
    (ran : runBlock evaluator scope clause.body middle = outcome)
  | caught {value : Handle} {middle later : World}
    (ran : runBlock evaluator scope body world = raised.outcome middle)
    (given : caught raised.completion middle = .value (some value) later)
    (chosen : ∀ last, findHandler scope value handlers later ≠ .value none last)

theorem unwinds_finish (evaluator : Evaluator) (scope : Scope) (body : Block)
    (handlers : List Handler) (cleanup : Option Clause) (start : World) (raised : Unwinding)
    (world : World) :
    Unwinds evaluator scope body handlers cleanup start raised
      (finish evaluator scope cleanup raised.completion world) := by
  have resumed (after : World) :
      (raised.completion : Completion Handle).resume after = raised.outcome after := by
    cases raised <;> rfl
  cases cleanup with
  | none => exact .passed (resumed world)
  | some clause =>
      unfold finish
      dsimp only
      rw [bind_apply]
      cases ran : runBlock evaluator scope clause.body world with
      | value result after => exact .passed (resumed after)
      | _ => exact .superseded rfl rfl ran

/-- The node of the attempt passes this on. -/
theorem Unwinds.evaluate {depth : Nat} {visit : Visit} {body : Block} {handlers : List Handler}
    {cleanup : Option Clause} {raised : Unwinding}
    (unwinds : Unwinds (evaluate depth) visit.scope body handlers cleanup visit.world raised
      (stepApart (evaluate depth) (evaluate depth) visit.scope visit.node visit.world))
    (located : ∀ error, raised = .failure error → error.Located) :
    Unwinds (RipInterpreter.evaluate depth) visit.scope body handlers cleanup visit.world raised
      ((RipInterpreter.evaluate (depth + 1)).visit visit) := by
  cases unwinds with
  | passed stepped =>
      refine .passed (evaluate_of_stepApart stepped fun error after failed => ?_)
      cases raised with
      | signal signal => cases failed
      | failure reason =>
          cases failed
          exact located _ rfl
  | @superseded clause middle last unvalued ran =>
      have whole := evaluate_of_stepApart ran.symm fun error after failed =>
        failsLocated_runBlock (failsLocated_evaluate depth) _ _ middle error after failed
      exact .superseded last ((congrArg Outcome.result? (whole.trans ran)).trans unvalued) whole.symm
  | caught ran given chosen => exact .caught ran given chosen

theorem attempt_eq (evaluator : Evaluator) (scope : Scope) (body : Block) (handlers : List Handler)
    (cleanup : Option Clause) :
    attempt evaluator scope body handlers cleanup = (do
      let completion ← settle (runBlock evaluator scope body)
      match ← caught completion with
      | none => finish evaluator scope cleanup completion
      | some value =>
        match ← findHandler scope value handlers with
        | none => finish evaluator scope cleanup completion
        | some handler =>
          settle (runHandler evaluator scope handler value) >>= finish evaluator scope cleanup) := by
  rw [attempt_eq_handled, handled, bind_assoc]
  refine bind_congr fun completion => ?_
  rw [bind_assoc]
  refine bind_congr fun value => ?_
  cases value with
  | none => exact pure_bind _ _
  | some value =>
      rw [bind_assoc]
      refine bind_congr fun handler => ?_
      cases handler with
      | none => exact pure_bind _ _
      | some handler => rfl

end Action

open RipInterpreter.Action

namespace Account

/-- What is said of errors where the end of another step was kept: its error may be used again. -/
def keeping (account : Account) (completion : Completion Handle) : Account :=
  { account with
    own := fun error => account.own error ∨ completion = .failure error
    unplaced := fun error unplaced => .inl (account.unplaced error unplaced)
    refused := fun request name searchPaths error refused =>
      .inl (account.refused request name searchPaths error refused) }

/-- What is done with a kept end may fail with the error that was kept. -/
theorem Traced.settle_bind {account : Account} {passed : Unwinding → Prop}
    {action : Evaluator → Action Handle} {next : Evaluator → Completion Handle → Action Handle}
    (traced : account.Traced (Passing passed) action)
    (after : ∀ completion, (account.keeping completion).Traced (Passing fun _ => False)
      fun evaluator => next evaluator completion) :
    account.Traced (Passing fun _ => False) fun evaluator =>
      Action.settle (action evaluator) >>= next evaluator := by
  let quiet : Account := { account with
    own := fun _ => True
    unplaced := fun _ _ => trivial
    refused := fun _ _ _ _ _ => trivial }
  intro world loaded
  have before := traced.settle world loaded
  have onward {completion : Completion Handle} {middle : World}
      (ran : Action.settle (action account.evaluator) world = .value completion middle) :
      (account.keeping completion).TracedAt (Passing fun _ => False)
        (fun evaluator => next evaluator completion) middle :=
    after completion middle ((before.keeps middle (by rw [ran]; rfl)).trans loaded)
  have whole : quiet.TracedAt (Passing fun _ => False)
      (fun evaluator => Action.settle (action evaluator) >>= next evaluator) world :=
    TracedAt.bind (before.answered rfl fun _ _ _ => .inl trivial)
      (fun completion middle ran => (onward ran).answered rfl fun _ _ _ => .inl trivial)
      fun _ _ => False.elim
  refine whole.answered rfl fun error last failed => ?_
  have ends : ((Action.settle (action account.evaluator) >>= next account.evaluator) world).Ends := by
    rw [failed]
    trivial
  rcases settle_ends (action account.evaluator) world with ⟨completion, middle, ran⟩ | ⟨_, ran⟩
  · have inside := failed
    rw [bind_of_value ran] at inside
    rcases (onward ran).answers error last inside with (own | kept) | ⟨visit, started, blamed⟩
    · exact .inl own
    · subst kept
      have failed : action account.evaluator world = .failure error middle := by
        unfold Action.settle at ran
        split at ran <;> cases ran
        assumption
      rcases (traced world loaded).answers error middle failed with own | ⟨visit, started, blamed⟩
      · exact .inl own
      · exact .inr ⟨visit, (Evaluator.starts_settle.mpr started).first ends, blamed⟩
    · exact .inr ⟨visit, started.second (before.same visit) ran, blamed⟩
  · rw [bind_apply, ran] at failed
    cases failed

theorem traced_runHandler {account : Account} {passed : Unwinding → Prop} (scope : Scope)
    (handler : Handler) (value : Handle) :
    account.Traced (Passing passed) fun evaluator => runHandler evaluator scope handler value :=
  .after (quiet_enter scope) fun frame =>
    .after (quiet_bindName frame handler.binding.text value) fun _ =>
      traced_runBlock Traced.visit frame handler.body

/-- An attempt, as long as the search for a handler fails in no other way than the account knows. No
signal need pass. -/
theorem traced_attempt {account : Account} (scope : Scope) (body : Block) {handlers : List Handler}
    (cleanup : Option Clause)
    (known : ∀ value later missing, MissesType scope value later handlers missing →
      account.own (.runtime (.unknownReference missing.text) (some missing.location))) :
    account.Traced (Passing fun _ => False) fun evaluator =>
      attempt evaluator scope body handlers cleanup := by
  have ran (account : Account) (scope : Scope) (block : Block) :
      account.Traced (Passing fun _ => False) fun evaluator => runBlock evaluator scope block :=
    traced_runBlock Traced.visit scope block
  have finished (account : Account) (completion : Completion Handle) :
      (account.keeping completion).Traced (Passing fun _ => False) fun evaluator =>
        finish evaluator scope cleanup completion := by
    have resumed : (account.keeping completion).Traced (Passing fun _ => False) fun _ =>
        completion.resume := by
      intro world loaded
      refine .still (fun error after failed => .inr ?_) fun after left => ?_
      · cases completion <;> cases failed
        rfl
      · cases completion <;> cases left <;> rfl
    cases cleanup with
    | none => exact resumed
    | some clause => exact (ran _ scope clause.body).bind fun _ => resumed
  have searched (completion : Completion Handle) (value : Handle) :
      (account.keeping completion).Traced (Passing fun _ => False) fun _ =>
        findHandler scope value handlers := by
    intro world loaded
    refine .still (fun error after failed => .inl ?_) fun after left =>
      (objectsOnly_findHandler scope value handlers world after left).loader
    by_cases placed : error.location = none
    · exact account.unplaced error placed
    · obtain ⟨missing, misses, rfl⟩ := missesType_of_placed failed placed
      exact known value world missing misses
  simp only [attempt_eq]
  refine (ran account scope body).settle_bind fun completion =>
    .after (quiet_caught completion) fun value => ?_
  cases value with
  | none => exact finished account completion
  | some value =>
      refine (searched completion value).bind fun handler => ?_
      cases handler with
      | none => exact finished account completion
      | some handler =>
          have taken : (account.keeping completion).Traced (Passing fun _ => True) fun evaluator =>
              runHandler evaluator scope handler value := traced_runHandler scope handler value
          exact taken.settle_bind (finished (account.keeping completion))

/-- What ends an evaluation within an attempt without a value unwinds the attempt. -/
theorem unwinds_attempt {depth : Nat} {loader : Loader} (scope : Scope) (body : Block)
    (handlers : List Handler) (cleanup : Option Clause) {world : World}
    (loaded : world.loader = loader) :
    (silent depth loader).TracedAt
      (Unwinds (evaluate depth) scope body handlers cleanup world)
      (fun evaluator => attempt evaluator scope body handlers cleanup) world := by
  have ran (block : Block) : (silent depth loader).Traced (Passing fun _ => True)
      fun evaluator => runBlock evaluator scope block := traced_runBlock Traced.visit scope block
  have finished (completion : Completion Handle) : (silent depth loader).Traced
      (Unwinds (evaluate depth) scope body handlers cleanup world)
      fun evaluator => finish evaluator scope cleanup completion := by
    have resumed {meets : Unwinding → Outcome Handle → Prop} :
        (silent depth loader).Traced meets fun _ => completion.resume := by
      have unchanged : completion.resume.Relates Eq := .resume (fun _ => rfl) completion
      exact silent_still (unchanged.mono fun _ _ same => same ▸ rfl)
    cases cleanup with
    | none => exact resumed
    | some clause =>
        have whole := (ran clause.body).bind fun _ => resumed
        exact whole.mono fun raised outcome passing => .passed (passing trivial).choose_spec
  have searched (value : Handle) : (silent depth loader).Traced (fun _ _ => False) fun _ =>
      findHandler scope value handlers :=
    silent_still (Relates.mono (objectsOnly_findHandler scope value handlers)
      fun _ _ same => same.loader)
  simp only [attempt_eq]
  have before := (ran body).settle world loaded
  refine before.bind (fun completion middle settled => ?_) fun raised kept => ?_
  · refine Traced.after (quiet_caught completion) (fun value => ?_) middle
      ((before.keeps middle (by rw [settled]; rfl)).trans loaded)
    cases value with
    | none => exact finished completion
    | some value =>
        refine .following (searched value) fun handler => ?_
        cases handler with
        | none => exact finished completion
        | some handler =>
            intro start loaded
            have handling : (silent depth loader).Traced (Passing fun _ => True) fun evaluator =>
                runHandler evaluator scope handler value := traced_runHandler scope handler value
            have taken := handling.settle start loaded
            refine taken.bind (fun completion middle settled => finished completion middle
              ((taken.keeps middle (by rw [settled]; rfl)).trans loaded)) fun raised kept => ?_
            obtain ⟨last, settled⟩ := kept trivial
            rw [bind_of_value settled]
            exact unwinds_finish _ scope body handlers cleanup world raised last
  · -- The body itself ended like this: without a handler the final block follows.
    obtain ⟨middle, settled⟩ := kept trivial
    have ended := Unwinding.settle_eq_value_iff.mp settled
    obtain ⟨value, later, given⟩ := caught_ends raised.completion middle
    rw [bind_of_value settled, bind_of_value given]
    cases value with
    | none => exact unwinds_finish _ scope body handlers cleanup world raised later
    | some value =>
        by_cases left : ∃ last, findHandler scope value handlers later = .value none last
        · obtain ⟨last, left⟩ := left
          dsimp only
          rw [bind_of_value left]
          exact unwinds_finish _ scope body handlers cleanup world raised last
        · exact .caught ended given fun last none => left ⟨last, none⟩

/-- The same of the node of the attempt, which calls nothing itself. -/
theorem unwinds_stepApart {depth : Nat} {visit : Visit} {body : Block} {handlers : List Handler}
    {cleanup : Option Clause} {place : Location}
    (shape : visit.node = .attempt body handlers cleanup place) (calls : Evaluator → Evaluator) :
    (silent depth visit.world.loader).TracedAt
      (Unwinds (evaluate depth) visit.scope body handlers cleanup visit.world)
      (fun evaluator => stepApart evaluator (calls evaluator) visit.scope visit.node)
      visit.world := by
  rw [shape]
  exact unwinds_attempt visit.scope body handlers cleanup rfl

end Account

end RipInterpreter
