import RipInterpreter.Proofs.Evaluation.VisitsOfAttempts

namespace RipInterpreter

open Syntax
open Evaluator (Starts)

/-- The evaluation of a node starts another one for one of its parts, outside of what it calls. -/
def Visit.HasPart (depth : Nat) (visit part : Visit) : Prop :=
  Starts (fun parts => Action.stepApart parts (evaluate depth) visit.scope visit.node)
    (evaluate depth) visit.world part

/-- The evaluation of a node starts another one in what it calls. -/
def Visit.HasCalled (depth : Nat) (visit called : Visit) : Prop :=
  Starts (fun calls => Action.stepApart (evaluate depth) calls visit.scope visit.node)
    (evaluate depth) visit.world called

/-- The second evaluation takes place within the first one, with no call in between. The numbers are
the depths that are left for them. -/
inductive Visit.Within : Nat → Visit → Nat → Visit → Prop
  | self (depth : Nat) (visit : Visit) : Within depth visit depth visit
  | part {depth level : Nat} {visit part inner : Visit} (started : visit.HasPart depth part)
    (within : Within depth part level inner) : Within (depth + 1) visit level inner

/-- Between the two evaluations there is an attempt whose final block ended with something else than
a value, and this is the end of the attempt. -/
def Visit.Superseded (depth : Nat) (visit : Visit) (level : Nat) (inner : Visit) : Prop :=
  ∃ (rank : Nat) (around : Visit) (body : Block) (handlers : List Handler) (clause : Clause)
    (place : Location) (middle : World),
    Visit.Within depth visit (rank + 1) around ∧ Visit.Within (rank + 1) around level inner ∧
    around.node = .attempt body handlers (some clause) place ∧
    ((evaluate (rank + 1)).visit around).result? = none ∧
    Action.runBlock (evaluate rank) around.scope clause.body middle =
      (evaluate (rank + 1)).visit around

theorem Visit.Superseded.part {depth level : Nat} {visit part inner : Visit}
    (superseded : Visit.Superseded depth part level inner) (started : visit.HasPart depth part) :
    Visit.Superseded (depth + 1) visit level inner := by
  obtain ⟨rank, around, body, handlers, clause, place, middle, outside, rest⟩ := superseded
  exact ⟨rank, around, body, handlers, clause, place, middle, .part started outside, rest⟩

namespace Action

/-- The step does not end by returning. -/
def NeverReturns (action : Action Handle) : Prop :=
  ∀ world value after, action world ≠ .signal (.returned value) after

theorem Quiet.silent {α : Type} {action : Action α} (quiet : action.Quiet) (world : World)
    (raised : Signal) (after : World) : action world ≠ .signal raised after := by
  intro signalled
  have ended := quiet world
  rw [signalled] at ended
  cases ended

theorem NeverReturns.after {α : Type} {action : Action α} {continuation : α → Action Handle}
    (quiet : action.Quiet) (next : ∀ result, (continuation result).NeverReturns) :
    (action >>= continuation).NeverReturns := by
  intro world value after returned
  rcases raised_of_bind returned with ended | ⟨result, middle, -, returned⟩
  · exact quiet.silent world _ after ended
  · exact next result middle value after returned

theorem neverReturns_leave {leave : Completion Handle → Action Handle} (action : Action Handle)
    (leaves : ∀ completion world, ∃ after, after.loader = world.loader ∧
      leave completion world = completion.leave.resume after) :
    (settle action >>= leave).NeverReturns := by
  have left (completion : Completion Handle) : (leave completion).NeverReturns := by
    intro world value after returned
    obtain ⟨last, -, same⟩ := leaves completion world
    rw [same] at returned
    cases completion with
    | signal raised => cases raised <;> cases returned
    | _ => cases returned
  intro world value after returned
  rw [settle_bind_apply] at returned
  cases ended : action world with
  | halted reason =>
      rw [ended] at returned
      cases returned
  | _ =>
      rw [ended] at returned
      exact left _ _ value after returned

theorem neverReturns_callBlock (evaluator : Evaluator) (callable : Callable)
    (parameters : List Parameter) (arguments : List Handle) (body : Block) :
    (callBlock evaluator callable parameters arguments body).NeverReturns := by
  refine .after (quiet_enter callable.closure) fun frame => ?_
  have ran : (bindParameters frame parameters arguments >>= fun _ =>
      catchReturned (run evaluator frame body.statements)).NeverReturns := by
    refine .after (quiet_bindParameters frame parameters arguments) fun _ => ?_
    rw [catchReturned_eq]
    exact neverReturns_leave _ fun _ world => ⟨world, rfl, rfl⟩
  cases callable.receiver with
  | none => exact ran
  | some receiver => exact .after (quiet_bindName frame "@" receiver) fun _ => ran

theorem neverReturns_require (evaluator : Evaluator) (name : String) (scope : Scope) :
    (require evaluator name scope).NeverReturns := by
  have requested : (requestModule name scope).Quiet := fun _ => .value rfl
  have began (path : String) : (change fun world =>
      { world with loading := Path.key path :: world.loading }).Quiet := fun _ => .value rfl
  refine .after requested fun answer => ?_
  cases answer with
  | refused error => exact fun _ _ _ => nofun
  | unseen path => exact fun _ _ _ => nofun
  | found path module =>
      refine .after Quiet.law.world fun state => ?_
      cases state.loaded.lookup (Path.key path) with
      | some value => exact fun _ _ _ => nofun
      | none =>
          dsimp only
          cases state.loading.contains (Path.key path) with
          | true => exact fun _ _ _ => nofun
          | false =>
              rw [if_neg Bool.false_ne_true, runModule_eq]
              exact .after (began path) fun _ => .after (quiet_enterFrom _ path) fun scope =>
                neverReturns_leave _ (leaveModule_leaves path)

theorem neverReturns_call (evaluator : Evaluator) (value : Handle) (arguments : List Handle)
    (caller : Scope) : (call evaluator value arguments caller).NeverReturns := by
  have quiet {action : Action Handle} (quiet : action.Quiet) : action.NeverReturns :=
    fun world _ => quiet.silent world _
  refine .after (Quiet.law.payload value) fun found => ?_
  cases found with
  | lambda callable =>
      refine .after (Quiet.law.ask _) fun selected => ?_
      cases selected with
      | none => exact quiet (Quiet.law.fault _)
      | some best =>
          obtain ⟨⟨parameters, body⟩, literals⟩ := best
          cases body with
          | block body => exact neverReturns_callBlock evaluator callable parameters arguments body
          | method method =>
              by_cases requiring : method = .require
              · subst requiring
                exact .after (Quiet.law.argumentOf _ 0) fun _ =>
                  .after (Quiet.law.stringValue _) fun _ => neverReturns_require evaluator _ _
              · exact quiet (Quiet.law.runMethod evaluator requiring _)
  | _ => exact quiet (Quiet.law.bind (Quiet.law.ask _) fun _ => Quiet.law.fault _)

end Action

open RipInterpreter.Action

theorem loader_call (depth : Nat) (value : Handle) (arguments : List Handle) (caller : Scope) :
    (call (evaluate depth) value arguments caller).Relates
      fun world after => after.loader = world.loader := by
  intro world after left
  have traced : (Account.silent depth world.loader).Traced LeavesCall fun evaluator =>
      call evaluator value arguments caller :=
    Account.traced_call Account.Traced.visit value arguments caller
  exact (traced world rfl).keeps after left

theorem loader_attempt (depth : Nat) (scope : Scope) (body : Block) (handlers : List Handler)
    (cleanup : Option Clause) :
    (attempt (evaluate depth) scope body handlers cleanup).Relates
      fun world after => after.loader = world.loader :=
  fun _ after left => (Account.unwinds_attempt scope body handlers cleanup rfl).keeps after left

/-- The ends of its parts pass through every node but an attempt. -/
theorem Account.traced_parts {depth : Nat} {loader : Loader} (scope : Scope) {node : Node}
    (other : ∀ body handlers cleanup place, node ≠ .attempt body handlers cleanup place) :
    (silent depth loader).Traced (Passing fun _ => True) fun parts =>
      stepApart parts (evaluate depth) scope node :=
  traced_stepApart Traced.visit scope node
    (fun value arguments => silent_still (loader_call depth value arguments scope))
    (fun _ _ _ _ ancestor _ => silent_evaluateParent Traced.visit scope ancestor)
    fun body handlers cleanup place shape => absurd shape (other body handlers cleanup place)

/-- What crosses calls passes through every node that calls. -/
theorem Account.traced_calls {depth : Nat} {loader : Loader} (scope : Scope) (node : Node) :
    (silent depth loader).Traced (Passing Unwinding.Crosses) fun calls =>
      stepApart (evaluate depth) calls scope node := by
  have still (scope : Scope) (node : Node) : (silent depth loader).Traced (Passing Unwinding.Crosses)
      fun _ => evaluate depth scope node := silent_still (loader_evaluate depth scope node)
  refine traced_stepApart still scope node (fun value arguments => ?_)
    (fun _ _ _ _ ancestor _ => silent_evaluateParent still scope ancestor)
    fun body handlers cleanup place _ =>
      silent_still (loader_attempt depth scope body handlers cleanup)
  exact (traced_call Traced.visit value arguments scope).mono fun _ _ leaves => leaves.passing

/-- What is returned in a part of a node unwinds the evaluation of the node. -/
theorem Visit.HasPart.returns {depth : Nat} {visit part : Visit} (started : visit.HasPart depth part)
    {value : Handle} {after : World}
    (returned : (evaluate depth).visit part = .signal (.returned value) after) :
    (∃ last, (evaluate (depth + 1)).visit visit = .signal (.returned value) last) ∨
      ∃ body handlers clause place middle, visit.node = .attempt body handlers (some clause) place ∧
        ((evaluate (depth + 1)).visit visit).result? = none ∧
        runBlock (evaluate depth) visit.scope clause.body middle =
          (evaluate (depth + 1)).visit visit := by
  by_cases attempts : ∃ body handlers cleanup place,
      visit.node = .attempt body handlers cleanup place
  · obtain ⟨body, handlers, cleanup, place, shape⟩ := attempts
    have unwinds := (Account.unwinds_stepApart shape fun _ => evaluate depth).passes part
      (.signal (.returned value)) after started returned
    cases unwinds.evaluate fun _ => nofun with
    | passed ended => exact .inl ⟨_, ended⟩
    | @superseded clause middle last unvalued ran =>
        subst last
        exact .inr ⟨body, handlers, clause, place, middle, shape, unvalued, ran⟩
    | caught ran given chosen => cases given
  · have traced : (Account.silent depth visit.world.loader).Traced (Passing fun _ => True)
        fun parts => stepApart parts (evaluate depth) visit.scope visit.node :=
      Account.traced_parts visit.scope fun body handlers cleanup place shape =>
        attempts ⟨body, handlers, cleanup, place, shape⟩
    obtain ⟨last, stepped⟩ := (traced visit.world rfl).passes part (.signal (.returned value)) after
      started returned trivial
    exact .inl ⟨last, evaluate_of_stepApart stepped fun _ _ => nofun⟩

/-- By induction on the evaluations in between. -/
theorem Visit.Within.returns {depth level : Nat} {visit inner : Visit}
    (within : Visit.Within depth visit level inner) {value : Handle} {after : World}
    (returned : (evaluate level).visit inner = .signal (.returned value) after) :
    (∃ last, (evaluate depth).visit visit = .signal (.returned value) last) ∨
      Visit.Superseded depth visit level inner := by
  induction within generalizing after with
  | self depth visit => exact .inl ⟨after, returned⟩
  | @part depth level visit part inner started within ih =>
      rcases ih returned with ⟨last, passed⟩ | superseded
      · rcases started.returns passed with unwound | ⟨body, handlers, clause, place, middle, rest⟩
        · exact .inl unwound
        · exact .inr ⟨depth, visit, body, handlers, clause, place, middle, .self _ _,
            .part started within, rest⟩
      · exact .inr (superseded.part started)

/-- Calls end in values, in what is thrown or leaves everything, or in errors. What is returned in the
called code, with no further call around it, is the value of the call, unless the final block of an
attempt around it ends in another way. All other signals that end the called code, or a required
module, end the call and the node that calls as they are. -/
theorem calls_take_returns (depth : Nat) (value : Handle) (arguments : List Handle)
    (caller : Scope) (world : World) :
    let called := fun evaluator => call evaluator value arguments caller
    (∀ result after, called (evaluate depth) world ≠ .signal (.returned result) after) ∧
    (∀ visit level inner result after, Starts called (evaluate depth) world visit →
      Visit.Within depth visit level inner →
      (evaluate level).visit inner = .signal (.returned result) after →
      (∃ last, called (evaluate depth) world = .value result last) ∨
        Visit.Superseded depth visit level inner) ∧
    (∀ visit raised after, Starts called (evaluate depth) world visit →
      (evaluate depth).visit visit = .signal raised after → raised.Crosses →
      ∃ last, called (evaluate depth) world = .signal raised last) ∧
    (∀ visit inner raised after, Visit.HasCalled depth visit inner →
      (evaluate depth).visit inner = .signal raised after → raised.Crosses →
      ∃ last, (evaluate (depth + 1)).visit visit = .signal raised last) := by
  intro called
  have traced : (Account.silent depth world.loader).Traced LeavesCall called :=
    Account.traced_call Account.Traced.visit value arguments caller
  have leaves {visit : Visit} {raised : Signal} {after : World}
      (started : Starts called (evaluate depth) world visit)
      (ended : (evaluate depth).visit visit = .signal raised after) :
      LeavesCall (.signal raised) (called (evaluate depth) world) :=
    (traced world rfl).passes visit (.signal raised) after started ended
  refine ⟨neverReturns_call (evaluate depth) value arguments caller world,
    fun visit level inner result after started within returned => ?_,
    fun visit raised after started ended => (leaves started ended).passing,
    fun visit inner raised after started ended crosses => ?_⟩
  · rcases within.returns returned with ⟨last, passed⟩ | superseded
    · exact .inl (leaves started passed)
    · exact .inr superseded
  · have calling : (Account.silent depth visit.world.loader).Traced (Passing Unwinding.Crosses)
        fun calls => stepApart (evaluate depth) calls visit.scope visit.node :=
      Account.traced_calls visit.scope visit.node
    obtain ⟨last, stepped⟩ :=
      (calling visit.world rfl).passes inner (.signal raised) after started ended crosses
    exact ⟨last, evaluate_of_stepApart stepped fun _ _ => nofun⟩

/-- In a call of `-> { { return true } }` the value is returned out of the inner block, too. -/
theorem calls_take_returns_from_block :
    let place := Location.start "text"
    let returning : Node := .returning (some (.reference ⟨"true", place⟩)) place
    let inside : Block := ⟨[returning], place⟩
    let body : Block := ⟨[.block inside], place⟩
    let start := World.fresh ⟨fun _ name paths => .refused (.missingModule name paths)⟩ []
    ∃ lambda world visit inner after,
      newLambda Kernel.globals [⟨[], .block body⟩] start = .value lambda world ∧
      Starts (fun evaluator => call evaluator lambda [] Kernel.globals) (evaluate 3) world visit ∧
      Visit.Within 3 visit 2 inner ∧
      (evaluate 2).visit inner = .signal (.returned .trueValue) after ∧
      ((∃ last, call (evaluate 3) lambda [] Kernel.globals world = .value .trueValue last) ∨
        Visit.Superseded 3 visit 2 inner) := by
  intro place returning inside body start
  let lambda := Payload.lambda ⟨Kernel.globals, [⟨[], .block body⟩], none⟩
  let made := start.heap.add (.instanceOf KernelClass.lambda.handle lambda)
  let world : World := { start with heap := made.2 }
  let first := world.frames.child Kernel.globals
  let visit : Visit := ⟨first.1, .block inside, { world with frames := first.2 }⟩
  let second := first.2.child first.1
  let inner : Visit := ⟨second.1, returning, { world with frames := second.2 }⟩
  let alone (outcome : Outcome Handle) : Action Handle := Action.bind (fun _ => outcome) pure
  have started : Starts (fun evaluator => call evaluator made.1 [] Kernel.globals) (evaluate 3)
      world visit :=
    Evaluator.starts_of_reaches (fun outcome => catchReturned (alone outcome) visit.world)
      (fun other => rfl) id trivial
  have part : visit.HasPart 2 inner :=
    Evaluator.starts_of_reaches (fun outcome => alone outcome inner.world) (fun other => rfl) id
      trivial
  have within : Visit.Within 3 visit 2 inner := .part part (.self 2 inner)
  have returned : (evaluate 2).visit inner = .signal (.returned .trueValue) inner.world := rfl
  have taken := (calls_take_returns 3 made.1 [] Kernel.globals world).2.1 visit 2 inner .trueValue
    inner.world started within returned
  exact ⟨made.1, world, visit, inner, inner.world, rfl, started, within, returned, taken⟩

end RipInterpreter
