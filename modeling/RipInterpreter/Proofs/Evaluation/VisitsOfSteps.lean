import RipInterpreter.Proofs.Evaluation.Attribution
import RipInterpreter.Proofs.Evaluation.Cleanup
import RipInterpreter.Proofs.Evaluation.Visits

namespace RipInterpreter

open Syntax

variable {α β : Type}

/-- What the end of the code of a call is to the caller: what was returned is the value. -/
def Completion.leave : Completion Handle → Completion Handle
  | .signal (.returned handle) => .value handle
  | completion => completion

/-- How the call ends whose code ended without a value. -/
def LeavesCall (raised : Unwinding) (outcome : Outcome Handle) : Prop :=
  ∃ last, outcome = (raised.completion : Completion Handle).leave.resume last

/-- The signals that go through calls. -/
def Signal.Crosses (raised : Signal) : Prop := ∀ value, raised ≠ .returned value

/-- Errors go through calls, too. -/
def Unwinding.Crosses : Unwinding → Prop
  | .signal raised => raised.Crosses
  | .failure _ => True

theorem LeavesCall.passing {raised : Unwinding} {outcome : Outcome Handle}
    (leaves : LeavesCall raised outcome) : Passing Unwinding.Crosses raised outcome := by
  intro crosses
  cases raised with
  | failure error => exact leaves
  | signal raised =>
      cases raised with
      | returned value => exact absurd rfl (crosses value)
      | _ => exact leaves

namespace Action

/-- Evaluates a node like `step`, with an evaluator for the nodes inside it and one for the code that
it calls. -/
def stepApart (parts calls : Evaluator) (scope : Scope) : Node → Action Handle
  | .interpolation body _ => do
    let last ← run parts (← enter scope) body
    send calls last "to_string" [] scope
  | .invocation callable arguments _ => do
    let callable ← parts scope callable
    let arguments ← evaluateAll parts scope arguments
    call calls callable arguments scope
  | .conditional condition body otherwise _ => do
    let value ← parts scope condition
    if ← holds calls scope value then runBlock parts scope body
    else runBlock parts scope otherwise
  | node => step parts scope node

theorem stepApart_same (evaluator : Evaluator) (scope : Scope) (node : Node) :
    stepApart evaluator evaluator scope node = step evaluator scope node := by
  cases node <;> rfl

theorem catchReturned_eq (action : Action Handle) :
    catchReturned action = settle action >>= fun completion => completion.leave.resume := by
  funext world
  rw [bind_apply]
  unfold catchReturned settle
  cases action world with
  | signal raised after => cases raised <;> rfl
  | _ => rfl

/-- What becomes of the end of a module. -/
def leaveModule (path : String) (completion : Completion Handle) : Action Handle := do
  let key := Path.key path
  change fun world => { world with loading := world.loading.filter (· != key) }
  match completion with
  | .value value | .signal (.returned value) =>
    change fun world => { world with loaded := (key, value) :: world.loaded }
    return value
  | completion => completion.resume

theorem runModule_eq (evaluator : Evaluator) (path : String) (module : Syntax.Module) :
    runModule evaluator path module = (do
      change fun world => { world with loading := Path.key path :: world.loading }
      let scope ← enterFrom Kernel.globals path
      settle (run evaluator scope module.statements) >>= leaveModule path) := rfl

theorem leaveModule_leaves (path : String) (completion : Completion Handle) (world : World) :
    ∃ after, after.loader = world.loader ∧
      leaveModule path completion world = completion.leave.resume after := by
  cases completion with
  | signal raised => cases raised <;> exact ⟨_, by rfl, rfl⟩
  | _ => exact ⟨_, by rfl, rfl⟩

theorem settle_bind_apply (action : Action α) (next : Completion α → Action β) (world : World) :
    (settle action >>= next) world = match action world with
      | .value result after => next (.value result) after
      | .signal raised after => next (.signal raised) after
      | .failure error after => next (.failure error) after
      | .halted reason => .halted reason := by
  rw [bind_apply]
  unfold settle
  cases action world <;> rfl

end Action

theorem loader_evaluate (depth : Nat) (scope : Scope) (node : Node) (world after : World)
    (left : (evaluate depth scope node world).world? = some after) : after.loader = world.loader := by
  have fits : Side.full.Fits depth depth := Nat.le_refl depth
  have mirrored := (mirrors_evaluate fits).nodes scope node world
  generalize evaluate depth scope node world = outcome at left mirrored
  generalize evaluate depth scope node.bare world.stripped = bare at mirrored
  cases mirrored with
  | cut => cases left
  | cutBare earlier => cases earlier
  | _ =>
      cases left
      assumption

open RipInterpreter.Action
open Evaluator (Starts)

/-- What a node passes on of its step, if that is no error without a place. -/
theorem evaluate_of_stepApart {depth : Nat} {visit : Visit} {outcome : Outcome Handle}
    (stepped : stepApart (evaluate depth) (evaluate depth) visit.scope visit.node visit.world =
      outcome) (located : ∀ error after, outcome = .failure error after → error.Located) :
    (evaluate (depth + 1)).visit visit = outcome := by
  rw [stepApart_same] at stepped
  change locate visit.node.location (step (evaluate depth) visit.scope visit.node) visit.world = _
  unfold locate
  rw [stepped]
  cases outcome with
  | failure error after => exact congrArg (Outcome.failure · after) (located error after rfl _)
  | _ => rfl

namespace Account

variable {account : Account}

/-- The code of a call, and what becomes of its end. -/
theorem Traced.leave {action : Evaluator → Action Handle} {leave : Completion Handle → Action Handle}
    (traced : account.Traced (Passing fun _ => True) action)
    (leaves : ∀ completion world, ∃ after, after.loader = world.loader ∧
      leave completion world = completion.leave.resume after) :
    account.Traced LeavesCall fun evaluator => Action.settle (action evaluator) >>= leave := by
  have ends (action : Action Handle) (world : World) :
      ((Action.settle action >>= leave) world).Ends ↔ (action world).Ends := by
    have left (completion : Completion Handle) (after : World) : (leave completion after).Ends := by
      obtain ⟨last, -, left⟩ := leaves completion after
      rw [left]
      cases completion.leave <;> trivial
    rw [settle_bind_apply]
    cases action world with
    | halted reason => rfl
    | _ => exact iff_of_true (left _ _) trivial
  intro world loaded
  have before := traced world loaded
  have started {visit : Visit} :
      Starts (fun evaluator => Action.settle (action evaluator) >>= leave) account.evaluator world
          visit ↔
        Starts action account.evaluator world visit :=
    and_congr (ends _ _) (not_congr (ends _ _))
  refine ⟨fun visit left => ?_, fun visit raised after inside ended => ?_,
    fun error after failed => ?_, fun after left => ?_⟩
  · rw [settle_bind_apply, settle_bind_apply, before.same visit ((ends _ _).mp left)]
  · obtain ⟨last, passed⟩ := before.passes visit raised after (started.mp inside) ended trivial
    obtain ⟨later, -, left⟩ := leaves raised.completion last
    exact ⟨later, (bind_of_value (Unwinding.settle_eq_value_iff.mpr passed) leave).trans left⟩
  · have answers := before.answers
    rw [settle_bind_apply] at failed
    cases ran : action account.evaluator world with
    | failure reason middle =>
        rw [ran] at failed answers
        obtain ⟨later, -, left⟩ := leaves (.failure reason) middle
        cases left.symm.trans failed
        rcases answers error middle rfl with own | ⟨visit, inside, blamed⟩
        · exact .inl own
        · exact .inr ⟨visit, started.mpr inside, blamed⟩
    | value result middle =>
        rw [ran] at failed
        obtain ⟨later, -, left⟩ := leaves (.value result) middle
        cases left.symm.trans failed
    | signal raised middle =>
        rw [ran] at failed
        obtain ⟨later, -, left⟩ := leaves (.signal raised) middle
        cases raised <;> cases left.symm.trans failed
    | halted reason =>
        rw [ran] at failed
        cases failed
  · have kept := before.keeps
    have later (completion : Completion Handle) (middle : World)
        (ended : (leave completion middle).world? = some after) : after.loader = middle.loader := by
      obtain ⟨last, same, left⟩ := leaves completion middle
      rw [left] at ended
      cases resumed : completion.leave <;> rw [resumed] at ended <;> cases ended <;> exact same
    rw [settle_bind_apply] at left
    cases ran : action account.evaluator world with
    | halted reason =>
        rw [ran] at left
        cases left
    | _ =>
        rw [ran] at left kept
        exact (later _ _ left).trans (kept _ rfl)

/-- A value, and then a signal that carries it. The signal is no end of an evaluation. -/
theorem Traced.raise {passed : Unwinding → Prop} {action : Evaluator → Action Handle}
    (traced : account.Traced (Passing passed) action) (signal : Handle → Signal) :
    account.Traced (Passing passed) fun evaluator => (do
      raise (signal (← action evaluator)) : Action Handle) :=
  traced.bind fun value _ _ => .still (fun _ _ failed => nomatch failed) fun _ left => by
    cases left
    rfl

section

variable {passed : Unwinding → Prop} {parts : Evaluator → Evaluator}
  (served : ∀ scope node, account.Traced (Passing passed) fun evaluator => parts evaluator scope node)
include served

theorem traced_run (scope : Scope) (statements : List Node) :
    account.Traced (Passing passed) fun evaluator => run (parts evaluator) scope statements := by
  have ran (last : Handle) : account.Traced (Passing passed) fun evaluator =>
      runFrom (parts evaluator) scope last statements := by
    induction statements generalizing last with
    | nil => exact .quiet (.pure last)
    | cons statement rest ih => exact (served scope statement).bind fun _ => ih _
  exact ran .nil

theorem traced_runBlock (scope : Scope) (block : Block) :
    account.Traced (Passing passed) fun evaluator => runBlock (parts evaluator) scope block :=
  .after (quiet_enter scope) fun inner => traced_run served inner block.statements

theorem traced_evaluateAll (scope : Scope) (nodes : List Node) :
    account.Traced (Passing passed) fun evaluator => evaluateAll (parts evaluator) scope nodes :=
  .mapM fun node _ => served scope node

theorem traced_evaluatePair (scope : Scope) (pair : Pair) :
    account.Traced (Passing passed) fun evaluator => evaluatePair (parts evaluator) scope pair :=
  (served scope pair.key).bind fun _ => (served scope pair.value).bind fun _ =>
    .quiet (Quiet.law.newKeyValue _ _)

theorem traced_assign (scope : Scope) (target value : Node) :
    account.Traced (Passing passed) fun evaluator => assign (parts evaluator) scope target value := by
  unfold assign
  split
  · rename_i name
    have bound (value : Handle) : (bindName scope name.text value >>= fun _ =>
        (pure value : Action Handle)).Quiet :=
      (quiet_bindName scope name.text value).bind fun _ => .pure value
    refine (served scope value).bind fun value => .quiet ((Quiet.law.ask _).bind fun isClass => ?_)
    cases isClass with
    | true => exact (Quiet.law.nameClass value name.text).bind fun _ => bound value
    | false => exact bound value
  · rename_i object key place
    exact (served scope object).bind fun object => (served scope value).bind fun value =>
      .quiet ((Quiet.law.set object key value).bind fun _ => .pure value)
  · exact .quiet (Quiet.law.fail rfl)

theorem traced_evaluateOverload (scope : Scope) (definition : Lambda) :
    account.Traced (Passing passed) fun evaluator =>
      evaluateOverload (parts evaluator) scope definition := by
  refine Traced.bind (.mapM fun parameter _ => ?_) fun _ => .quiet (.pure _)
  unfold evaluateParameter
  split
  · exact .quiet (.pure _)
  · exact (served scope parameter).bind fun _ => .quiet (.pure _)

theorem traced_evaluateClass (scope : Scope) {ancestors : List Node} (body : Block)
    (parented : ∀ ancestor ∈ ancestors, account.Traced (Passing passed) fun evaluator =>
      evaluateParent (parts evaluator) scope ancestor) :
    account.Traced (Passing passed) fun evaluator =>
      evaluateClass (parts evaluator) scope ancestors body :=
  Traced.bind (.mapM parented) fun parents => .after (Quiet.law.newClass none parents) fun made =>
    .after (Quiet.law.get made "@") fun prototype => .after (quiet_enter scope) fun inner =>
      .after (quiet_bindName inner "self" made) fun _ =>
        .after (quiet_bindName inner "@" prototype) fun _ =>
          (traced_run served inner body.statements).bind fun _ => .quiet (.pure made)

theorem traced_matchesAny (scope : Scope) (subject : Handle) (matchers : List Node) :
    account.Traced (Passing passed) fun evaluator =>
      matchesAny (parts evaluator) scope subject matchers := by
  induction matchers with
  | nil => exact .quiet (.pure false)
  | cons matcher rest ih =>
      refine (served scope matcher).bind fun candidate => .after (Quiet.law.ask _) fun same => ?_
      cases same with
      | true => exact .quiet (.pure true)
      | false => exact ih

theorem traced_findCase (scope : Scope) (subject : Handle) (cases : List Case) :
    account.Traced (Passing passed) fun evaluator =>
      findCase (parts evaluator) scope subject cases := by
  induction cases with
  | nil => exact .quiet (.pure none)
  | cons case rest ih =>
      refine (traced_matchesAny served scope subject case.matchers).bind fun found => ?_
      cases found with
      | true => exact .quiet (.pure _)
      | false => exact ih

theorem traced_evaluateSwitch (scope : Scope) (subject : Node) (cases : List Case)
    (otherwise : Option Clause) :
    account.Traced (Passing passed) fun evaluator =>
      evaluateSwitch (parts evaluator) scope subject cases otherwise := by
  refine (served scope subject).bind fun value =>
    (traced_findCase served scope value cases).bind fun found => ?_
  cases found with
  | some body => exact traced_runBlock served scope body
  | none =>
      cases otherwise with
      | some clause => exact traced_runBlock served scope clause.body
      | none => exact .quiet ((Quiet.law.ask _).bind fun _ => Quiet.law.fault _)

theorem traced_evaluatePayload (scope : Scope) (payload : Option Node) :
    account.Traced (Passing passed) fun evaluator =>
      evaluatePayload (parts evaluator) scope payload := by
  cases payload with
  | none => exact .quiet (.pure _)
  | some node => exact served scope node

/-- One case per kind of node. What becomes of the parents of a class, and of attempts, depends on
what the account says of errors and on which signals are to pass. -/
theorem traced_stepApart {calls : Evaluator → Evaluator} (scope : Scope) (node : Node)
    (called : ∀ value arguments, account.Traced (Passing passed) fun evaluator =>
      call (calls evaluator) value arguments scope)
    (parented : ∀ ancestors body place, node = .classDefinition ancestors body place →
      ∀ ancestor ∈ ancestors, account.Traced (Passing passed) fun evaluator =>
        evaluateParent (parts evaluator) scope ancestor)
    (attempted : ∀ body handlers cleanup place, node = .attempt body handlers cleanup place →
      account.Traced (Passing passed) fun evaluator =>
        attempt (parts evaluator) scope body handlers cleanup) :
    account.Traced (Passing passed) fun evaluator =>
      stepApart (parts evaluator) (calls evaluator) scope node := by
  have made := Quiet.law.newInstance
  have sent (receiver : Handle) (method : String) : account.Traced (Passing passed) fun evaluator =>
      send (calls evaluator) receiver method [] scope :=
    .after (Quiet.law.get receiver method) fun _ => called _ _
  cases node with
  | comment text place => exact .quiet (.pure _)
  | reference name =>
      refine .quiet (Quiet.law.world.bind fun state => ?_)
      split
      · exact .pure _
      · exact Quiet.law.fault _
  | integer digits place => exact .quiet (Quiet.law.integerLiteral digits)
  | decimal digits place =>
      change account.Traced (Passing passed) fun _ => decimalLiteral digits
      exact .quiet (Quiet.law.decimalLiteral digits)
  | character glyph => exact .quiet (made _ _)
  | string glyphs place => exact .quiet (made _ _)
  | regularExpression glyphs place => exact .quiet (made _ _)
  | interpolation body place =>
      exact .after (quiet_enter scope) fun inner => (traced_run served inner body).bind fun last =>
        sent last "to_string"
  | keyValue pair => exact traced_evaluatePair served scope pair
  | range start last exclusive place =>
      exact (served scope start).bind fun _ => (served scope last).bind fun _ =>
        .quiet (Quiet.law.newRange _ _ _)
  | list items place =>
      exact (traced_evaluateAll served scope items).bind fun _ => .quiet (made _ _)
  | map pairs place =>
      exact Traced.bind (.mapM fun pair _ => traced_evaluatePair served scope pair) fun _ =>
        .quiet (made _ _)
  | assignment target value place => exact traced_assign served scope target value
  | property object key place =>
      exact (served scope object).bind fun _ => .quiet (Quiet.law.get _ key)
  | invocation callable arguments place =>
      exact (served scope callable).bind fun _ =>
        (traced_evaluateAll served scope arguments).bind fun _ => called _ _
  | lambda definition =>
      exact (traced_evaluateOverload served scope definition).bind fun _ => .quiet (made _ _)
  | overloads definitions place =>
      exact Traced.bind (.mapM fun definition _ => traced_evaluateOverload served scope definition)
        fun _ => .quiet (made _ _)
  | classDefinition ancestors body place =>
      exact traced_evaluateClass served scope body (parented ancestors body place rfl)
  | block body => exact traced_runBlock served scope body
  | conditional condition body otherwise place =>
      refine (served scope condition).bind fun value =>
        Traced.bind ((sent value "to_boolean").bind fun _ => .quiet (.pure _)) fun truth => ?_
      cases truth with
      | true => exact traced_runBlock served scope body
      | false => exact traced_runBlock served scope otherwise
  | switch subject cases otherwise place =>
      exact traced_evaluateSwitch served scope subject cases otherwise
  | attempt body handlers cleanup place => exact attempted body handlers cleanup place rfl
  | throwing payload place => exact (served scope payload).raise fun value => .thrown value place
  | returning payload place => exact (traced_evaluatePayload served scope payload).raise .returned
  | exiting payload place => exact (traced_evaluatePayload served scope payload).raise .exited

end

section

variable {calls : Evaluator → Evaluator}
  (served : ∀ scope node,
    account.Traced (Passing fun _ => True) fun evaluator => calls evaluator scope node)
include served

theorem traced_callBlock (callable : Callable) (parameters : List Parameter)
    (arguments : List Handle) (body : Block) :
    account.Traced LeavesCall fun evaluator =>
      callBlock (calls evaluator) callable parameters arguments body := by
  refine .after (quiet_enter callable.closure) fun frame => ?_
  have ran : account.Traced LeavesCall fun evaluator => bindParameters frame parameters arguments >>=
      fun _ => catchReturned (run (calls evaluator) frame body.statements) := by
    refine .after (quiet_bindParameters frame parameters arguments) fun _ => ?_
    simp only [catchReturned_eq]
    exact (traced_run served frame body.statements).leave fun _ world => ⟨world, rfl, rfl⟩
  cases callable.receiver with
  | none => exact ran
  | some receiver => exact .after (quiet_bindName frame "@" receiver) fun _ => ran

theorem traced_runModule (path : String) (module : Syntax.Module) :
    account.Traced LeavesCall fun evaluator => runModule (calls evaluator) path module := by
  simp only [runModule_eq]
  have began : (change fun world =>
      { world with loading := Path.key path :: world.loading }).Quiet := fun _ => .value rfl
  exact .after began fun _ => .after (quiet_enterFrom _ path) fun scope =>
    (traced_run served scope module.statements).leave (leaveModule_leaves path)

theorem traced_settleAnswer {answer : LoadAnswer}
    (answered : ∃ request name searchPaths,
      account.loader.answer request name searchPaths = answer) :
    account.Traced LeavesCall fun evaluator => settleAnswer (calls evaluator) answer := by
  cases answer with
  | refused error =>
      obtain ⟨request, name, searchPaths, refused⟩ := answered
      intro world loaded
      refine .still (fun reason after failed => ?_) fun after left => ?_
      · cases failed
        exact account.refused request name searchPaths error refused
      · cases left
        rfl
  | unseen path => exact .quiet fun _ => .halted _
  | found path module =>
      refine .after Quiet.law.world fun state => ?_
      cases state.loaded.lookup (Path.key path) with
      | some value => exact .quiet (.pure value)
      | none =>
          dsimp only
          cases state.loading.contains (Path.key path) with
          | true => exact .quiet (Quiet.law.fault _)
          | false => exact traced_runModule served path module

theorem traced_require (name : String) (scope : Scope) :
    account.Traced LeavesCall fun evaluator => require (calls evaluator) name scope := by
  intro world loaded
  have requested : account.TracedAt (fun _ _ => False) (fun _ => requestModule name scope) world :=
    .still (fun _ _ failed => nomatch failed) fun _ left => by
      cases left
      rfl
  refine requested.bind (fun answer middle ran => ?_) fun _ => False.elim
  cases ran
  exact traced_settleAnswer served ⟨_, _, _, by rw [← loaded]⟩ _ loaded

theorem traced_runMethod (method : Method) (call : Call) :
    account.Traced LeavesCall fun evaluator => runMethod (calls evaluator) method call := by
  by_cases requiring : method = .require
  · subst requiring
    exact .after (Quiet.law.argumentOf call 0) fun _ => .after (Quiet.law.stringValue _) fun _ =>
      traced_require served _ _
  · simp only [runMethod_eq account.evaluator _ requiring]
    exact .quiet (Quiet.law.runMethod account.evaluator requiring call)

theorem traced_call (value : Handle) (arguments : List Handle) (caller : Scope) :
    account.Traced LeavesCall fun evaluator => call (calls evaluator) value arguments caller := by
  refine .after (Quiet.law.payload value) fun found => ?_
  cases found with
  | lambda callable =>
      refine .after (Quiet.law.ask _) fun selected => ?_
      cases selected with
      | none => exact .quiet (Quiet.law.fault _)
      | some best =>
          obtain ⟨⟨parameters, body⟩, literals⟩ := best
          cases body with
          | method method => exact traced_runMethod served method _
          | block body => exact traced_callBlock served callable parameters arguments body
  | _ => exact .quiet (Quiet.law.bind (Quiet.law.ask _) fun _ => Quiet.law.fault _)

end

/-- An account that says nothing of errors. -/
def silent (depth : Nat) (loader : Loader) : Account where
  evaluator := evaluate depth
  loader := loader
  own _ := True
  cause _ _ := True
  keeps := loader_evaluate depth
  unplaced _ _ := trivial
  refused _ _ _ _ _ := trivial
  failed _ _ _ _ := trivial

section

variable {depth : Nat} {loader : Loader} {passed : Unwinding → Prop} {parts : Evaluator → Evaluator}

/-- Where nothing is said of errors, a step that looks at no evaluator has only to keep the loader. -/
theorem silent_still {α : Type} {meets : Unwinding → Outcome α → Prop} {action : Action α}
    (keeps : action.Relates fun world after => after.loader = world.loader) :
    (silent depth loader).Traced meets fun _ => action :=
  fun world _ => .still (fun _ _ _ => trivial) fun after left => keeps world after left

variable (served : ∀ scope node,
  (silent depth loader).Traced (Passing passed) fun evaluator => parts evaluator scope node)
include served

theorem silent_evaluateParent (scope : Scope) (ancestor : Node) :
    (silent depth loader).Traced (Passing passed) fun evaluator =>
      evaluateParent (parts evaluator) scope ancestor := by
  refine (served scope ancestor).bind fun parent => .after (Quiet.law.ask _) fun isClass => ?_
  cases isClass with
  | true => exact .quiet (.pure parent)
  | false =>
      have kept : (unexpected "Class" parent : Action Handle).ObjectsOnly :=
        ObjectsOnly.law.unexpected "Class" parent
      exact silent_still (.locate (Relates.mono kept fun _ _ same => same.loader) _)

end

end Account

end RipInterpreter
