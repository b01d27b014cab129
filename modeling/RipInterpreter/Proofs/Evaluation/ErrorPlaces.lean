import RipInterpreter.Proofs.Evaluation.Handlers
import RipInterpreter.Proofs.Evaluation.VisitsOfAttempts

/-!
Where errors come from, and that they keep their places. An error of a node is that of an evaluation
that the node starts, as it is; or it arises in the step of the node, and then it has the place of the
node, or of the parent or the handler type that is to blame; or the loader has placed it already.
-/

namespace RipInterpreter

open Syntax
open Evaluator (Starts starts_visit)

/-- The kinds of errors that carry a place: those of programs. -/
def Error.OfProgram : Error → Prop
  | .compiler _ _ | .runtime _ _ => True
  | _ => False

/-- The loader answers some request with the error. -/
def Loader.Refuses (loader : Loader) (error : Error) : Prop :=
  ∃ request name searchPaths, loader.answer request name searchPaths = .refused error

/-- A parent of the class was evaluated to something that is no class, and the error says so at that
parent. -/
structure ParentFails (evaluator : Evaluator) (node : Node) (parent : Visit) (error : Error) :
    Prop where
  listed : ∃ ancestors body place, node = .classDefinition ancestors body place ∧
    parent.node ∈ ancestors
  error : ∃ value after text, evaluator.visit parent = .value value after ∧
    after.heap.isClass value = .ok false ∧ after.heap.inspect value = .ok text ∧
    error = .runtime (.unexpectedType "Class" text) (some parent.node.location)

/-- The search for a handler came to a type without a value, and the error says so at that type. -/
def HandlerFails (visit : Visit) (error : Error) : Prop :=
  ∃ body handlers cleanup place value later missing,
    visit.node = .attempt body handlers cleanup place ∧
    Action.MissesType visit.scope value later handlers missing ∧
    error = .runtime (.unknownReference missing.text) (some missing.location)

/-- The error of an evaluation arises in the step of its node. -/
inductive Visit.Raises (depth : Nat) (visit : Visit) (error : Error) : Prop
  /-- The step does not place it, so it gets the place of the node. -/
  | placed {unplaced : Error} {after : World}
    (failed : Action.step (evaluate depth) visit.scope visit.node visit.world =
      .failure unplaced after)
    (bare : unplaced.location = none) (placed : error = unplaced.locate visit.node.location)
    (here : error.location = some visit.node.location)
  | parent {parent : Visit}
    (started : Starts (fun evaluator => Action.step evaluator visit.scope visit.node)
      (evaluate depth) visit.world parent)
    (fails : ParentFails (evaluate depth) visit.node parent error)
  | handler (fails : HandlerFails visit error)
  /-- The loader placed it. -/
  | loaded (refused : visit.world.loader.Refuses error) (known : error.location ≠ none)

/-- The error of an evaluation came up, as it is, from the evaluation in whose step it arose. -/
inductive Visit.Passes (error : Error) : Nat → Visit → Prop
  | raised {depth : Nat} {visit : Visit} (raised : visit.Raises depth error) :
    Passes error (depth + 1) visit
  | passed {depth : Nat} {visit inner : Visit} {after : World}
    (started : Starts (fun evaluator => Action.step evaluator visit.scope visit.node)
      (evaluate depth) visit.world inner)
    (failed : (evaluate depth).visit inner = .failure error after)
    (passes : Passes error depth inner) : Passes error (depth + 1) visit

/-- An attempt stands in the way of an error: its body ended with it, and a handler takes the new
exception or has a type without a value; or the final block ends in a way of its own, and this is the
end of the attempt. -/
inductive Visit.Overrides (depth : Nat) (visit : Visit) (error : Error) : Prop
  | caught {body : Block} {handlers : List Handler} {cleanup : Option Clause} {place : Location}
    {reason : RuntimeFault} {known : Option Location} {exception : Handle} {middle later : World}
    (attempts : visit.node = .attempt body handlers cleanup place)
    (runtime : error = .runtime reason known)
    (ran : Action.runBlock (evaluate depth) visit.scope body visit.world = .failure error middle)
    (describes : middle.Describes reason.message exception later)
    (chosen : ∀ last, Action.findHandler visit.scope exception handlers later ≠ .value none last)
  | superseded {body : Block} {handlers : List Handler} {clause : Clause} {place : Location}
    {middle : World} (attempts : visit.node = .attempt body handlers (some clause) place)
    (unvalued : ((evaluate (depth + 1)).visit visit).result? = none)
    (ran : Action.runBlock (evaluate depth) visit.scope clause.body middle =
      (evaluate (depth + 1)).visit visit)

namespace Account

/-- What the step of an evaluation says of errors. -/
def ofVisit (depth : Nat) (visit : Visit) : Account where
  evaluator := evaluate depth
  loader := visit.world.loader
  own error := error.location = none ∨ HandlerFails visit error ∨ visit.world.loader.Refuses error
  cause inner error := (∃ after, (evaluate depth).visit inner = .failure error after) ∨
    ParentFails (evaluate depth) visit.node inner error
  keeps := loader_evaluate depth
  unplaced _ unplaced := .inl unplaced
  refused request name searchPaths _ refused := .inr (.inr ⟨request, name, searchPaths, refused⟩)
  failed _ _ after failed := .inl ⟨after, failed⟩

end Account

namespace Action

/-- A value that is no class, where one was expected, is told where it was written. -/
theorem locate_unexpected {place : Location} {expected : String} {value : Handle}
    {world after : World} {error : Error}
    (failed : locate place (unexpected expected value : Action Handle) world = .failure error after) :
    error.location = none ∨ ∃ text, world.heap.inspect value = .ok text ∧
      error = .runtime (.unexpectedType expected text) (some place) := by
  unfold locate at failed
  split at failed
  · rename_i bare last told
    cases failed
    rcases failed_of_bind told with refused | ⟨text, middle, inspected, told⟩
    · obtain ⟨fault, rfl⟩ := ask_eq_failure refused
      exact .inl rfl
    · cases told
      exact .inr ⟨text, (ask_eq_value inspected).1, rfl⟩
  · rename_i other
    exact absurd failed (other error after)

end Action

open RipInterpreter.Action

namespace Account

variable {depth : Nat} {visit : Visit}

theorem answers_evaluateParent {ancestors : List Node} {body : Block} {place : Location}
    (defined : visit.node = .classDefinition ancestors body place) {ancestor : Node}
    (listed : ancestor ∈ ancestors) :
    (ofVisit depth visit).Traced (Passing fun _ => True) fun evaluator =>
      evaluateParent evaluator visit.scope ancestor := by
  intro world loaded
  have traced : (silent depth visit.world.loader).TracedAt (Passing fun _ => True) _ world :=
    silent_evaluateParent Traced.visit visit.scope ancestor world loaded
  refine traced.answered rfl fun error after failed => ?_
  have started : Starts (fun evaluator => evaluateParent evaluator visit.scope ancestor)
      (evaluate depth) world ⟨visit.scope, ancestor, world⟩ := by
    have ends : (evaluateParent (evaluate depth) visit.scope ancestor world).Ends := by
      change evaluateParent (evaluate depth) visit.scope ancestor world = _ at failed
      rw [failed]
      trivial
    exact (starts_visit (Evaluator.ends_of_bind ends)).first ends
  change evaluateParent (evaluate depth) visit.scope ancestor world = _ at failed
  rcases failed_of_bind failed with ended | ⟨parent, middle, ended, failed⟩
  · exact .inr ⟨_, started, .inl ⟨after, ended⟩⟩
  · rcases failed_of_bind failed with refused | ⟨isClass, last, asked, failed⟩
    · exact .inl (.inl ((Quiet.law.ask _).unplaced refused))
    · obtain ⟨classified, rfl⟩ := ask_eq_value asked
      cases isClass with
      | true => cases failed
      | false =>
          rcases locate_unexpected failed with unplaced | ⟨text, inspected, shape⟩
          · exact .inl (.inl unplaced)
          · exact .inr ⟨_, started, .inr ⟨⟨ancestors, body, place, defined, listed⟩,
              parent, last, text, ended, classified, inspected, shape⟩⟩

/-- What the step of a node says of errors is true. -/
theorem traced_step : (ofVisit depth visit).Traced (Passing fun _ => False) fun evaluator =>
    step evaluator visit.scope visit.node := by
  simp only [← stepApart_same]
  refine traced_stepApart Traced.visit visit.scope visit.node (fun value arguments => ?_)
    (fun ancestors body place defined ancestor listed =>
      (answers_evaluateParent defined listed).less fun _ => False.elim)
    fun body handlers cleanup place defined => ?_
  · exact (traced_call Traced.visit value arguments visit.scope).mono fun _ _ _ => False.elim
  · exact traced_attempt visit.scope body cleanup fun value later missing misses =>
      .inr (.inl ⟨body, handlers, cleanup, place, value, later, missing, defined, misses, rfl⟩)

end Account

theorem Error.locate_of_placed {error : Error} (placed : error.location ≠ none) (place : Location) :
    error.locate place = error := by
  cases error with
  | compiler fault known =>
      cases known with
      | none => exact absurd rfl placed
      | some known => rfl
  | runtime fault known =>
      cases known with
      | none => exact absurd rfl placed
      | some known => rfl
  | _ => rfl

theorem Error.location_locate {error : Error} {place : Location} (unplaced : error.location = none)
    (program : (error.locate place).OfProgram) : (error.locate place).location = some place := by
  cases error with
  | compiler fault known =>
      cases unplaced
      rfl
  | runtime fault known =>
      cases unplaced
      rfl
  | _ => exact program.elim

/-- The step of an evaluation: its error arises there, or is that of an evaluation it starts. -/
theorem Visit.raises_or_starts {depth : Nat} {visit : Visit} {error : Error} {after : World}
    (failed : (evaluate (depth + 1)).visit visit = .failure error after)
    (program : error.OfProgram) :
    visit.Raises depth error ∨ ∃ inner middle,
      Starts (fun evaluator => Action.step evaluator visit.scope visit.node) (evaluate depth)
        visit.world inner ∧ (evaluate depth).visit inner = .failure error middle := by
  obtain ⟨bare, stepped, rfl⟩ : ∃ bare, step (evaluate depth) visit.scope visit.node visit.world =
      .failure bare after ∧ error = bare.locate visit.node.location := by
    change locate visit.node.location _ visit.world = _ at failed
    unfold locate at failed
    split at failed
    · rename_i bare last stepped
      cases failed
      exact ⟨bare, stepped, rfl⟩
    · rename_i other
      exact absurd failed (other error after)
  by_cases unplaced : bare.location = none
  · exact .inl (.placed stepped unplaced rfl (Error.location_locate unplaced program))
  · rw [Error.locate_of_placed unplaced]
    have traced := @Account.traced_step depth visit visit.world rfl
    rcases traced.answers bare after stepped with
      (bare | missed | refused) | ⟨inner, started, ⟨middle, failed⟩ | parent⟩
    · exact absurd bare unplaced
    · exact .inl (.handler missed)
    · exact .inl (.loaded refused unplaced)
    · exact .inr ⟨inner, middle, started, failed⟩
    · exact .inl (.parent started parent)

/-- The error of an evaluation ends the evaluation that started it, unless an attempt keeps it from
doing so. -/
theorem Visit.carries_error {depth : Nat} {visit inner : Visit} {error : Error} {after : World}
    (started : Starts (fun evaluator => Action.step evaluator visit.scope visit.node)
      (evaluate depth) visit.world inner)
    (failed : (evaluate depth).visit inner = .failure error after) :
    (∃ last, (evaluate (depth + 1)).visit visit = .failure error last) ∨
      visit.Overrides depth error := by
  have located : error.Located := failsLocated_evaluate depth _ _ _ error after failed
  simp only [← stepApart_same] at started
  by_cases attempts : ∃ body handlers cleanup place,
      visit.node = .attempt body handlers cleanup place
  · obtain ⟨body, handlers, cleanup, place, shape⟩ := attempts
    have unwinds := (Account.unwinds_stepApart shape id).passes inner (.failure error) after
      started failed
    cases unwinds.evaluate fun _ same => Unwinding.failure.inj same ▸ located with
    | passed ended => exact .inl ⟨_, ended⟩
    | @superseded clause middle last unvalued ran =>
        subst last
        exact .inr (.superseded shape unvalued ran)
    | @caught value middle later ran given chosen =>
        cases error with
        | runtime reason known =>
            obtain ⟨exception, last, made, describes⟩ := describes_newException reason.message middle
            have given : (some <$> newException reason.message) middle = .value (some value) later :=
              given
            rw [map_eq_pure_bind, bind_of_value made] at given
            cases given
            exact .inr (.caught shape rfl ran describes chosen)
        | _ => cases given
  · have traced : (Account.silent depth visit.world.loader).Traced (Passing Unwinding.Crosses)
        fun evaluator => stepApart evaluator evaluator visit.scope visit.node :=
      Account.traced_stepApart Account.Traced.visit visit.scope visit.node
        (fun value arguments => (Account.traced_call Account.Traced.visit value arguments
          visit.scope).mono fun _ _ leaves => leaves.passing)
        (fun _ _ _ _ ancestor _ => Account.silent_evaluateParent Account.Traced.visit visit.scope
          ancestor)
        fun body handlers cleanup place shape => absurd ⟨body, handlers, cleanup, place, shape⟩ attempts
    obtain ⟨last, stepped⟩ := (traced visit.world rfl).passes inner (.failure error) after started
      failed trivial
    exact .inl ⟨last, evaluate_of_stepApart stepped fun _ _ same => by cases same; exact located⟩

/-- By induction on the depth: what a step starts runs one level deeper. -/
theorem Visit.passes_of_failed {depth : Nat} {visit : Visit} {error : Error} {after : World}
    (failed : (evaluate depth).visit visit = .failure error after) (program : error.OfProgram) :
    Visit.Passes error depth visit := by
  induction depth generalizing visit after with
  | zero => cases failed
  | succ depth ih =>
      rcases Visit.raises_or_starts failed program with raised | ⟨inner, middle, started, inside⟩
      · exact .raised raised
      · exact .passed started inside (ih inside)

theorem Visit.Raises.placed_somewhere {depth : Nat} {visit : Visit} {error : Error}
    (raised : visit.Raises depth error) : error.location ≠ none := by
  cases raised with
  | placed _ _ _ here => simp [here]
  | parent _ fails =>
      obtain ⟨value, after, text, -, -, -, rfl⟩ := fails.error
      exact Option.some_ne_none _
  | handler fails =>
      obtain ⟨body, handlers, cleanup, place, value, later, missing, -, -, rfl⟩ := fails
      exact Option.some_ne_none _
  | loaded _ known => exact known

theorem Visit.Passes.placed_somewhere {depth : Nat} {visit : Visit} {error : Error}
    (passes : Visit.Passes error depth visit) : error.location ≠ none := by
  induction passes with
  | raised raised => exact raised.placed_somewhere
  | passed _ _ _ ih => exact ih

namespace Action

/-- The error of a run is that of one of its statements. -/
theorem runFrom_failed {evaluator : Evaluator} {scope : Scope} {last : Handle}
    {statements : List Node} {world : World} {error : Error} {after : World}
    (failed : runFrom evaluator scope last statements world = .failure error after) :
    ∃ visit middle, visit.node ∈ statements ∧
      Starts (fun evaluator => runFrom evaluator scope last statements) evaluator world visit ∧
      evaluator.visit visit = .failure error middle := by
  induction statements generalizing last world with
  | nil => cases failed
  | cons statement rest ih =>
      have ends : (runFrom evaluator scope last (statement :: rest) world).Ends := by
        rw [failed]
        trivial
      rcases failed_of_bind failed with ended | ⟨result, middle, ended, failed⟩
      · exact ⟨⟨scope, statement, world⟩, after, List.mem_cons_self,
          (starts_visit (Evaluator.ends_of_bind ends)).first ends, ended⟩
      · obtain ⟨visit, later, listed, started, blamed⟩ := ih failed
        exact ⟨visit, later, List.mem_cons_of_mem statement listed,
          started.second Evaluator.without_of_ends ended, blamed⟩

theorem uncaught_failed {value : Handle} {place : Location} {world after : World} {error : Error}
    (failed : (uncaught value place : Action Handle) world = .failure error after)
    (program : error.OfProgram) : ∃ text, error = .runtime (.uncaught text) (some place) := by
  have asked {α : Type} {question : Heap → Except ReadFault α} {world : World} :
      ask question world ≠ .failure error after := by
    intro refused
    obtain ⟨fault, rfl⟩ := ask_eq_failure refused
    exact program
  rcases failed_of_bind failed with refused | ⟨message, middle, -, failed⟩
  · exact absurd refused asked
  · cases message with
    | some message =>
        cases failed
        exact ⟨message, rfl⟩
    | none =>
        rcases failed_of_bind failed with refused | ⟨text, last, -, failed⟩
        · exact absurd refused asked
        · cases failed
          exact ⟨text, rfl⟩

end Action

namespace Session

/-- The error of an interpreted module: that of one of its statements, as it is, or of a value that
a statement threw, at the place of the `throw`. -/
inductive Fails (depth : Nat) (module : Syntax.Module) (scope : Scope) (world : World)
    (error : Error) : Prop
  | statement {visit : Visit} {after : World} (listed : visit.node ∈ module.statements)
    (started : Starts (fun evaluator => Action.run evaluator scope module.statements)
      (evaluate depth) world visit)
    (failed : (evaluate depth).visit visit = .failure error after)
    (passes : Visit.Passes error depth visit) : Fails depth module scope world error
  | uncaught {value : Handle} {place : Location} {text : String} {after : World}
    (thrown : Action.run (evaluate depth) scope module.statements world =
      .signal (.thrown value place) after)
    (shape : error = .runtime (.uncaught text) (some place)) :
    Fails depth module scope world error

theorem fails_of_interpretIn {depth : Nat} {module : Syntax.Module} {scope : Scope}
    {world after : World} {error : Error}
    (failed : interpretIn depth module scope world = .failure error after)
    (program : error.OfProgram) : Fails depth module scope world error := by
  unfold interpretIn at failed
  rw [settle_bind_apply] at failed
  cases ran : run (evaluate depth) scope module.statements world with
  | value result middle =>
      rw [ran] at failed
      cases failed
  | signal raised middle =>
      rw [ran] at failed
      cases raised with
      | thrown value place =>
          obtain ⟨text, shape⟩ := uncaught_failed failed program
          exact .uncaught ran shape
      | _ => cases failed
  | failure reason middle =>
      rw [ran] at failed
      cases failed
      obtain ⟨visit, last, listed, started, failed⟩ := runFrom_failed ran
      exact .statement listed started failed (Visit.passes_of_failed failed program)
  | halted reason =>
      rw [ran] at failed
      cases failed

theorem Fails.placed_somewhere {depth : Nat} {module : Syntax.Module} {scope : Scope}
    {world : World} {error : Error} (fails : Fails depth module scope world error) :
    error.location ≠ none := by
  cases fails with
  | statement _ _ _ passes => exact passes.placed_somewhere
  | uncaught _ shape =>
      rw [shape]
      exact Option.some_ne_none _

/-- The error of a statement is that of the module. -/
theorem carries_interpretIn {depth : Nat} {module : Syntax.Module} {scope : Scope} {world : World}
    {visit : Visit} {error : Error} {after : World}
    (started : Starts (fun evaluator => run evaluator scope module.statements) (evaluate depth)
      world visit) (failed : (evaluate depth).visit visit = .failure error after) :
    ∃ last, interpretIn depth module scope world = .failure error last := by
  have traced : (Account.silent depth world.loader).Traced (Passing fun _ => True)
      fun evaluator => run evaluator scope module.statements :=
    Account.traced_run Account.Traced.visit scope module.statements
  obtain ⟨last, ran⟩ : ∃ last, run (evaluate depth) scope module.statements world =
      .failure error last :=
    (traced world rfl).passes visit (.failure error) after started failed trivial
  have settled : settle (run (evaluate depth) scope module.statements) world =
      .value (.failure error) last :=
    Unwinding.settle_eq_value_iff.mpr (show _ = (Unwinding.failure error).outcome last from ran)
  exact ⟨last, bind_of_value settled endModule⟩

/-- Errors of programs keep the places they arise with. The error of an evaluation is, as it is, that
of an evaluation that its node starts, or it arises in the step of the node, with the place of the
node, of the parent or of the handler type to blame, or with that given by the loader. The other way
round, the error of an evaluation that a node starts is, as it is, that of the node, unless the node
is an attempt that takes it or ends in another way. So an error has come up unchanged from the step
in which it arose, through all nodes, calls and modules in between, and the error of an interpreted
module has a place. -/
theorem errors_keep_places (error : Error) (program : error.OfProgram) :
    (∀ depth visit after, (evaluate (depth + 1)).visit visit = .failure error after →
      visit.Raises depth error ∨ ∃ inner middle,
        Starts (fun evaluator => Action.step evaluator visit.scope visit.node) (evaluate depth)
          visit.world inner ∧ (evaluate depth).visit inner = .failure error middle) ∧
    (∀ depth visit inner after,
      Starts (fun evaluator => Action.step evaluator visit.scope visit.node) (evaluate depth)
        visit.world inner →
      (evaluate depth).visit inner = .failure error after →
      (∃ last, (evaluate (depth + 1)).visit visit = .failure error last) ∨
        visit.Overrides depth error) ∧
    (∀ depth visit after, (evaluate depth).visit visit = .failure error after →
      Visit.Passes error depth visit) ∧
    (∀ depth module scope world after,
      interpretIn depth module scope world = .failure error after →
      Fails depth module scope world error ∧ error.location ≠ none) ∧
    (∀ depth module scope world visit after,
      Starts (fun evaluator => Action.run evaluator scope module.statements) (evaluate depth) world
        visit →
      (evaluate depth).visit visit = .failure error after →
      ∃ last, interpretIn depth module scope world = .failure error last) ∧
    (∀ depth module world after, interpret depth module world = .failure error after →
      ∃ scope start, Fails depth module scope start error ∧ error.location ≠ none) := by
  have within (depth : Nat) (module : Syntax.Module) (scope : Scope) (world after : World)
      (failed : interpretIn depth module scope world = .failure error after) :
      Fails depth module scope world error ∧ error.location ≠ none := by
    have fails := fails_of_interpretIn failed program
    exact ⟨fails, fails.placed_somewhere⟩
  refine ⟨fun depth visit after failed => Visit.raises_or_starts failed program,
    fun depth visit inner after started failed => Visit.carries_error started failed,
    fun depth visit after failed => Visit.passes_of_failed failed program, within,
    fun depth module scope world visit after started failed => carries_interpretIn started failed,
    fun depth module world after failed => ?_⟩
  exact ⟨_, _, within depth module _ _ after failed⟩

/-- The unknown name in the required module is told where it stands there, not where `f` is called or
where the module is required; and a call does not touch the place of an error in its lambda. -/
theorem errors_keep_places_of_text :
    let look (path : String) : Look :=
      if path = "./b.rip" then .file "missing".toUTF8 else .notFile "No such file"
    let start := World.fresh (Loader.ofFiles look) ["."]
    let text := "f = -> \x7b System.require('b') \x7d\n[f()]"
    let error := Error.runtime (.unknownReference "missing") (some (Location.start "./b.rip"))
    let body : Block := ⟨[.reference ⟨"missing", Location.start "./b.rip"⟩], Location.start "./b.rip"⟩
    let function : Node := .lambda ⟨.arrow, [], body, Location.start "./b.rip"⟩
    let called : Node := .invocation function [] (Location.start "text")
    error.OfProgram ∧
    (∃ module after, Module.ofText "text" text = .ok module ∧
      interpret 9 module start = .failure error after ∧
      ∃ scope begun, Fails 9 module scope begun error) ∧
    ∃ inner after,
      Starts (fun evaluator => Action.step evaluator Kernel.globals called) (evaluate 3) start inner ∧
      (evaluate 3).visit inner = .failure error after ∧
      ∃ last, (evaluate 4).visit ⟨Kernel.globals, called, start⟩ = .failure error last := by
  intro look start text error body function called
  obtain ⟨-, carried, -, -, -, failing⟩ := errors_keep_places error trivial
  refine ⟨trivial, ?_, ?_⟩
  · have computed : ((Module.ofText "text" text).toOption.bind
        fun module => (interpret 9 module start).error?) = some error := by
      decide +kernel
    obtain ⟨module, read, ran⟩ := Option.bind_eq_some_iff.mp computed
    have read : Module.ofText "text" text = .ok module := eq_ok_of_toOption read
    obtain ⟨after, failed⟩ : ∃ after, interpret 9 module start = .failure error after := by
      cases ended : interpret 9 module start with
      | failure raised after =>
          rw [ended] at ran
          exact ⟨after, congrArg (Outcome.failure · after) (Option.some.inj ran)⟩
      | _ =>
          rw [ended] at ran
          cases ran
    obtain ⟨scope, begun, fails, -⟩ := failing 9 module start after failed
    exact ⟨module, after, read, failed, scope, begun, fails⟩
  · let lambda := Payload.lambda ⟨Kernel.globals, [⟨[], .block body⟩], none⟩
    let made := start.heap.add (.instanceOf KernelClass.lambda.handle lambda)
    let middle : World := { start with heap := made.2 }
    let frame := middle.frames.child Kernel.globals
    let inner : Visit := ⟨frame.1, .reference ⟨"missing", Location.start "./b.rip"⟩,
      { middle with frames := frame.2 }⟩
    let alone (outcome : Outcome Handle) : Action Handle := Action.bind (fun _ => outcome) pure
    have entered : Starts
        (fun evaluator => evaluateAll evaluator Kernel.globals [] >>= fun arguments =>
          call evaluator made.1 arguments Kernel.globals) (evaluate 3) middle inner :=
      Evaluator.starts_of_reaches (fun outcome => catchReturned (alone outcome) inner.world)
        (fun other => rfl) id trivial
    have started : Starts (fun evaluator => Action.step evaluator Kernel.globals called)
        (evaluate 3) start inner := by
      have found : evaluate 3 Kernel.globals function start = .value made.1 middle := rfl
      change Starts (fun evaluator => evaluator Kernel.globals function >>= _) _ _ _
      exact entered.second Evaluator.without_of_ends found
    have failed : (evaluate 3).visit inner = .failure error inner.world := rfl
    refine ⟨inner, inner.world, started, failed, ?_⟩
    rcases carried 3 ⟨Kernel.globals, called, start⟩ inner _ started failed with ended | overrides
    · exact ended
    · cases overrides with
      | caught attempts => cases attempts
      | superseded attempts => cases attempts

end Session

end RipInterpreter
