import RipInterpreter.Proofs.Evaluation.Cleanup
import RipInterpreter.Proofs.Machine.KernelMethods

namespace RipInterpreter

open Syntax

variable {α β : Type}

/-- No handler gets to see this end of a body. -/
def Completion.Passes : Completion α → Prop
  | .signal (.thrown _ _) | .failure (.runtime _ _) => False
  | _ => True

/-- The error of this end, if it is one, knows its place or has none. -/
def Completion.Located (completion : Completion α) : Prop :=
  ∀ error, completion = .failure error → error.Located

namespace World

/-- The exception is new, and so is the text of its message; everything else is as before. -/
structure Describes (world : World) (message : String) (exception : Handle) (after : World) :
    Prop where
  fresh : world.heap.get? exception = none
  message : ∃ text, world.heap.get? text = none ∧
    after.heap.get? text = some (.instanceOf KernelClass.string.handle (.string message)) ∧
    after.heap.get? exception = some ⟨Table.ofList
      [("class", .plain KernelClass.exception.handle), ("message", .plain text)], .plain⟩
  others : ∀ handle, world.heap.Holds handle → after.heap.get? handle = world.heap.get? handle
  rest : after = { world with heap := after.heap }

/-- The innermost frame of a scope is new and binds a single name; everything else is as before. -/
structure Opens (world : World) (scope : Scope) (name : String) (value : Handle) (inner : Scope)
    (after : World) : Prop where
  fresh : world.frames.frame? inner.own = none
  outer : inner.outer = scope.chain
  binds : after.frames.frame? inner.own =
    some ⟨Table.empty.insert name value, world.frames.originOf scope⟩
  others : ∀ number, number ≠ inner.own → after.frames.frame? number = world.frames.frame? number
  rest : after = { world with frames := after.frames }

/-- The handler takes a value or refuses it: without a type it takes everything, with the name of a
class the values of that class, with that of another value what equals it. -/
inductive Judges (world : World) (scope : Scope) (value : Handle) (handler : Handler) : Bool → Prop
  | untyped (untyped : handler.matcher = none) : Judges world scope value handler true
  | byClass {matcher : Name} {expected : Handle} {taken : Bool}
    (typed : handler.matcher = some matcher)
    (bound : world.frames.lookup scope matcher.text = some expected)
    (kind : world.heap.isClass expected = .ok true)
    (is : world.heap.isA value expected = .ok taken) : Judges world scope value handler taken
  | byValue {matcher : Name} {expected : Handle} {taken : Bool}
    (typed : handler.matcher = some matcher)
    (bound : world.frames.lookup scope matcher.text = some expected)
    (kind : world.heap.isClass expected = .ok false)
    (same : world.heap.equal value expected = .ok taken) : Judges world scope value handler taken

/-- The type of the handler is a name without a value. -/
def Misses (world : World) (scope : Scope) (handler : Handler) (matcher : Name) : Prop :=
  handler.matcher = some matcher ∧ world.frames.lookup scope matcher.text = none

end World

/-- What handlers get to see of the end of a body, and the state in which they do. -/
inductive Completion.Shows (world : World) : Completion Handle → Handle → World → Prop
  | thrown (value : Handle) (place : Location) :
    Shows world (.signal (.thrown value place)) value world
  | error (reason : RuntimeFault) (place : Option Location) {exception : Handle} {after : World}
    (describes : world.Describes reason.message exception after) :
    Shows world (.failure (.runtime reason place)) exception after

namespace Action

section

variable {evaluator : Evaluator} {scope : Scope} {body : Block} {handlers : List Handler}
  {handler : Handler} {world middle later after : World} {completion : Completion Handle}
  {value : Handle} {matcher : Name} {taken : Bool}

theorem located_of_settle {action : Action α} {completion : Completion α}
    (located : action.FailsLocated) (ran : settle action world = .value completion after) :
    completion.Located := by
  rintro error rfl
  unfold settle at ran
  cases ended : action world with
  | failure reason left =>
      rw [ended] at ran
      cases ran
      exact located world _ _ ended
  | _ =>
      rw [ended] at ran
      cases ran

theorem failsLocated_resume {completion : Completion α} (located : completion.Located) :
    completion.resume.FailsLocated := by
  intro world error after failed
  cases completion with
  | failure reason =>
      cases failed
      exact located _ rfl
  | _ => cases failed

theorem failsLocated_finish (nested : ∀ scope node, (evaluator scope node).FailsLocated)
    (scope : Scope) (cleanup : Option Clause) (located : completion.Located) :
    (finish evaluator scope cleanup completion).FailsLocated := by
  cases cleanup with
  | none => exact failsLocated_resume located
  | some clause =>
      exact (failsLocated_runBlock nested scope clause.body).bind fun _ =>
        failsLocated_resume located

theorem FailsLocated.locate_apply {action : Action α} (located : action.FailsLocated)
    (place : Location) (world : World) : locate place action world = action world := by
  unfold locate
  cases ended : action world with
  | failure error after =>
      exact congrArg (Outcome.failure · after) (located world error after ended place)
  | _ => rfl

theorem accepts_of_kind {expected : Handle} {kind : Bool}
    (bound : world.frames.lookup scope matcher.text = some expected)
    (asked : world.heap.isClass expected = .ok kind) :
    accepts scope matcher value world = ask (fun heap =>
      if kind = true then heap.isA value expected else heap.equal value expected) world := by
  have known : ask (fun heap => heap.isClass expected) world = .value kind world := ask_of_ok asked
  rw [accepts_apply, bound]
  simp only [bind_of_value known]
  cases kind <;> rfl

theorem accepts_of_judges (judges : world.Judges scope value handler taken)
    (typed : handler.matcher = some matcher) :
    accepts scope matcher value world = .value taken world := by
  cases judges with
  | untyped untyped => cases typed.symm.trans untyped
  | byClass known bound kind is =>
      cases typed.symm.trans known
      exact (accepts_of_kind bound kind).trans (ask_of_ok is)
  | byValue known bound kind same =>
      cases typed.symm.trans known
      exact (accepts_of_kind bound kind).trans (ask_of_ok same)

theorem findHandler_of_judges (judges : world.Judges scope value handler taken)
    (rest : List Handler) :
    findHandler scope value (handler :: rest) world =
      if taken = true then .value (some handler) world
      else findHandler scope value rest world := by
  cases typed : handler.matcher with
  | none =>
      cases judges with
      | untyped untyped =>
          rw [findHandler, typed]
          rfl
      | byClass known => cases typed.symm.trans known
      | byValue known => cases typed.symm.trans known
  | some matcher =>
      rw [findHandler_typed typed, bind_of_value (accepts_of_judges judges typed)]
      cases taken <;> rfl

/-- By induction on the handlers that refuse the value. -/
theorem findHandler_of_refused {before : List Handler} (rest : List Handler)
    (refused : ∀ earlier ∈ before, world.Judges scope value earlier false) :
    findHandler scope value (before ++ rest) world = findHandler scope value rest world := by
  induction before with
  | nil => rfl
  | cons earlier before ih =>
      obtain ⟨first, others⟩ := List.forall_mem_cons.mp refused
      exact (findHandler_of_judges first _).trans (ih others)

theorem findHandler_of_misses (misses : world.Misses scope handler matcher) (rest : List Handler) :
    findHandler scope value (handler :: rest) world =
      .failure (.runtime (.unknownReference matcher.text) (some matcher.location)) world := by
  rw [findHandler_typed misses.1, bind_apply, accepts_of_unbound misses.2]

/-- On a sound machine every type that has a value decides. -/
theorem judges_or_misses (sound : world.SoundState) (proper : world.heap.Proper value)
    (scope : Scope) (handler : Handler) :
    (∃ taken, world.Judges scope value handler taken) ∨
      ∃ matcher, world.Misses scope handler matcher := by
  cases typed : handler.matcher with
  | none => exact .inl ⟨true, .untyped typed⟩
  | some matcher =>
      cases bound : world.frames.lookup scope matcher.text with
      | none => exact .inr ⟨matcher, typed, bound⟩
      | some expected =>
          have present := (sound.lookup bound).holds
          obtain ⟨kind, asked, -⟩ := Heap.answers_isClass present
          cases kind with
          | true =>
              obtain ⟨taken, is, -⟩ := Heap.answers_isA sound.heap proper.holds
              exact .inl ⟨taken, .byClass typed bound asked is⟩
          | false =>
              obtain ⟨taken, same, -⟩ := Heap.answers_equal sound.heap proper.holds present
              exact .inl ⟨taken, .byValue typed bound asked same⟩

theorem describes_newException (message : String) (world : World) :
    ∃ exception after, newException message world = .value exception after ∧
      world.Describes message exception after := by
  let first := (world.heap.add (.instanceOf KernelClass.exception.handle .plain)).2
  let second := (first.add (.instanceOf KernelClass.string.handle (.string message))).2
  obtain ⟨made, ran⟩ := newException_apply message world
  have younger : first.next ≠ world.heap.next := by
    simp [first, Heap.next, Heap.add]
  have unheld : world.heap.get? first.next = none := by
    simp [first, Heap.get?, Heap.next, Heap.add]
  refine ⟨_, _, ran, Heap.get?_next _, ⟨first.next, unheld, ?_, ?_⟩, fun handle held => ?_, rfl⟩
  · rw [Heap.get?_modify, if_neg younger, Heap.get?_add, if_pos rfl]
  · rw [Heap.get?_modify, if_pos rfl, made]
    rfl
  · obtain ⟨object, found⟩ := held
    have apart : handle ≠ first.next := by
      rintro rfl
      cases unheld.symm.trans found
    rw [Heap.get?_modify, if_neg (Heap.next_ne found), Heap.get?_add, if_neg apart, Heap.get?_add,
      if_neg (Heap.next_ne found)]

theorem caught_of_passes (passes : completion.Passes) (world : World) :
    caught completion world = .value none world := by
  unfold caught
  split
  · exact passes.elim
  · exact passes.elim
  · rfl

theorem shows_caught (seen : ¬ completion.Passes) (world : World) :
    ∃ value after, completion.Shows world value after ∧
      caught completion world = .value (some value) after := by
  unfold caught
  split
  · exact ⟨_, world, .thrown _ _, rfl⟩
  · rename_i reason place
    obtain ⟨exception, after, made, describes⟩ := describes_newException reason.message world
    refine ⟨exception, after, .error reason place describes, ?_⟩
    change (newException reason.message >>= fun made => pure (some made)) world = _
    rw [bind_of_value made]
    rfl
  · exact absurd (by unfold Completion.Passes; split <;> simp_all) seen

theorem opens_runHandler (evaluator : Evaluator) (scope : Scope) (handler : Handler)
    (value : Handle) (world : World) :
    ∃ inner after, world.Opens scope handler.binding.text value inner after ∧
      runHandler evaluator scope handler value world =
        runBlock evaluator inner handler.body after := by
  obtain ⟨inner, opened, entered⟩ : ∃ inner opened, world.frames.child scope = (inner, opened) :=
    ⟨_, _, rfl⟩
  obtain ⟨frames, bound, fresh, outer, binds, others⟩ :=
    Frames.bind_child handler.binding.text value entered
  refine ⟨inner, { world with frames := frames }, ⟨fresh, outer, binds, others, rfl⟩, ?_⟩
  have made : enter scope world = .value inner { world with frames := opened } := by
    rw [enter, entered]
  have named : bindName inner handler.binding.text value { world with frames := opened } =
      .value () { world with frames := frames } := by
    rw [bindName, bound]
  unfold runHandler
  rw [bind_of_value made, bind_of_value named]

end

end Action

section

open RipInterpreter.Action

variable {depth : Nat} {scope : Scope} {body : Block} {handlers : List Handler} {place : Location}
  {world middle after : World} {completion : Completion Handle}

/-- Where the body and the handlers have an end, the attempt goes on from there. -/
theorem evaluate_attempt_of_handled (cleanup : Option Clause)
    (ended : handled (evaluate depth) scope body handlers world = .value completion after)
    (located : completion.Located) :
    evaluate (depth + 1) scope (.attempt body handlers cleanup place) world =
      finish (evaluate depth) scope cleanup completion after := by
  have attempted : attempt (evaluate depth) scope body handlers cleanup world =
      finish (evaluate depth) scope cleanup completion after := by
    rw [attempt_eq_handled, bind_of_value ended]
  have located := failsLocated_finish (failsLocated_evaluate depth) scope cleanup located
  change locate place (attempt (evaluate depth) scope body handlers cleanup) world = _
  rw [← located.locate_apply place after]
  unfold locate
  rw [attempted]

/-- Where it is left to another run what the body and the handlers come to, so is the attempt. -/
theorem evaluate_attempt_of_run (cleanup : Option Clause) {run : Action Handle}
    (ended : handled (evaluate depth) scope body handlers world = settle run after)
    (located : run.FailsLocated) :
    evaluate (depth + 1) scope (.attempt body handlers cleanup place) world =
      (settle run >>= finish (evaluate depth) scope cleanup) after := by
  rcases settle_ends run after with ⟨completion, last, ran⟩ | ⟨reason, ran⟩
  · rw [bind_of_value ran]
    exact evaluate_attempt_of_handled cleanup (ended.trans ran) (located_of_settle located ran)
  · rw [bind_apply, ran]
    change locate place (attempt (evaluate depth) scope body handlers cleanup) world = _
    rw [locate, attempt_eq_handled, bind_apply, ended, ran]

/-- Where the search for a handler fails with an error that knows its place, so does the attempt. -/
theorem evaluate_attempt_of_failed (cleanup : Option Clause) {error : Error}
    (failed : handled (evaluate depth) scope body handlers world = .failure error after)
    (located : error.Located) :
    evaluate (depth + 1) scope (.attempt body handlers cleanup place) world =
      .failure error after := by
  change locate place (attempt (evaluate depth) scope body handlers cleanup) world = _
  rw [locate, attempt_eq_handled, bind_apply, failed]
  exact congrArg (Outcome.failure · after) (located place)

/-- The body of an attempt decides what its handlers get to see, before the final block is
considered. A value, a return, an exit and all errors but runtime errors pass them by. A thrown value
is shown to them, and so is a new exception with the message of a runtime error, and the first one
that takes it runs with it in a new frame; what that comes to counts. If the search comes to a type
without a value, the attempt ends with that error; if all refuse, with what the body came to. On a
machine that programs have got to there is no other case. -/
theorem attempt_selects_handler (depth : Nat) (scope : Scope) (body : Block)
    (handlers : List Handler) (cleanup : Option Clause) (place : Location) {world middle : World}
    {completion : Completion Handle}
    (ran : settle (runBlock (evaluate depth) scope body) world = .value completion middle) :
    let whole := evaluate (depth + 1) scope (.attempt body handlers cleanup place) world
    let conclude := finish (evaluate depth) scope cleanup
    (completion.Passes → whole = conclude completion middle) ∧
    (¬ completion.Passes → ∃ value later, completion.Shows middle value later ∧
      (∀ before handler rest, handlers = before ++ handler :: rest →
        (∀ earlier ∈ before, later.Judges scope value earlier false) →
        (later.Judges scope value handler true → ∃ inner opened,
          later.Opens scope handler.binding.text value inner opened ∧
          whole = (settle (runBlock (evaluate depth) inner handler.body) >>= conclude) opened) ∧
        ∀ matcher, later.Misses scope handler matcher → whole = .failure
          (.runtime (.unknownReference matcher.text) (some matcher.location)) later) ∧
      ((∀ handler ∈ handlers, later.Judges scope value handler false) →
        whole = conclude completion later) ∧
      (world.SoundState → ∀ handler ∈ handlers,
        (∃ taken, later.Judges scope value handler taken) ∨
          ∃ matcher, later.Misses scope handler matcher)) := by
  have located : ∀ scope block, (runBlock (evaluate depth) scope block).FailsLocated :=
    failsLocated_runBlock (failsLocated_evaluate depth)
  intro whole conclude
  refine ⟨fun passes => ?_, fun seen => ?_⟩
  · exact evaluate_attempt_of_handled cleanup (handled_of_ran ran (caught_of_passes passes middle))
      (located_of_settle (located scope body) ran)
  · obtain ⟨value, later, shows, caught⟩ := shows_caught seen middle
    have searched : handled (evaluate depth) scope body handlers world = _ :=
      handled_of_ran ran caught
    refine ⟨value, later, shows, ?_, fun refused => ?_, fun sound handler _ => ?_⟩
    · rintro before handler rest rfl refused
      have skipped := findHandler_of_refused (handler :: rest) refused
      refine ⟨fun takes => ?_, fun matcher misses => ?_⟩
      · have found := skipped.trans ((findHandler_of_judges takes rest).trans (if_pos rfl))
        obtain ⟨inner, opened, opens, runs⟩ :=
          opens_runHandler (evaluate depth) scope handler value later
        refine ⟨inner, opened, opens, evaluate_attempt_of_run cleanup ?_ (located inner _)⟩
        rw [searched]
        simp only [bind_of_value found, settle, runs]
      · have failed := skipped.trans (findHandler_of_misses misses rest)
        refine evaluate_attempt_of_failed cleanup ?_ fun _ => rfl
        rw [searched]
        simp only [bind_apply, failed]
    · refine evaluate_attempt_of_handled cleanup ?_ (located_of_settle (located scope body) ran)
      have found := findHandler_of_refused [] refused
      rw [List.append_nil] at found
      have found : findHandler scope value handlers later = .value none later := found
      rw [searched]
      simp only [bind_of_value found]
      rfl
    · obtain ⟨leads, proper⟩ := proper_of_caught sound ran caught
      exact judges_or_misses (leads.soundState sound) proper scope handler

/-- In `try { throw nil } catch (System e) { } catch (nil e) { true }` the second handler runs: the
value is none of the class that the first one names, and is itself the value of the second type. In
`try { missing } catch (e) { e }` the handler gets a new exception with the message of the error. -/
theorem attempt_selects_handler_by_value :
    let start := World.fresh ⟨fun _ name paths => .refused (.missingModule name paths)⟩ []
    let place := Location.start "text"
    let name (text : String) : Name := ⟨text, place⟩
    let throwing : Block := ⟨[.throwing (.reference (name "nil")) place], place⟩
    let failing : Block := ⟨[.reference (name "missing")], place⟩
    let first : Handler := ⟨some (name "System"), name "e", .empty place, place⟩
    let second : Handler :=
      ⟨some (name "nil"), name "e", ⟨[.reference (name "true")], place⟩, place⟩
    let untyped : Handler := ⟨none, name "e", ⟨[.reference (name "e")], place⟩, place⟩
    let thrown := evaluate 4 Kernel.globals (.attempt throwing [first, second] none place) start
    let failed := evaluate 4 Kernel.globals (.attempt failing [untyped] none place) start
    (∃ middle, settle (runBlock (evaluate 3) Kernel.globals throwing) start =
        .value (.signal (.thrown .nil place)) middle ∧
      middle.Judges Kernel.globals .nil first false ∧
      middle.Judges Kernel.globals .nil second true ∧
      (∃ inner opened, middle.Opens Kernel.globals "e" .nil inner opened ∧
        thrown = (settle (runBlock (evaluate 3) inner second.body) >>= Completion.resume) opened) ∧
      ∃ after, thrown = .value .trueValue after) ∧
    ∃ middle exception later, settle (runBlock (evaluate 3) Kernel.globals failing) start =
        .value (.failure (.runtime (.unknownReference "missing") (some place))) middle ∧
      middle.Describes "Unknown reference \x60missing\x60" exception later ∧
      (∃ inner opened, later.Opens Kernel.globals "e" exception inner opened ∧
        failed = (settle (runBlock (evaluate 3) inner untyped.body) >>= Completion.resume) opened) ∧
      ∃ answer after, failed = .value answer after ∧
        after.heap.messageOf answer = .ok (some "Unknown reference \x60missing\x60") := by
  intro start place name throwing failing first second untyped thrown failed
  constructor
  · obtain ⟨middle, ran, refuses, takes⟩ : ∃ middle,
        settle (runBlock (evaluate 3) Kernel.globals throwing) start =
          .value (.signal (.thrown .nil place)) middle ∧
        middle.Judges Kernel.globals .nil first false ∧
        middle.Judges Kernel.globals .nil second true := by
      refine ⟨_, rfl, ?_, ?_⟩
      · exact .byClass rfl (rfl : _ = some KernelClass.system.handle) rfl rfl
      · exact .byValue rfl (rfl : _ = some Handle.nil) rfl rfl
    obtain ⟨value, later, shows, select, -⟩ :=
      (attempt_selects_handler 3 Kernel.globals throwing [first, second] none place ran).2 not_false
    cases shows
    have answers : thrown.endsIn (fun answer _ => decide (answer = .trueValue)) = true := by
      decide +kernel
    obtain ⟨answer, after, ended, same⟩ := Outcome.value_of_endsIn answers
    cases of_decide_eq_true same
    refine ⟨_, ran, refuses, takes, ?_, after, ended⟩
    exact (select [first] second [] rfl (List.forall_mem_singleton.mpr refuses)).1 takes
  · obtain ⟨middle, ran⟩ : ∃ middle,
        settle (runBlock (evaluate 3) Kernel.globals failing) start =
          .value (.failure (.runtime (.unknownReference "missing") (some place))) middle :=
      ⟨_, rfl⟩
    obtain ⟨exception, later, shows, select, -⟩ :=
      (attempt_selects_handler 3 Kernel.globals failing [untyped] none place ran).2 not_false
    obtain ⟨inner, opened, opens, runs⟩ := (select [] untyped [] rfl nofun).1 (.untyped rfl)
    cases shows with
    | error _ _ describes =>
        have answers : failed.endsIn (fun answer after => (after.heap.messageOf answer).toOption ==
            some (some "Unknown reference \x60missing\x60")) = true := by
          decide +kernel
        obtain ⟨answer, after, ended, told⟩ := Outcome.value_of_endsIn answers
        exact ⟨middle, exception, later, ran, describes, ⟨inner, opened, opens, runs⟩,
          answer, after, ended, eq_ok_of_toOption (eq_of_beq told)⟩

end

end RipInterpreter
