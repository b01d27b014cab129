import RipInterpreter.Proofs.Evaluation.Embedding

/-!
Each module runs once. A call of `require` ends at once if the module was loaded, with its value, or
is in progress, with an error; only otherwise its statements run. While they run the module stays in
progress, whatever they do, and afterwards it does not; it counts as loaded from then on exactly if
they ended with a value or `return`.
-/

namespace RipInterpreter

open RipInterpreter.Action

namespace World

variable {world later after : World} {key : List String} {value : Handle}

/-- What the loader answers to the next request. -/
def nextAnswer (world : World) (name : String) (scope : Scope) : LoadAnswer :=
  world.loader.answer world.requests name (searchPathsFrom world scope)

/-- One more module was asked for. -/
def asked (world : World) : World := { world with requests := world.requests + 1 }

/-- To require the module gives the value at once, whatever evaluates statements. -/
def Gives (world : World) (key : List String) (value : Handle) : Prop :=
  ∀ (evaluator : Evaluator) (name : String) (scope : Scope) (path : String)
    (module : Syntax.Module), world.nextAnswer name scope = .found path module →
    Path.key path = key → require evaluator name scope world = .value value world.asked

/-- To require the module fails at once, whatever evaluates statements. -/
def Refuses (world : World) (key : List String) : Prop :=
  ∀ (evaluator : Evaluator) (name : String) (scope : Scope) (path : String)
    (module : Syntax.Module), world.nextAnswer name scope = .found path module →
    Path.key path = key → require evaluator name scope world =
      .failure (.runtime (.circularRequire path) none) world.asked

theorem requestModule_of_nextAnswer {name : String} {scope : Scope} {answer : LoadAnswer}
    (answered : world.nextAnswer name scope = answer) :
    requestModule name scope world = .value answer world.asked :=
  congrArg (fun answer => Outcome.value answer world.asked) answered

theorem require_of_found {evaluator : Evaluator} {name : String} {scope : Scope} {path : String}
    {module : Syntax.Module} (found : world.nextAnswer name scope = .found path module) :
    require evaluator name scope world =
      match world.loaded.lookup (Path.key path) with
      | some value => .value value world.asked
      | none =>
        if world.loading.contains (Path.key path) then
          .failure (.runtime (.circularRequire path) none) world.asked
        else runModule evaluator path module world.asked := by
  rw [require, bind_of_value (requestModule_of_nextAnswer found)]
  change (match world.loaded.lookup (Path.key path) with
    | some value => (return value : Action Handle)
    | none =>
      if world.loading.contains (Path.key path) then fault (.circularRequire path)
      else runModule evaluator path module) world.asked = _
  cases world.loaded.lookup (Path.key path) with
  | some value => rfl
  | none => cases world.loading.contains (Path.key path) <;> rfl

theorem gives_of_loaded (loaded : world.loaded.lookup key = some value) :
    world.Gives key value := by
  rintro evaluator name scope path module found rfl
  rw [require_of_found found, loaded]

theorem refuses_of_loading (apart : ∀ key ∈ world.loading, world.loaded.lookup key = none)
    (running : key ∈ world.loading) : world.Refuses key := by
  rintro evaluator name scope path module found rfl
  rw [require_of_found found, apart _ running]
  exact if_pos (List.contains_iff_mem.mpr running)

theorem require_of_unsettled {evaluator : Evaluator} {name : String} {scope : Scope} {path : String}
    {module : Syntax.Module} (found : world.nextAnswer name scope = .found path module)
    (unsettled : ¬ world.Settled (Path.key path)) :
    require evaluator name scope world = runModule evaluator path module world.asked := by
  rw [require_of_found found, lookup_of_not_settled unsettled]
  exact if_neg fun running => unsettled (.inl (List.contains_iff_mem.mp running))

/-- What a call of `require` does in a state. -/
structure RequiresOnce (world : World) (depth : Nat) (name : String) (scope : Scope) : Prop where
  /-- The modules in progress are the same afterwards, however the call ends. -/
  restores : ∀ after, (require (evaluate depth) name scope world).world? = some after →
    after.loading = world.loading
  /-- In all states in between they are in progress, too. -/
  during : ∀ after, (require (evaluate depth) name scope world).world? = some after →
    world.ReachesDuring world.loading after
  /-- What was loaded keeps its value. -/
  keeps : ∀ after, (require (evaluate depth) name scope world).world? = some after →
    ∀ key value, world.loaded.lookup key = some value → after.loaded.lookup key = some value
  /-- If the loader finds no module, nothing is run. -/
  refused : ∀ error, world.nextAnswer name scope = .refused error →
    require (evaluate depth) name scope world = .failure error world.asked
  unseen : ∀ path, world.nextAnswer name scope = .unseen path →
    require (evaluate depth) name scope world = .halted (.unseenPath path)
  /-- The statements of a module run only if it is neither in progress nor loaded, and then once, -/
  runs : ∀ path module, world.nextAnswer name scope = .found path module →
    ¬ world.Settled (Path.key path) →
    require (evaluate depth) name scope world = moduleEnd path
      (run (evaluate depth) (world.asked.moduleScope path) module.statements
        (world.asked.beginning path))
  /-- and while they run, nothing that they do runs them once more. -/
  running : ∀ path module, world.nextAnswer name scope = .found path module →
    ¬ world.Settled (Path.key path) →
    let start := world.asked.beginning path
    (∀ after, (run (evaluate depth) (world.asked.moduleScope path) module.statements
        start).world? = some after → start.ReachesDuring start.loading after) ∧
      ∀ later, start.ReachesDuring start.loading later → later.Refuses (Path.key path)
  /-- Once they have completed, the module is loaded for good. -/
  completes : ∀ path module value after, world.nextAnswer name scope = .found path module →
    require (evaluate depth) name scope world = .value value after →
    after.loaded.lookup (Path.key path) = some value ∧
      ∀ later, after.Reaches later → later.Gives (Path.key path) value
  /-- Otherwise it may be run anew. -/
  fails : ∀ path module after, world.nextAnswer name scope = .found path module →
    ¬ world.Settled (Path.key path) →
    (require (evaluate depth) name scope world).world? = some after →
    (require (evaluate depth) name scope world).result? = none → ¬ after.Settled (Path.key path)

theorem Tidy.asked (tidy : world.Tidy) : world.asked.Tidy := Move.request.tidy tidy

/-- A module that completed is loaded: before, if its value was there, or else by its run. -/
theorem lookup_of_require {evaluator : Evaluator} {name : String} {scope : Scope} {path : String}
    {module : Syntax.Module} (found : world.nextAnswer name scope = .found path module)
    (completed : require evaluator name scope world = .value value after) :
    after.loaded.lookup (Path.key path) = some value := by
  have kept {last : World} :
      ((last.finished path).keeping path value).loaded.lookup (Path.key path) = some value := by
    simp [keeping]
  rw [require_of_found found] at completed
  split at completed
  · cases completed
    assumption
  · split at completed
    · cases completed
    · rw [runModule_apply] at completed
      unfold moduleEnd at completed
      split at completed <;> cases completed <;> exact kept

/-- A module that began and came to another end is neither in progress nor loaded. -/
theorem unsettled_of_runModule {evaluator : Evaluator} (nested : evaluator.Orderly) {path : String}
    {module : Syntax.Module} (tidy : world.Tidy) (unsettled : ¬ world.Settled (Path.key path))
    (left : (runModule evaluator path module world).world? = some after)
    (failed : (runModule evaluator path module world).result? = none) :
    ¬ after.Settled (Path.key path) := by
  have ready := (during_beginning unsettled).reaches.tidy tidy
  have hands := hands_run nested (world.moduleScope path) module.statements ready
  have ended {last : World} (ran : (world.beginning path).Ran last) :
      ¬ (last.finished path).Settled (Path.key path) := unsettled_finished (ran.tidy ready) ran
  unfold Hands Orderly at hands
  rw [runModule_apply] at left failed
  generalize run evaluator (world.moduleScope path) module.statements (world.beginning path) =
    outcome at hands left failed
  cases hands with
  | value ran held => cases failed
  | @signal raised last ran held =>
      cases raised with
      | returned value => cases failed
      | _ =>
          cases left
          exact ended ran
  | failure ran =>
      cases left
      exact ended ran
  | halted reason => cases left

theorem Tidy.requiresOnce (tidy : world.Tidy) (depth : Nat) (name : String) (scope : Scope) :
    world.RequiresOnce depth name scope := by
  have nested := orderly_evaluate depth
  have ran {after : World} (left : (require (evaluate depth) name scope world).world? = some after) :
      world.Ran after := (hands_require nested name scope tidy).ran left
  have started {path : String} (unsettled : ¬ world.Settled (Path.key path)) :
      world.asked.ReachesDuring world.asked.loading (world.asked.beginning path) :=
    during_beginning unsettled
  refine ⟨fun after left => (ran left).loading, fun after left => (ran left).during,
    fun after left key value => (ran left).reaches.cached, fun error found => ?refused,
    fun path found => ?unseen, fun path module found unsettled => ?runs, ?running, ?completes, ?fails⟩
  case refused =>
      rw [require, bind_of_value (requestModule_of_nextAnswer found)]
      rfl
  case unseen =>
      rw [require, bind_of_value (requestModule_of_nextAnswer found)]
      rfl
  case runs =>
      rw [require_of_unsettled found unsettled, runModule_apply]
  case running =>
      intro path module found unsettled start
      have ready : start.Tidy := (started unsettled).reaches.tidy tidy.asked
      refine ⟨fun after left => ((hands_run nested _ module.statements ready).ran left).during,
        fun later reaches => ?_⟩
      refine refuses_of_loading (reaches.reaches.tidy ready).apart ?_
      exact (reaches.still List.suffix_rfl).subset List.mem_cons_self
  case completes =>
      intro path module value after found completed
      have loaded := lookup_of_require found completed
      exact ⟨loaded, fun later reaches => gives_of_loaded (reaches.cached loaded)⟩
  case fails =>
      intro path module after found unsettled left failed
      rw [require_of_unsettled found unsettled] at left failed
      exact unsettled_of_runModule nested tidy.asked unsettled left failed

end World

/-- On a machine in use, in all states on the way of whatever it is asked to do: no module is in
progress twice, or both in progress and loaded; the next change makes no module begin that is either;
what is loaded is never run again; and each call of `require`, at any depth and with any answer of
the loader, leaves the modules in progress as they were and runs the statements of a module only if
it is neither in progress nor loaded, and then once. -/
theorem Session.Embedded.modules_run_once {loader : Loader} {searchPaths : List String}
    {world middle : World} (reached : Session.Embedded loader searchPaths world)
    (reaches : world.Reaches middle) :
    (∀ key ∈ middle.loading, middle.loaded.lookup key = none) ∧ middle.loading.Nodup ∧
      (∀ after, middle.Move after → ∀ key ∈ after.loading, key ∉ middle.loading →
        ¬ middle.Settled key) ∧
      (∀ key value, middle.loaded.lookup key = some value →
        ∀ later, middle.Reaches later → later.Gives key value) ∧
      ∀ depth name scope, middle.RequiresOnce depth name scope := by
  have tidy := reaches.tidy reached.tidy
  refine ⟨tidy.apart, tidy.once, fun after move key now earlier => move.begins now earlier,
    fun key value loaded later reaches => ?_, tidy.requiresOnce⟩
  exact World.gives_of_loaded (reaches.cached loaded)

/-- The module `a` is run and gives its value again when it is required once more. The module `b`
fails and is not loaded. -/
theorem Session.Embedded.modules_run_once_from_files :
    let look (path : String) : Look :=
      if path = "./a.rip" then .file "x = 3".toUTF8
      else if path = "./b.rip" then .file "y = 1\nz".toUTF8
      else .notFile "No such file"
    let world := World.fresh (Loader.ofFiles look) ["."]
    (∃ module value after, world.nextAnswer "a" Kernel.globals = .found "./a.rip" module ∧
      require (evaluate 9) "a" Kernel.globals world = moduleEnd "./a.rip"
        (run (evaluate 9) (world.asked.moduleScope "./a.rip") module.statements
          (world.asked.beginning "./a.rip")) ∧
      require (evaluate 9) "a" Kernel.globals world = .value value after ∧
      after.heap.inspect value = .ok "3" ∧ after.loading = [] ∧
      require (evaluate 9) "a" Kernel.globals after = .value value after.asked) ∧
    ∃ error after, require (evaluate 9) "b" Kernel.globals world = .failure error after ∧
      ¬ after.Settled (Path.key "./b.rip") := by
  intro look world
  let finds (world : World) (name wanted : String) : Bool :=
    match world.nextAnswer name Kernel.globals with
    | .found path _ => path == wanted
    | _ => false
  have found (world : World) (name wanted : String) (checked : finds world name wanted = true) :
      ∃ module, world.nextAnswer name Kernel.globals = .found wanted module := by
    cases answered : world.nextAnswer name Kernel.globals with
    | found path module =>
        simp only [finds, answered, beq_iff_eq] at checked
        exact ⟨module, by rw [checked]⟩
    | _ => simp [finds, answered] at checked
  have unsettled (path : String) : ¬ world.Settled (Path.key path) := by
    rintro (running | loaded)
    · cases running
    · cases loaded
  obtain ⟨-, -, -, -, requires⟩ :=
    modules_run_once (.fresh : Embedded (Loader.ofFiles look) ["."] world) (.refl world)
  constructor
  · obtain ⟨module, answered⟩ := found world "a" "./a.rip" (by decide +kernel)
    have once := requires 9 "a" Kernel.globals
    have checked : ((require (evaluate 9) "a" Kernel.globals world).result?.any fun value =>
        (require (evaluate 9) "a" Kernel.globals world).world?.any fun after =>
          (after.heap.inspect value).toOption == some "3" && after.loading.isEmpty &&
            finds after "a" "./a.rip") = true := by decide +kernel
    cases ended : require (evaluate 9) "a" Kernel.globals world with
    | value value after =>
        rw [ended] at checked
        simp only [Outcome.result?, Outcome.world?, Option.any_some, Bool.and_eq_true] at checked
        obtain ⟨⟨shown, idle⟩, again⟩ := checked
        obtain ⟨next, second⟩ := found after "a" "./a.rip" again
        have runs := once.runs _ module answered (unsettled _)
        rw [ended] at runs
        refine ⟨module, value, after, answered, runs, rfl, eq_ok_of_toOption (eq_of_beq shown),
          List.isEmpty_iff.mp idle, ?_⟩
        exact (once.completes _ module value after answered ended).2 after (.refl after) _ "a" _ _
          next second rfl
    | _ =>
        rw [ended] at checked
        cases checked
  · obtain ⟨module, answered⟩ := found world "b" "./b.rip" (by decide +kernel)
    have checked : (require (evaluate 9) "b" Kernel.globals world).error?.isSome = true := by
      decide +kernel
    cases ended : require (evaluate 9) "b" Kernel.globals world with
    | failure error after =>
        refine ⟨error, after, rfl, ?_⟩
        exact (requires 9 "b" Kernel.globals).fails _ module after answered (unsettled _)
          (by rw [ended]; rfl) (by rw [ended]; rfl)
    | _ =>
        rw [ended] at checked
        cases checked

end RipInterpreter
