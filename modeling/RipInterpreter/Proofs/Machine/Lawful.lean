import RipInterpreter.Evaluation.Step
import RipInterpreter.Proofs.Machine.SoundWorld
import RipInterpreter.Proofs.Machine.Steps

/-!
Lawful steps. Run in a sound state, such a step does to the state only what `World.Step` allows,
raises a value that a program may have, and never blames the interpreter unless the loader does.
`Lawful.bind` carries this through a run.
-/

namespace RipInterpreter

variable {α β : Type} {world after : World}

/-- The value that a signal carries. -/
def Signal.value : Signal → Handle
  | .returned value | .thrown value _ | .exited value => value

/-- An internal error is one that the loader answers with. -/
def Loader.Explains (loader : Loader) (error : Error) : Prop :=
  error.isInternal = true →
    ∃ request name searchPaths, loader.answer request name searchPaths = .refused error

/-- The step took the state along lawful ones, and ended lawfully, with a value as expected if with
any. -/
inductive Outcome.Meets (world : World) (expected : α → World → Prop) : Outcome α → Prop
  | value {result : α} {after : World} (leads : world.Leads after) (met : expected result after) :
    Meets world expected (.value result after)
  | signal {raised : Signal} {after : World} (leads : world.Leads after)
    (proper : after.heap.Proper raised.value) : Meets world expected (.signal raised after)
  | failure {error : Error} {after : World} (leads : world.Leads after)
    (explained : world.loader.Explains error) : Meets world expected (.failure error after)
  | halted (reason : Halt) : Meets world expected (.halted reason)

/-- The same of an end whose state is kept apart. -/
def Completion.Meets (completion : Completion α) (world : World) (expected : α → World → Prop) :
    Prop :=
  match completion with
  | .value result => expected result world
  | .signal raised => world.heap.Proper raised.value
  | .failure error => world.loader.Explains error

/-- The interpreter is not to blame for the end, and a value at the end exists. -/
structure Outcome.Blameless (outcome : Outcome Handle) : Prop where
  failure : ∀ error after, outcome = .failure error after → error.isInternal = false
  value : ∀ result after, outcome = .value result after → after.heap.Proper result

theorem Loader.explains_of_blameless {loader : Loader} {error : Error}
    (blameless : error.isInternal = false) : loader.Explains error := by
  intro blames
  rw [blameless] at blames
  cases blames

theorem Completion.Meets.later {completion : Completion Handle}
    (meets : completion.Meets world fun result after => after.heap.Proper result)
    (leads : world.Leads after) :
    completion.Meets after fun result after => after.heap.Proper result := by
  cases completion with
  | failure error =>
      change after.loader.Explains error
      rw [leads.loader]
      exact meets
  | _ => exact leads.proper meets

theorem Outcome.Meets.before {outcome : Outcome α} {expected : α → World → Prop}
    (meets : outcome.Meets after expected) (leads : world.Leads after) :
    outcome.Meets world expected := by
  cases meets with
  | value later met => exact .value (leads.trans later) met
  | signal later proper => exact .signal (leads.trans later) proper
  | failure later explained => exact .failure (leads.trans later) (leads.loader ▸ explained)
  | halted reason => exact .halted reason

/-- Internal errors have no place. -/
theorem Loader.Explains.locate {loader : Loader} {error : Error} (explained : loader.Explains error)
    (place : Location) : loader.Explains (error.locate place) := by
  cases error with
  | compiler fault place => exact Loader.explains_of_blameless (by cases place <;> rfl)
  | runtime fault place => exact Loader.explains_of_blameless (by cases place <;> rfl)
  | _ => exact explained

theorem World.SoundState.lookup {scope : Scope} {name : String} {value : Handle}
    (sound : world.SoundState)
    (found : world.frames.lookup scope name = some value) : world.heap.Proper value := by
  obtain ⟨number, _, held⟩ := List.exists_of_findSome?_eq_some found
  exact sound.bindings number name value held

namespace Action

variable {action : Action α} {continuation : α → Action β} {expected first : α → World → Prop}
  {wanted : β → World → Prop} {known : α → Prop}

/-- However the step ends in this state, it ends lawfully, and with a value as expected. -/
def Lawful (action : Action α) (world : World) (expected : α → World → Prop) : Prop :=
  (action world).Meets world expected

/-- The value of the step is one that a program may have. -/
def Gives (action : Action Handle) (world : World) : Prop :=
  action.Lawful world fun result after => after.heap.Proper result

/-- The step finds something out and leaves the state as it is. -/
def Reads (action : Action α) (world : World) (known : α → Prop) : Prop :=
  action.Lawful world fun result after => after = world ∧ known result

theorem Lawful.mono (lawful : action.Lawful world first)
    (weaker : ∀ result after, world.Leads after → first result after → expected result after) :
    action.Lawful world expected := by
  unfold Lawful at *
  generalize action world = outcome at lawful ⊢
  cases lawful with
  | value leads met => exact .value leads (weaker _ _ leads met)
  | signal leads proper => exact .signal leads proper
  | failure leads explained => exact .failure leads explained
  | halted reason => exact .halted reason

theorem Lawful.leads (lawful : action.Lawful world expected)
    (left : (action world).world? = some after) : world.Leads after := by
  unfold Lawful at lawful
  generalize action world = outcome at lawful left
  cases lawful with
  | halted reason => cases left
  | _ =>
      cases left
      assumption

/-- The second step starts in a sound state that the first one has led to. -/
theorem Lawful.bind (sound : world.SoundState) (before : action.Lawful world expected)
    (next : ∀ result after, world.Leads after → after.SoundState → expected result after →
      (continuation result).Lawful after wanted) :
    (action >>= continuation).Lawful world wanted := by
  unfold Lawful at before ⊢
  rw [bind_apply]
  generalize action world = outcome at before ⊢
  cases before with
  | value leads met => exact (next _ _ leads (leads.soundState sound) met).before leads
  | signal leads proper => exact .signal leads proper
  | failure leads explained => exact .failure leads explained
  | halted reason => exact .halted reason

/-- What only reads needs no new state. -/
theorem Reads.bind (before : action.Reads world known)
    (next : ∀ result, known result → (continuation result).Lawful world wanted) :
    (action >>= continuation).Lawful world wanted := by
  unfold Reads Lawful at before
  unfold Lawful
  rw [bind_apply]
  generalize action world = outcome at before ⊢
  cases before with
  | value leads met =>
      obtain ⟨rfl, met⟩ := met
      exact next _ met
  | signal leads proper => exact .signal leads proper
  | failure leads explained => exact .failure leads explained
  | halted reason => exact .halted reason

/-- On a sound machine the loader does not blame the interpreter either. -/
theorem Gives.blameless {action : Action Handle} (gives : action.Gives world)
    (sound : world.Sound := by assumption) : (action world).Blameless := by
  unfold Gives Lawful at gives
  generalize action world = outcome at gives ⊢
  constructor
  · rintro error after rfl
    cases gives with
    | failure leads explained =>
        refine Bool.eq_false_iff.mpr fun blames => ?_
        obtain ⟨request, name, searchPaths, refused⟩ := explained blames
        rw [sound.loader request name searchPaths error refused] at blames
        cases blames
  · rintro result after rfl
    cases gives with
    | value leads proper => exact proper

theorem Lawful.pure {result : α} (met : expected result world) :
    (pure result : Action α).Lawful world expected := .value (.refl world) met

theorem Reads.pure {result : α} (met : known result) : (pure result : Action α).Reads world known :=
  .value (.refl world) ⟨rfl, met⟩

theorem Lawful.fail {error : Error} (blameless : error.isInternal = false) :
    (fail error : Action α).Lawful world expected :=
  .failure (.refl world) (Loader.explains_of_blameless blameless)

theorem Lawful.fault (reason : RuntimeFault) : (fault reason : Action α).Lawful world expected :=
  .fail rfl

theorem Lawful.raise {raised : Signal} (proper : world.heap.Proper raised.value) :
    (raise raised : Action α).Lawful world expected := .signal (.refl world) proper

theorem Lawful.halt (reason : Halt) : (halt reason : Action α).Lawful world expected :=
  .halted reason

theorem reads_world : Action.world.Reads world (· = world) := .value (.refl world) ⟨rfl, rfl⟩

theorem reads_ask {question : Heap → Except ReadFault α}
    (answers : Answers (question world.heap) known) : (ask question).Reads world known := by
  obtain ⟨result, answered, met⟩ := answers
  unfold Reads Lawful ask
  rw [answered]
  exact .value (.refl world) ⟨rfl, met⟩

/-- The value is the answer itself, whatever else is known of it. -/
theorem reads_answer {question : Heap → Except ReadFault α}
    (answers : Answers (question world.heap) known) :
    (ask question).Reads world fun result => question world.heap = .ok result := by
  obtain ⟨result, answered, _⟩ := answers
  exact reads_ask ⟨result, answered, answered⟩

theorem Lawful.change {update : World → World} (step : world.Step (update world)) :
    (change update).Lawful world fun _ _ => True := .value step.leads trivial

theorem Lawful.locate (lawful : action.Lawful world expected) (place : Location) :
    (locate place action).Lawful world expected := by
  unfold Lawful Action.locate at *
  generalize action world = outcome at lawful ⊢
  cases lawful with
  | value leads met => exact .value leads met
  | signal leads proper => exact .signal leads proper
  | failure leads explained => exact .failure leads (explained.locate place)
  | halted reason => exact .halted reason

theorem Lawful.settle (lawful : action.Lawful world expected) :
    (settle action).Lawful world fun completion after => completion.Meets after expected := by
  unfold Lawful Action.settle at *
  generalize action world = outcome at lawful ⊢
  cases lawful with
  | value leads met => exact .value leads met
  | signal leads proper => exact .value leads proper
  | @failure error after leads explained =>
      have told : after.loader.Explains error := leads.loader ▸ explained
      exact .value leads told
  | halted reason => exact .halted reason

theorem Lawful.resume {completion : Completion α} (meets : completion.Meets world expected) :
    completion.resume.Lawful world expected := by
  cases completion with
  | value result => exact .pure meets
  | signal raised => exact .raise meets
  | failure error => exact .failure (.refl world) meets

theorem Gives.ended {action : Action Handle} {value : Handle} (gives : action.Gives world)
    (ended : action world = .value value after) : world.Leads after ∧ after.heap.Proper value := by
  unfold Gives Lawful at gives
  rw [ended] at gives
  cases gives with
  | value leads proper => exact ⟨leads, proper⟩

theorem Gives.catchReturned {action : Action Handle} (gives : action.Gives world) :
    (catchReturned action).Gives world := by
  unfold Gives Lawful Action.catchReturned at *
  generalize action world = outcome at gives ⊢
  cases gives with
  | value leads proper => exact .value leads proper
  | @signal raised _ leads proper =>
      cases raised with
      | returned value => exact .value leads proper
      | _ => exact .signal leads proper
  | failure leads explained => exact .failure leads explained
  | halted reason => exact .halted reason

/-- Each item is visited in a state that the visits before have led to; what holds of a result has to
outlast the later ones. -/
theorem Lawful.mapM {items : List α} {visit : α → Action β} (sound : world.SoundState)
    (each : ∀ item ∈ items, ∀ after, world.Leads after → after.SoundState →
      (visit item).Lawful after wanted)
    (lasting : ∀ result middle after, middle.Leads after → wanted result middle →
      wanted result after) :
    (items.mapM visit).Lawful world fun results after =>
      ∀ result ∈ results, wanted result after := by
  induction items generalizing world with
  | nil => exact .pure fun _ inside => nomatch inside
  | cons item rest ih =>
      rw [List.mapM_cons]
      refine .bind sound (each item List.mem_cons_self world (.refl world) sound)
        fun result middle leads sound met => ?_
      refine .bind sound (ih sound fun other inside after later =>
        each other (List.mem_cons_of_mem item inside) after (leads.trans later))
        fun results last later _ others => ?_
      refine .pure fun found inside => ?_
      rcases List.mem_cons.mp inside with rfl | inside
      · exact lasting found middle last later met
      · exact others found inside

theorem Gives.mapM {items : List α} {visit : α → Action Handle} (sound : world.SoundState)
    (each : ∀ item ∈ items, ∀ after, world.Leads after → after.SoundState → (visit item).Gives after) :
    (items.mapM visit).Lawful world fun results after =>
      ∀ result ∈ results, after.heap.Proper result :=
  .mapM sound each fun _ _ _ leads proper => leads.proper proper

theorem gives_allocate {object : Object} (makes : world.heap.Makes object) :
    (allocate object).Gives world := .value (World.Step.make makes).leads makes.proper

theorem gives_newInstance (kernelClass : KernelClass) {payload : Payload} (literal : payload.IsValue)
    (contents : ∀ item ∈ payload.contents, world.heap.Proper item) :
    (newInstance kernelClass payload).Gives world :=
  gives_allocate (.value kernelClass literal contents)

/-- A value without values inside. -/
theorem gives_simple (kernelClass : KernelClass) {payload : Payload} (literal : payload.IsValue)
    (empty : payload.contents = []) : (newInstance kernelClass payload).Gives world :=
  gives_newInstance kernelClass literal fun item inside => by
    rw [empty] at inside
    cases inside

theorem gives_newInteger (value : Int) : (newInteger value).Gives world :=
  gives_simple .integer trivial rfl

theorem gives_newDecimal (value : Float) : (newDecimal value).Gives world :=
  gives_simple .decimal trivial rfl

theorem gives_newCharacter (value : Char) : (newCharacter value).Gives world :=
  gives_simple .character trivial rfl

theorem gives_newString (value : String) : (newString value).Gives world :=
  gives_simple .string trivial rfl

theorem gives_newRegularExpression (pattern : String) : (newRegularExpression pattern).Gives world :=
  gives_simple .regularExpression trivial rfl

theorem gives_newList {items : List Handle} (proper : ∀ item ∈ items, world.heap.Proper item) :
    (newList items).Gives world := gives_newInstance .list trivial proper

theorem gives_newMap {pairs : List Handle} (proper : ∀ pair ∈ pairs, world.heap.Proper pair) :
    (newMap pairs).Gives world := gives_newInstance .map trivial proper

theorem lawful_set {object value : Handle} (key : String) (held : world.heap.Holds object)
    (proper : world.heap.Proper value) : (set object key value).Lawful world fun _ _ => True :=
  (reads_ask (Heap.answers_read held)).bind fun _ _ => .change (.store object key proper)

theorem gives_newKeyValue {key value : Handle} (sound : world.SoundState)
    (first : world.heap.Proper key) (second : world.heap.Proper value) :
    (newKeyValue key value).Gives world := by
  have made : (newInstance .keyValue (.keyValue key value)).Gives world :=
    gives_newInstance .keyValue trivial fun item inside => by
      rcases List.mem_cons.mp inside with rfl | inside
      · exact first
      · exact List.mem_singleton.mp inside ▸ second
  refine .bind sound made fun pair after leads sound proper => ?_
  refine .bind sound (lawful_set "key" proper.holds (leads.proper first))
    fun _ later more sound _ => ?_
  refine .bind sound (lawful_set "value" (more.proper proper).holds
    ((leads.trans more).proper second)) fun _ last final _ _ => ?_
  exact .pure ((more.trans final).proper proper)

theorem gives_newRange {start last : Handle} (exclusive : Bool) (sound : world.SoundState)
    (first : world.heap.Proper start) (second : world.heap.Proper last) :
    (newRange start last exclusive).Gives world := by
  have made : (newInstance .range (.range start last exclusive)).Gives world :=
    gives_newInstance .range trivial fun item inside => by
      rcases List.mem_cons.mp inside with rfl | inside
      · exact first
      · exact List.mem_singleton.mp inside ▸ second
  refine .bind sound made fun range after leads sound proper => ?_
  refine .bind sound (lawful_set "start" proper.holds (leads.proper first))
    fun _ middle more sound _ => ?_
  have made := more.proper proper
  refine .bind sound (lawful_set "end" made.holds ((leads.trans more).proper second))
    fun _ later again sound _ => ?_
  have made := again.proper made
  refine .bind sound (lawful_set "exclusive" made.holds (sound.heap.ofBool exclusive))
    fun _ last final _ _ => ?_
  exact .pure (final.proper made)

theorem gives_newLambda {closure : Scope} {overloads : List Overload}
    (written : ∀ overload ∈ overloads, ∃ block, overload.body = .block block)
    (fine : ∀ overload ∈ overloads, world.heap.SoundOverload overload) :
    (newLambda closure overloads).Gives world :=
  gives_allocate (.lambda (fun _ => written) ⟨fun _ tied => (nomatch tied), fine⟩)

theorem gives_newException (message : String) (sound : world.SoundState) :
    (newException message).Gives world := by
  refine .bind sound (gives_allocate (.object (sound.heap.kernelClass .exception)))
    fun exception after leads sound proper => ?_
  refine .bind sound (gives_newString message) fun text later more sound written => ?_
  refine .bind sound (lawful_set "message" (more.proper proper).holds written)
    fun _ last final _ _ => ?_
  exact .pure ((more.trans final).proper proper)

theorem gives_newClass (name : Option String) {parents : List Handle} (sound : world.SoundState)
    (given : ∀ parent ∈ parents, world.heap.Proper parent) :
    (newClass name parents).Gives world := by
  have given : ∀ parent ∈ (if parents.isEmpty then [KernelClass.object.handle] else parents),
      world.heap.Proper parent := by
    split
    · intro parent inside
      exact List.mem_singleton.mp inside ▸ sound.heap.kernelClass .object
    · exact given
  refine .bind sound (gives_allocate .prototype) fun prototype after leads sound proper => ?_
  refine reads_world.bind fun state same => ?_
  subst same
  have present := fun parent inside => leads.proper (given parent inside)
  refine (reads_answer (Heap.answers_lineage sound.heap fun parent inside =>
    (present parent inside).holds)).bind fun lineage answered => ?_
  cases lineage with
  | none => exact .fault _
  | some ancestors => exact gives_allocate (.classObject name proper present answered)

theorem lawful_nameClass {object : Handle} (name : String) (held : world.heap.Holds object) :
    (nameClass object name).Lawful world fun _ _ => True :=
  (reads_ask (Heap.answers_read held)).bind fun _ _ => .change (.name object name)

theorem lawful_enter (scope : Scope) : (enter scope).Lawful world fun _ _ => True :=
  .value (World.Step.enter scope.chain (world.frames.originOf scope)).leads trivial

theorem lawful_enterFrom (scope : Scope) (origin : String) :
    (enterFrom scope origin).Lawful world fun _ _ => True :=
  .value (World.Step.enter scope.chain (some origin)).leads trivial

theorem lawful_bindName (scope : Scope) (name : String) {value : Handle}
    (proper : world.heap.Proper value) :
    (bindName scope name value).Lawful world fun _ _ => True := by
  unfold Lawful bindName
  cases bound : world.frames.bind scope name value with
  | ok frames => exact .value (World.Step.bind proper bound).leads trivial
  | error fault => exact .failure (.refl world) (Loader.explains_of_blameless rfl)

end Action

end RipInterpreter
