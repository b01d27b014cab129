import RipInterpreter.Evaluation.Methods
import RipInterpreter.Proofs.Machine.Lawful
import RipInterpreter.Proofs.Machine.Moves

namespace RipInterpreter

variable {α β : Type} {world middle after : World}

/-- The first state was changed into the second. The modules that were in progress are so in all
states in between, and are the only ones at the end. -/
structure World.Ran (world after : World) : Prop where
  during : world.ReachesDuring world.loading after
  loading : after.loading = world.loading

theorem World.Ran.refl (world : World) : world.Ran world := ⟨.refl, rfl⟩

theorem World.Ran.trans (first : world.Ran middle) (second : middle.Ran after) :
    world.Ran after where
  during := first.during.trans (first.loading ▸ second.during)
  loading := second.loading.trans first.loading

/-- A change that modules in progress have no part in. -/
theorem World.Move.ran (move : world.Move after) (loading : after.loading = world.loading) :
    world.Ran after := ⟨move.during (loading ▸ List.suffix_rfl), loading⟩

theorem World.Ran.reaches (ran : world.Ran after) : world.Reaches after := ran.during.reaches

theorem World.Ran.tidy (ran : world.Ran after) (tidy : world.Tidy) : after.Tidy :=
  ran.reaches.tidy tidy

theorem World.Ran.holds (ran : world.Ran after) {handle : Handle}
    (held : world.heap.Holds handle) : after.heap.Holds handle := ran.reaches.holds held

/-- The step ran in an orderly way, and a value at its end is as expected. -/
inductive Outcome.Orderly (world : World) (expected : α → World → Prop) : Outcome α → Prop
  | value {result : α} {after : World} (ran : world.Ran after) (met : expected result after) :
    Orderly world expected (.value result after)
  | signal {raised : Signal} {after : World} (ran : world.Ran after)
    (held : after.heap.Holds raised.value) : Orderly world expected (.signal raised after)
  | failure {error : Error} {after : World} (ran : world.Ran after) :
    Orderly world expected (.failure error after)
  | halted (reason : Halt) : Orderly world expected (.halted reason)

/-- The same of an end whose state is kept apart. -/
def Completion.Orderly (completion : Completion α) (world : World)
    (expected : α → World → Prop) : Prop :=
  match completion with
  | .value result => expected result world
  | .signal raised => world.heap.Holds raised.value
  | .failure _ => True

theorem Completion.Orderly.later {completion : Completion Handle}
    (orderly : completion.Orderly world fun result after => after.heap.Holds result)
    (reaches : world.Reaches after) :
    completion.Orderly after fun result after => after.heap.Holds result := by
  cases completion with
  | failure error => trivial
  | _ => exact reaches.holds orderly

theorem Outcome.Orderly.before {outcome : Outcome α} {expected : α → World → Prop}
    (orderly : outcome.Orderly after expected) (ran : world.Ran after) :
    outcome.Orderly world expected := by
  cases orderly with
  | value later met => exact .value (ran.trans later) met
  | signal later held => exact .signal (ran.trans later) held
  | failure later => exact .failure (ran.trans later)
  | halted reason => exact .halted reason

theorem World.Tidy.lookup {scope : Scope} {name : String} {value : Handle} (tidy : world.Tidy)
    (found : world.frames.lookup scope name = some value) : world.heap.Holds value := by
  obtain ⟨number, _, held⟩ := List.exists_of_findSome?_eq_some found
  exact tidy.bindings number name value held

namespace Action

variable {action : Action α} {continuation : α → Action β} {expected first : α → World → Prop}
  {wanted : β → World → Prop} {known : α → Prop}

def Orderly (action : Action α) (world : World) (expected : α → World → Prop) : Prop :=
  (action world).Orderly world expected

/-- The value of the step exists. -/
def Hands (action : Action Handle) (world : World) : Prop :=
  action.Orderly world fun result after => after.heap.Holds result

/-- The step finds something out and leaves the state as it is. -/
def Finds (action : Action α) (world : World) (known : α → Prop) : Prop :=
  action.Orderly world fun result after => after = world ∧ known result

theorem Orderly.ran (orderly : action.Orderly world expected)
    (left : (action world).world? = some after) : world.Ran after := by
  unfold Orderly at orderly
  generalize action world = outcome at orderly left
  cases orderly with
  | halted reason => cases left
  | _ =>
      cases left
      assumption

theorem Orderly.mono (orderly : action.Orderly world first)
    (weaker : ∀ result after, first result after → expected result after) :
    action.Orderly world expected := by
  unfold Orderly at *
  generalize action world = outcome at orderly ⊢
  cases orderly with
  | value ran met => exact .value ran (weaker _ _ met)
  | signal ran held => exact .signal ran held
  | failure ran => exact .failure ran
  | halted reason => exact .halted reason

/-- The second step starts in a tidy state that the first one has left. -/
theorem Orderly.bind (tidy : world.Tidy) (before : action.Orderly world expected)
    (next : ∀ result after, world.Ran after → after.Tidy → expected result after →
      (continuation result).Orderly after wanted) :
    (action >>= continuation).Orderly world wanted := by
  unfold Orderly at before ⊢
  rw [bind_apply]
  generalize action world = outcome at before ⊢
  cases before with
  | value ran met => exact (next _ _ ran (ran.tidy tidy) met).before ran
  | signal ran held => exact .signal ran held
  | failure ran => exact .failure ran
  | halted reason => exact .halted reason

/-- What only reads needs no new state. -/
theorem Finds.bind (before : action.Finds world known)
    (next : ∀ result, known result → (continuation result).Orderly world wanted) :
    (action >>= continuation).Orderly world wanted := by
  unfold Finds Orderly at before
  unfold Orderly
  rw [bind_apply]
  generalize action world = outcome at before ⊢
  cases before with
  | value ran met =>
      obtain ⟨rfl, met⟩ := met
      exact next _ met
  | signal ran held => exact .signal ran held
  | failure ran => exact .failure ran
  | halted reason => exact .halted reason

theorem Finds.bind_congr (before : action.Finds world known) {first second : α → Action β}
    (same : ∀ result, known result → first result world = second result world) :
    (action >>= first) world = (action >>= second) world := by
  unfold Finds Orderly at before
  rw [bind_apply, bind_apply]
  generalize action world = outcome at before ⊢
  cases before with
  | value ran met =>
      obtain ⟨rfl, met⟩ := met
      exact same _ met
  | _ => rfl

theorem Orderly.pure {result : α} (met : expected result world) :
    (pure result : Action α).Orderly world expected := .value (.refl world) met

theorem Finds.pure {result : α} (met : known result) : (pure result : Action α).Finds world known :=
  .value (.refl world) ⟨rfl, met⟩

theorem Orderly.fail (error : Error) : (fail error : Action α).Orderly world expected :=
  .failure (.refl world)

theorem Orderly.fault (reason : RuntimeFault) : (fault reason : Action α).Orderly world expected :=
  .fail _

theorem Orderly.raise {raised : Signal} (held : world.heap.Holds raised.value) :
    (raise raised : Action α).Orderly world expected := .signal (.refl world) held

theorem Orderly.halt (reason : Halt) : (halt reason : Action α).Orderly world expected :=
  .halted reason

theorem finds_world : Action.world.Finds world (· = world) := .value (.refl world) ⟨rfl, rfl⟩

theorem finds_ask (question : Heap → Except ReadFault α) :
    (ask question).Finds world fun result => question world.heap = .ok result := by
  unfold Finds Orderly ask
  cases answered : question world.heap with
  | ok result => exact .value (.refl world) ⟨rfl, rfl⟩
  | error fault =>
      cases fault with
      | dangling handle => exact .failure (.refl world)
      | tooDeep => exact .halted _

/-- What is known of every answer is known of the one that is found. -/
theorem finds_answer {question : Heap → Except ReadFault α}
    (answers : Answers (question world.heap) known) : (ask question).Finds world known :=
  (finds_ask question).mono fun _ _ ⟨same, found⟩ => by
    obtain ⟨answer, answered, met⟩ := answers
    cases found.symm.trans answered
    exact ⟨same, met⟩

theorem Orderly.change {update : World → World} (move : world.Move (update world))
    (loading : (update world).loading = world.loading) :
    (change update).Orderly world fun _ _ => True := .value (move.ran loading) trivial

theorem Orderly.locate (orderly : action.Orderly world expected) (place : Location) :
    (locate place action).Orderly world expected := by
  unfold Orderly Action.locate at *
  generalize action world = outcome at orderly ⊢
  cases orderly with
  | value ran met => exact .value ran met
  | signal ran held => exact .signal ran held
  | failure ran => exact .failure ran
  | halted reason => exact .halted reason

theorem Orderly.settle (orderly : action.Orderly world expected) :
    (settle action).Orderly world fun completion after => completion.Orderly after expected := by
  unfold Orderly Action.settle at *
  generalize action world = outcome at orderly ⊢
  cases orderly with
  | value ran met => exact .value ran met
  | signal ran held => exact .value ran held
  | failure ran => exact .value ran trivial
  | halted reason => exact .halted reason

theorem Orderly.resume {completion : Completion α} (orderly : completion.Orderly world expected) :
    completion.resume.Orderly world expected := by
  cases completion with
  | value result => exact .pure orderly
  | signal raised => exact .raise orderly
  | failure error => exact .fail error

theorem Hands.catchReturned {action : Action Handle} (hands : action.Hands world) :
    (catchReturned action).Hands world := by
  unfold Hands Orderly Action.catchReturned at *
  generalize action world = outcome at hands ⊢
  cases hands with
  | value ran held => exact .value ran held
  | @signal raised _ ran held =>
      cases raised with
      | returned value => exact .value ran held
      | _ => exact .signal ran held
  | failure ran => exact .failure ran
  | halted reason => exact .halted reason

/-- Each item is visited in a state that the visits before have left; what holds of a result has to
outlast the later ones. -/
theorem Orderly.mapM {items : List α} {visit : α → Action β} (tidy : world.Tidy)
    (each : ∀ item ∈ items, ∀ after, world.Ran after → after.Tidy →
      (visit item).Orderly after wanted)
    (lasting : ∀ result middle after, middle.Ran after → wanted result middle →
      wanted result after) :
    (items.mapM visit).Orderly world fun results after =>
      ∀ result ∈ results, wanted result after := by
  induction items generalizing world with
  | nil => exact .pure fun _ inside => nomatch inside
  | cons item rest ih =>
      rw [List.mapM_cons]
      refine .bind tidy (each item List.mem_cons_self world (.refl world) tidy)
        fun result middle ran tidy met => ?_
      refine .bind tidy (ih tidy fun other inside after later =>
        each other (List.mem_cons_of_mem item inside) after (ran.trans later))
        fun results last later _ others => ?_
      refine .pure fun found inside => ?_
      rcases List.mem_cons.mp inside with rfl | inside
      · exact lasting found middle last later met
      · exact others found inside

theorem Hands.mapM {items : List α} {visit : α → Action Handle} (tidy : world.Tidy)
    (each : ∀ item ∈ items, ∀ after, world.Ran after → after.Tidy → (visit item).Hands after) :
    (items.mapM visit).Orderly world fun results after =>
      ∀ result ∈ results, after.heap.Holds result :=
  .mapM tidy each fun _ _ _ ran held => ran.holds held

theorem hands_allocate {object : Object} (admits : world.heap.Admits object) :
    (allocate object).Hands world :=
  .value (World.Move.ran (.make admits) rfl) (Heap.holds_next _ _)

theorem hands_instance {parent : Handle} {payload : Payload} (held : world.heap.Holds parent)
    (known : ∀ value ∈ payload.mentions, world.heap.Holds value) :
    (allocate (.instanceOf parent payload)).Hands world :=
  hands_allocate (Heap.admits_instance held known)

theorem hands_newInstance (kernelClass : KernelClass) {payload : Payload} (tidy : world.Tidy)
    (known : ∀ value ∈ payload.mentions, world.heap.Holds value) :
    (newInstance kernelClass payload).Hands world :=
  hands_instance (tidy.heap.kernelClass kernelClass) known

/-- A value without values inside. -/
theorem hands_simple (kernelClass : KernelClass) {payload : Payload} (tidy : world.Tidy)
    (empty : payload.mentions = []) : (newInstance kernelClass payload).Hands world :=
  hands_newInstance kernelClass tidy fun value inside => by
    rw [empty] at inside
    cases inside

theorem hands_newInteger (value : Int) (tidy : world.Tidy) : (newInteger value).Hands world :=
  hands_simple .integer tidy rfl

theorem hands_newString (value : String) (tidy : world.Tidy) : (newString value).Hands world :=
  hands_simple .string tidy rfl

theorem hands_newList {items : List Handle} (tidy : world.Tidy)
    (held : ∀ item ∈ items, world.heap.Holds item) : (newList items).Hands world :=
  hands_newInstance .list tidy held

theorem hands_newMap {pairs : List Handle} (tidy : world.Tidy)
    (held : ∀ pair ∈ pairs, world.heap.Holds pair) : (newMap pairs).Hands world :=
  hands_newInstance .map tidy held

theorem orderly_setProperty (object : Handle) (key : String) {property : Property}
    (known : ∀ value ∈ property.mentions, world.heap.Holds value) :
    (setProperty object key property).Orderly world fun _ _ => True :=
  (finds_ask _).bind fun _ _ => .change (.store object key known) rfl

theorem orderly_set (object : Handle) (key : String) {value : Handle}
    (held : world.heap.Holds value) : (set object key value).Orderly world fun _ _ => True :=
  orderly_setProperty object key fun _ inside => List.mem_singleton.mp inside ▸ held

theorem hands_newKeyValue {key value : Handle} (tidy : world.Tidy)
    (first : world.heap.Holds key) (second : world.heap.Holds value) :
    (newKeyValue key value).Hands world := by
  have made : (newInstance .keyValue (.keyValue key value)).Hands world :=
    hands_newInstance .keyValue tidy fun item inside => by
      rcases List.mem_cons.mp inside with rfl | inside
      · exact first
      · exact List.mem_singleton.mp inside ▸ second
  refine .bind tidy made fun pair middle ran tidy held => ?_
  refine .bind tidy (orderly_set pair "key" (ran.holds first)) fun _ later more tidy _ => ?_
  refine .bind tidy (orderly_set pair "value" ((ran.trans more).holds second))
    fun _ last final _ _ => ?_
  exact .pure ((more.trans final).holds held)

theorem hands_newRange {start last : Handle} (exclusive : Bool) (tidy : world.Tidy)
    (first : world.heap.Holds start) (second : world.heap.Holds last) :
    (newRange start last exclusive).Hands world := by
  have made : (newInstance .range (.range start last exclusive)).Hands world :=
    hands_newInstance .range tidy fun item inside => by
      rcases List.mem_cons.mp inside with rfl | inside
      · exact first
      · exact List.mem_singleton.mp inside ▸ second
  refine .bind tidy made fun range middle ran tidy held => ?_
  refine .bind tidy (orderly_set range "start" (ran.holds first)) fun _ later more tidy _ => ?_
  refine .bind tidy (orderly_set range "end" ((ran.trans more).holds second))
    fun _ last again tidy _ => ?_
  refine .bind tidy (orderly_set range "exclusive" (tidy.heap.ofBool exclusive))
    fun _ _ final _ _ => ?_
  exact .pure ((more.trans (again.trans final)).holds held)

theorem hands_newLambda {closure : Scope} {overloads : List Overload} (tidy : world.Tidy)
    (known : ∀ overload ∈ overloads, ∀ value ∈ overload.mentions, world.heap.Holds value) :
    (newLambda closure overloads).Hands world :=
  hands_newInstance .lambda tidy fun value inside => by
    obtain ⟨overload, listed, inside⟩ := List.mem_flatMap.mp inside
    exact known overload listed value inside

theorem hands_newException (message : String) (tidy : world.Tidy) :
    (newException message).Hands world := by
  refine .bind tidy (hands_simple .exception tidy rfl) fun exception middle ran tidy held => ?_
  refine .bind tidy (hands_newString message tidy) fun text later more tidy written => ?_
  refine .bind tidy (orderly_set exception "message" written) fun _ last final _ _ => ?_
  exact .pure ((more.trans final).holds held)

theorem hands_newClass (name : Option String) {parents : List Handle} (tidy : world.Tidy)
    (held : ∀ parent ∈ parents, world.heap.Holds parent) : (newClass name parents).Hands world := by
  have given : ∀ parent ∈ (if parents.isEmpty then [KernelClass.object.handle] else parents),
      world.heap.Holds parent := by
    split
    · intro parent inside
      exact List.mem_singleton.mp inside ▸ tidy.heap.kernelClass .object
    · exact held
  have empty : world.heap.Admits ⟨.empty, .plain⟩ :=
    ⟨fun _ _ found => (nomatch found), fun _ inside => nomatch inside⟩
  refine .bind tidy (hands_allocate empty) fun prototype middle ran tidy made => ?_
  refine finds_world.bind fun state same => ?_
  subst same
  refine (finds_answer (Heap.answers_lineage tidy.heap fun parent inside =>
    ran.holds (given parent inside))).bind fun lineage known => ?_
  cases lineage with
  | none => exact .fault _
  | some ancestors =>
      refine hands_allocate ⟨fun key property found value inside => ?_, fun value inside => ?_⟩
      · rcases List.mem_cons.mp (Table.mem_of_get?_ofList found) with same | listed
        · cases same
          exact List.mem_singleton.mp inside ▸ made
        · cases List.mem_singleton.mp listed
          exact List.mem_singleton.mp inside ▸ tidy.heap.kernelClass .classClass
      · rcases known ancestors rfl value inside with same | inherits
        · exact .inr ⟨same, rfl⟩
        · exact .inl (inherits.holds tidy.heap)

theorem orderly_nameClass (object : Handle) (name : String) :
    (nameClass object name).Orderly world fun _ _ => True :=
  (finds_ask _).bind fun _ _ => .change (.name object name) rfl

theorem orderly_enter (scope : Scope) : (enter scope).Orderly world fun _ _ => True :=
  .value (World.Move.ran (.enter scope.chain (world.frames.originOf scope)) rfl) trivial

theorem orderly_enterFrom (scope : Scope) (origin : String) :
    (enterFrom scope origin).Orderly world fun _ _ => True :=
  .value (World.Move.ran (.enter scope.chain (some origin)) rfl) trivial

theorem orderly_bindName (scope : Scope) (name : String) {value : Handle}
    (held : world.heap.Holds value) :
    (bindName scope name value).Orderly world fun _ _ => True := by
  unfold Orderly bindName
  cases bound : world.frames.bind scope name value with
  | ok frames => exact .value (World.Move.ran (.bind held bound) rfl) trivial
  | error fault => exact .failure (.refl world)

end Action

end RipInterpreter
