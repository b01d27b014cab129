import RipInterpreter.Evaluation.Methods
import RipInterpreter.Proofs.Syntax.Bare

namespace RipInterpreter

variable {α : Type}

def Error.bare : Error → Error
  | .compiler fault place => .compiler fault (place.map Location.bare)
  | .runtime fault place => .runtime fault (place.map Location.bare)
  | other => other

def Signal.bare : Signal → Signal
  | .thrown value place => .thrown value place.bare
  | other => other

def Body.bare : Body → Body
  | .block body => .block body.bare
  | .method native => .method native

def Overload.bare (overload : Overload) : Overload := ⟨overload.parameters, overload.body.bare⟩

def Callable.bare (callable : Callable) : Callable :=
  ⟨callable.closure, callable.overloads.map Overload.bare, callable.receiver⟩

def Payload.bare : Payload → Payload
  | .lambda callable => .lambda callable.bare
  | payload => payload

def Object.bare (object : Object) : Object := ⟨object.properties, object.payload.bare⟩

def Heap.bare (heap : Heap) : Heap := ⟨heap.objects.map Object.bare⟩

def World.bare (world : World) : World := { world with heap := world.heap.bare }

def LoadAnswer.bare : LoadAnswer → LoadAnswer
  | .found path module => .found path module.bare
  | .refused error => .refused error.bare
  | .unseen path => .unseen path

def Loader.bare (loader : Loader) : Loader :=
  ⟨fun request name searchPaths => (loader.answer request name searchPaths).bare⟩

def Completion.bare : Completion α → Completion α
  | .value result => .value result
  | .signal raised => .signal raised.bare
  | .failure error => .failure error.bare

theorem Error.bare_locate (error : Error) (place : Location) :
    (error.locate place).bare = error.bare.locate place.bare := by
  cases error with
  | compiler fault known => cases known <;> rfl
  | runtime fault known => cases known <;> rfl
  | _ => rfl

namespace Heap

variable {heap : Heap} {handle left right : Handle}

theorem get?_bare (heap : Heap) (handle : Handle) :
    heap.bare.get? handle = (heap.get? handle).map Object.bare := by
  simp [Heap.bare, get?]

theorem read_bare (heap : Heap) (handle : Handle) :
    heap.bare.read handle = (heap.read handle).map Object.bare := by
  unfold read
  rw [get?_bare]
  cases heap.get? handle <;> rfl

theorem next_bare (heap : Heap) : heap.bare.next = heap.next := by
  simp [Heap.bare, next]

theorem depth_bare (heap : Heap) : heap.bare.depth = heap.depth := by
  simp [Heap.bare, depth]

theorem bare_add (heap : Heap) (object : Object) :
    (heap.bare.add object.bare).2 = (heap.add object).2.bare := by
  simp [Heap.bare, add]

/-- A change that bare objects undergo in the same way. -/
theorem bare_modify (heap : Heap) (handle : Handle) {change : Object → Object}
    (same : ∀ object, change object.bare = (change object).bare) :
    heap.bare.modify handle change = (heap.modify handle change).bare := by
  unfold modify Heap.bare
  congr 1
  refine Array.ext_getElem? fun index => ?_
  simp only [Array.getElem?_modify, Array.getElem?_map]
  split
  · cases heap.objects[index]? with
    | none => rfl
    | some object => exact congrArg some (same object)
  · rfl

/-- What does not look into bodies goes on in the same way after reading a bare object. -/
theorem read_bind_bare {next next₁ : Object → Except ReadFault α}
    (same : ∀ object, next₁ object.bare = next object) :
    (heap.bare.read handle >>= next₁) = heap.read handle >>= next := by
  rw [read_bare]
  cases heap.read handle with
  | error fault => rfl
  | ok object => exact same object

theorem isClass_bare : heap.bare.isClass handle = heap.isClass handle :=
  read_bind_bare fun ⟨_, payload⟩ => by cases payload <;> rfl

theorem ancestors_bare : heap.bare.ancestors handle = heap.ancestors handle :=
  read_bind_bare fun ⟨_, payload⟩ => by cases payload <;> rfl

theorem isRoot_bare : heap.bare.isRoot handle = heap.isRoot handle :=
  read_bind_bare fun ⟨_, payload⟩ => by cases payload <;> rfl

theorem isA_bare {parent : Handle} : heap.bare.isA handle parent = heap.isA handle parent :=
  read_bind_bare fun object => by
    simp only [ancestors_bare]
    rfl

theorem mergeAncestors_bare {line roots inherited : List Handle} :
    heap.bare.mergeAncestors line roots inherited = heap.mergeAncestors line roots inherited := by
  induction inherited generalizing line roots with
  | nil => rfl
  | cons ancestor rest ih => simp only [mergeAncestors, isRoot_bare, ih]

theorem mergeParents_bare {line roots parents : List Handle} :
    heap.bare.mergeParents line roots parents = heap.mergeParents line roots parents := by
  induction parents generalizing line roots with
  | nil => rfl
  | cons parent rest ih =>
      refine read_bind_bare fun ⟨_, payload⟩ => ?_
      cases payload with
      | classObject name inherited => simp only [mergeAncestors_bare, ih]; rfl
      | _ => rfl

theorem lineage_bare {newClass : Handle} {parents : List Handle} :
    heap.bare.lineage newClass parents = heap.lineage newClass parents := mergeParents_bare

theorem findInherited_bare {key : String} {ancestors : List Handle} :
    heap.bare.findInherited key ancestors = heap.findInherited key ancestors := by
  induction ancestors with
  | nil => rfl
  | cons ancestor rest ih =>
      refine read_bind_bare fun object => ?_
      simp only [ih, Object.bare]
      cases object.properties.get? "@" with
      | none => rfl
      | some property =>
          cases property with
          | plain prototype => exact read_bind_bare fun _ => rfl
          | _ => rfl

theorem findProperty_bare {key : String} :
    heap.bare.findProperty handle key = heap.findProperty handle key :=
  read_bind_bare fun object => by
    simp only [ancestors_bare, findInherited_bare]
    rfl

theorem messageOf_bare : heap.bare.messageOf handle = heap.messageOf handle :=
  read_bind_bare fun object => by
    simp only [Object.bare]
    cases object.properties.get? "message" with
    | none => rfl
    | some property =>
        cases property with
        | plain message => exact read_bind_bare fun ⟨_, payload⟩ => by cases payload <;> rfl
        | _ => rfl

theorem classOf_bare : heap.bare.classOf handle = heap.classOf handle :=
  read_bind_bare fun _ => rfl

theorem className_bare : heap.bare.className handle = heap.className handle :=
  read_bind_bare fun ⟨_, payload⟩ => by cases payload <;> rfl

theorem inspectPlain_bare : heap.bare.inspectPlain handle = heap.inspectPlain handle := by
  simp only [inspectPlain, messageOf_bare, classOf_bare, className_bare]

theorem inspectWithin_bare {levels : Nat} :
    heap.bare.inspectWithin levels handle = heap.inspectWithin levels handle := by
  induction levels generalizing handle with
  | zero => rfl
  | succ levels ih =>
      have same : heap.bare.inspectWithin levels = heap.inspectWithin levels := funext fun _ => ih
      refine read_bind_bare fun ⟨_, payload⟩ => ?_
      simp only [same, inspectPlain_bare]
      cases payload <;> rfl

theorem inspect_bare : heap.bare.inspect handle = heap.inspect handle := by
  unfold inspect
  rw [depth_bare, inspectWithin_bare]

theorem display_bare : heap.bare.display handle = heap.display handle :=
  read_bind_bare fun ⟨_, payload⟩ => by
    simp only [inspect_bare]
    cases payload <;> rfl

/-- Lambdas are equal only if they are the same. -/
theorem equalPayloads_bare {ε : Type} (equal : Handle → Handle → Except ε Bool)
    (first second : Payload) :
    equalPayloads equal first.bare second.bare = equalPayloads equal first second := by
  cases first <;> cases second <;> rfl

theorem equalWithin_bare {levels : Nat} :
    heap.bare.equalWithin levels left right = heap.equalWithin levels left right := by
  induction levels generalizing left right with
  | zero => rfl
  | succ levels ih =>
      have same : heap.bare.equalWithin levels = heap.equalWithin levels :=
        funext fun _ => funext fun _ => ih
      unfold equalWithin
      split
      · rfl
      · refine read_bind_bare fun first => read_bind_bare fun second => ?_
        rw [same]
        exact equalPayloads_bare _ first.payload second.payload

theorem equal_bare : heap.bare.equal left right = heap.equal left right := by
  unfold equal
  rw [depth_bare, equalWithin_bare]

theorem matchParameters_bare {parameters : List Parameter} {arguments : List Handle} :
    heap.bare.matchParameters parameters arguments = heap.matchParameters parameters arguments := by
  induction parameters generalizing arguments with
  | nil => cases arguments <;> rfl
  | cons parameter rest ih =>
      cases arguments with
      | nil => cases parameter <;> rfl
      | cons argument others =>
          cases parameter with
          | binding name => exact ih
          | matcher expected => simp only [matchParameters, equal_bare, ih]

/-- The overload that is selected, with a bare body. -/
def bareBest (best : Option (Overload × Nat)) : Option (Overload × Nat) :=
  best.map fun chosen => (chosen.1.bare, chosen.2)

theorem selectOverload_bare {arguments : List Handle} (best : Option (Overload × Nat))
    {overloads : List Overload} :
    heap.bare.selectOverload arguments (bareBest best) (overloads.map Overload.bare) =
      (heap.selectOverload arguments best overloads).map bareBest := by
  induction overloads generalizing best with
  | nil => rfl
  | cons overload rest ih =>
      unfold selectOverload
      by_cases fits : overload.parameters.length = arguments.length
      · simp only [List.map_cons, Overload.bare, if_pos fits, matchParameters_bare]
        cases heap.matchParameters overload.parameters arguments with
        | error fault => rfl
        | ok literals =>
            cases literals with
            | none => exact ih best
            | some literals =>
                cases best with
                | none => exact ih (some (overload, literals))
                | some chosen =>
                    by_cases more : chosen.2 < literals
                    · simpa [bareBest, bind, Except.bind, more, Overload.bare] using
                        ih (some (overload, literals))
                    · simpa [bareBest, bind, Except.bind, more, Overload.bare] using
                        ih (some chosen)
      · simp only [List.map_cons, Overload.bare, if_neg fits]
        exact ih best

end Heap

end RipInterpreter
