import RipInterpreter.Proofs.Evaluation.Embedding
import RipInterpreter.Proofs.Machine.Alters

/-!
Where properties are looked up, and which look-ups notice a write. The chain of a value is the value
itself, followed by the prototypes of the ancestors of its class. A write shows along a chain from
the object that was written to as far as nothing in front of it holds the same name.
-/

namespace RipInterpreter

namespace Heap

variable {heap : Heap} {owner value member receiver : Handle} {members : List Handle}
  {key name : String} {property : Property}

/-- What an ancestor adds to a chain: its prototype, if it has one. An ancestor that does not exist
stands for itself, and no look-up gets past it. -/
def prototypes (heap : Heap) (ancestor : Handle) : List Handle :=
  match heap.get? ancestor with
  | none => [ancestor]
  | some object =>
    match object.properties.get? "@" with
    | some (.plain prototype) => [prototype]
    | _ => []

/-- What a class adds to the chains of its values. -/
def inherited (heap : Heap) (parent : Handle) : List Handle :=
  match heap.ancestors parent with
  | .ok ancestors => ancestors.flatMap heap.prototypes
  | .error _ => [parent]

/-- The objects through which the properties of a value are looked up, in order. -/
def chain (heap : Heap) (receiver : Handle) : List Handle :=
  receiver :: match (heap.get? receiver).bind Object.classHandle with
    | some parent => heap.inherited parent
    | none => []

/-- The object exists and does not hold the name itself. -/
def Lacks (heap : Heap) (member : Handle) (name : String) : Prop :=
  ∃ object, heap.get? member = some object ∧ object.properties.get? name = none

/-- A look-up of the name through some objects in order comes to one of them: all in front of it
lack the name. -/
inductive ComesTo (heap : Heap) (name : String) : List Handle → Handle → Prop
  | here (member : Handle) (rest : List Handle) : ComesTo heap name (member :: rest) member
  | past {first member : Handle} {rest : List Handle} (lacks : heap.Lacks first name)
    (further : ComesTo heap name rest member) : ComesTo heap name (first :: rest) member

instance (heap : Heap) (member : Handle) (name : String) : Decidable (heap.Lacks member name) :=
  decidable_of_iff (∃ object ∈ heap.get? member, object.properties.get? name = none) Iff.rfl

theorem comesTo_cons_iff {first : Handle} {rest : List Handle} :
    heap.ComesTo name (first :: rest) member ↔
      first = member ∨ heap.Lacks first name ∧ heap.ComesTo name rest member := by
  constructor
  · intro comes
    cases comes with
    | here => exact .inl rfl
    | past lacks further => exact .inr ⟨lacks, further⟩
  · rintro (rfl | ⟨lacks, further⟩)
    · exact .here first rest
    · exact .past lacks further

instance decidableComesTo (heap : Heap) (name : String) :
    (members : List Handle) → (member : Handle) → Decidable (heap.ComesTo name members member)
  | [], _ => .isFalse nofun
  | _ :: rest, member =>
    have := decidableComesTo heap name rest member
    decidable_of_iff _ comesTo_cons_iff.symm

/-- The first of several objects that holds the name, with what it holds. -/
def search (heap : Heap) (name : String) : List Handle → Except ReadFault (Option (Handle × Property))
  | [] => .ok none
  | member :: rest => do
    match (← heap.read member).properties.get? name with
    | some property => return some (member, property)
    | none => heap.search name rest

/-- Properties are found along chains: at the first object that holds the name. -/
structure ResolvesAlongChains (heap : Heap) : Prop where
  found : ∀ receiver name owner property,
    heap.findProperty receiver name = .ok (some (owner, property)) ↔
      heap.ComesTo name (heap.chain receiver) owner ∧ heap.Stores owner name property
  absent : ∀ receiver name, heap.findProperty receiver name = .ok none ↔
    ∀ member ∈ heap.chain receiver, heap.Lacks member name
  missing : ∀ receiver name fault, heap.findProperty receiver name = .error fault ↔
    ∃ member, heap.ComesTo name (heap.chain receiver) member ∧ ¬ heap.Holds member ∧
      fault = .dangling member

/-- What a write to an object is noticed by: the look-ups of that name that come to the object. -/
structure ShowsWrite (heap after : Heap) (owner : Handle) (key : String) (value : Handle) :
    Prop where
  chains : ∀ receiver, after.chain receiver = heap.chain receiver
  others : ∀ receiver name, name ≠ key →
    after.findProperty receiver name = heap.findProperty receiver name
  reached : ∀ receiver, heap.ComesTo key (heap.chain receiver) owner →
    after.findProperty receiver key = .ok (some (owner, .plain value))
  unreached : ∀ receiver, ¬ heap.ComesTo key (heap.chain receiver) owner →
    after.findProperty receiver key = heap.findProperty receiver key

theorem not_holds_iff : ¬ heap.Holds member ↔ heap.get? member = none := by
  rw [Holds, ← Option.isSome_iff_exists, Bool.not_eq_true, Option.isSome_eq_false_iff,
    Option.isNone_iff_eq_none]

theorem read_of_not_holds (missing : ¬ heap.Holds member) :
    heap.read member = .error (.dangling member) := by
  rw [read, not_holds_iff.mp missing]

theorem missing_of_ancestors {fault : ReadFault} (failed : heap.ancestors member = .error fault) :
    ¬ heap.Holds member ∧ fault = .dangling member := by
  have missing : ¬ heap.Holds member := by
    intro held
    obtain ⟨ancestors, answered, -⟩ := answers_ancestors held
    rw [answered] at failed
    cases failed
  rw [ancestors, read_of_not_holds missing] at failed
  cases failed
  exact ⟨missing, rfl⟩

theorem Lacks.holds (lacks : heap.Lacks member name) : heap.Holds member := by
  obtain ⟨object, found, -⟩ := lacks
  exact ⟨object, found⟩

theorem search_cons_of_stores (stores : heap.Stores member name property) (rest : List Handle) :
    heap.search name (member :: rest) = .ok (some (member, property)) := by
  obtain ⟨object, found, held⟩ := stores
  simp only [search, read_eq_ok found, bind, Except.bind, held]
  rfl

theorem search_cons_of_lacks (lacks : heap.Lacks member name) (rest : List Handle) :
    heap.search name (member :: rest) = heap.search name rest := by
  obtain ⟨object, found, absent⟩ := lacks
  simp only [search, read_eq_ok found, bind, Except.bind, absent]

theorem search_cons_of_missing (missing : ¬ heap.Holds member) (rest : List Handle) :
    heap.search name (member :: rest) = .error (.dangling member) := by
  simp only [search, read_of_not_holds missing, bind, Except.bind]

theorem stores_or_lacks_or_missing (heap : Heap) (member : Handle) (name : String) :
    (∃ property, heap.Stores member name property) ∨ heap.Lacks member name ∨
      ¬ heap.Holds member := by
  cases found : heap.get? member with
  | none => exact .inr (.inr (not_holds_iff.mpr found))
  | some object =>
      cases held : object.properties.get? name with
      | some property => exact .inl ⟨property, object, found, held⟩
      | none => exact .inr (.inl ⟨object, found, held⟩)

theorem Stores.not_lacks (stores : heap.Stores member name property) :
    ¬ heap.Lacks member name := by
  rintro ⟨object, found, absent⟩
  obtain ⟨same, present, held⟩ := stores
  cases found.symm.trans present
  rw [absent] at held
  cases held

theorem search_eq_found : heap.search name members = .ok (some (owner, property)) ↔
    heap.ComesTo name members owner ∧ heap.Stores owner name property := by
  induction members with
  | nil => exact ⟨nofun, fun ⟨comes, _⟩ => nomatch comes⟩
  | cons first rest ih =>
      rcases heap.stores_or_lacks_or_missing first name with ⟨held, stores⟩ | lacks | missing
      · rw [search_cons_of_stores stores]
        constructor
        · intro same
          cases same
          exact ⟨.here _ rest, stores⟩
        · rintro ⟨comes, stored⟩
          cases comes with
          | here =>
              obtain ⟨object, found, held⟩ := stores
              obtain ⟨other, present, stored⟩ := stored
              cases found.symm.trans present
              cases held.symm.trans stored
              rfl
          | past lacks => exact absurd lacks stores.not_lacks
      · rw [search_cons_of_lacks lacks, ih]
        refine and_congr_left fun stored => ⟨.past lacks, fun comes => ?_⟩
        cases comes with
        | here => exact absurd lacks stored.not_lacks
        | past _ further => exact further
      · rw [search_cons_of_missing missing]
        refine ⟨nofun, fun ⟨comes, stored⟩ => ?_⟩
        cases comes with
        | here =>
            obtain ⟨object, found, -⟩ := stored
            exact absurd ⟨object, found⟩ missing
        | past lacks => exact absurd lacks.holds missing

theorem search_eq_none : heap.search name members = .ok none ↔
    ∀ member ∈ members, heap.Lacks member name := by
  induction members with
  | nil => exact ⟨nofun, fun _ => rfl⟩
  | cons first rest ih =>
      rw [List.forall_mem_cons]
      rcases heap.stores_or_lacks_or_missing first name with ⟨held, stores⟩ | lacks | missing
      · rw [search_cons_of_stores stores]
        exact ⟨nofun, fun ⟨lacks, _⟩ => absurd lacks stores.not_lacks⟩
      · rw [search_cons_of_lacks lacks, ih]
        exact (and_iff_right lacks).symm
      · rw [search_cons_of_missing missing]
        exact ⟨nofun, fun ⟨lacks, _⟩ => absurd lacks.holds missing⟩

theorem search_eq_error {fault : ReadFault} : heap.search name members = .error fault ↔
    ∃ member, heap.ComesTo name members member ∧ ¬ heap.Holds member ∧
      fault = .dangling member := by
  induction members with
  | nil => exact ⟨nofun, fun ⟨_, comes, _⟩ => nomatch comes⟩
  | cons first rest ih =>
      rcases heap.stores_or_lacks_or_missing first name with ⟨held, stores⟩ | lacks | missing
      · rw [search_cons_of_stores stores]
        refine ⟨nofun, fun ⟨member, comes, missing, _⟩ => ?_⟩
        cases comes with
        | here =>
            obtain ⟨object, found, -⟩ := stores
            exact absurd ⟨object, found⟩ missing
        | past lacks => exact absurd lacks stores.not_lacks
      · rw [search_cons_of_lacks lacks, ih]
        constructor
        · rintro ⟨member, comes, missing, same⟩
          exact ⟨member, .past lacks comes, missing, same⟩
        · rintro ⟨member, comes, missing, same⟩
          cases comes with
          | here => exact absurd lacks.holds missing
          | past _ further => exact ⟨member, further, missing, same⟩
      · rw [search_cons_of_missing missing]
        constructor
        · intro same
          cases same
          exact ⟨first, .here first rest, missing, rfl⟩
        · rintro ⟨member, comes, -, rfl⟩
          cases comes with
          | here => rfl
          | past lacks => exact absurd lacks.holds missing

theorem findInherited_eq_search (ancestors : List Handle) :
    heap.findInherited name ancestors = heap.search name (ancestors.flatMap heap.prototypes) := by
  induction ancestors with
  | nil => rfl
  | cons ancestor rest ih =>
      rw [findInherited, List.flatMap_cons, prototypes]
      cases found : heap.get? ancestor with
      | none =>
          have missing := not_holds_iff.mpr found
          rw [read_of_not_holds missing, List.singleton_append, search_cons_of_missing missing]
          rfl
      | some object =>
          rw [read_eq_ok found]
          dsimp only [bind, Except.bind]
          cases object.properties.get? "@" with
          | none => exact ih
          | some property =>
              cases property with
              | plain prototype => rw [ih]; rfl
              | _ => exact ih

theorem findProperty_eq_search (heap : Heap) (receiver : Handle) (name : String) :
    heap.findProperty receiver name = heap.search name (heap.chain receiver) := by
  rw [findProperty, chain]
  cases found : heap.get? receiver with
  | none =>
      have missing := not_holds_iff.mpr found
      rw [search_cons_of_missing missing, read_of_not_holds missing]
      rfl
  | some object =>
      rw [search, read_eq_ok found]
      dsimp only [bind, Except.bind, Option.bind]
      cases object.properties.get? name with
      | some property => rfl
      | none =>
          cases object.classHandle with
          | none => rfl
          | some parent =>
              dsimp only [inherited]
              cases line : heap.ancestors parent with
              | ok ancestors => exact findInherited_eq_search ancestors
              | error fault =>
                  obtain ⟨missing, rfl⟩ := missing_of_ancestors line
                  exact (search_cons_of_missing missing []).symm

theorem resolvesAlongChains (heap : Heap) : heap.ResolvesAlongChains where
  found receiver name owner property := by
    rw [findProperty_eq_search]
    exact search_eq_found
  absent receiver name := by
    rw [findProperty_eq_search]
    exact search_eq_none
  missing receiver name fault := by
    rw [findProperty_eq_search]
    exact search_eq_error

/-- Where everything that is mentioned exists, the members of chains do. -/
theorem Closed.chain_holds (closed : heap.Closed) (held : heap.Holds receiver) :
    ∀ member ∈ heap.chain receiver, heap.Holds member := by
  obtain ⟨object, found⟩ := held
  rw [chain, List.forall_mem_cons]
  refine ⟨⟨object, found⟩, ?_⟩
  rw [found, Option.bind_some]
  cases own : object.classHandle with
  | none => exact nofun
  | some parent =>
      have present := closed.classHandle found own
      obtain ⟨ancestors, line, known⟩ := answers_ancestors present
      intro member inside
      simp only [inherited, line, List.mem_flatMap] at inside
      obtain ⟨ancestor, above, inside⟩ := inside
      have there : heap.Holds ancestor := by
        rcases known ancestor above with rfl | inherits
        · exact present
        · exact inherits.holds closed
      obtain ⟨holder, stored⟩ := there
      simp only [prototypes, stored] at inside
      split at inside
      · rename_i prototype plain
        rw [List.mem_singleton.mp inside]
        exact (closed.objects ancestor holder stored).stored plain
      · cases inside

section

variable (notClass : key ≠ "class") (notPrototype : key ≠ "@")

theorem get?_written (heap : Heap) (owner value handle : Handle) (key : String) :
    (heap.modify owner (Object.insert key value)).get? handle =
      if handle = owner then (heap.get? handle).map (Object.insert key value)
      else heap.get? handle := get?_modify heap owner handle _

theorem get?_insert_of_ne (other : name ≠ key) (object : Object) :
    (object.insert key value).properties.get? name = object.properties.get? name :=
  (Table.get?_insert ..).trans (if_neg other)

/-- A write changes nothing about an object but what it holds under the name. -/
theorem get?_written_congr {α : Type} (heap : Heap) (owner value : Handle) (key : String)
    (view : Object → α)
    (same : ∀ object : Object, view (object.insert key value) = view object) (handle : Handle) :
    ((heap.modify owner (Object.insert key value)).get? handle).map view =
      (heap.get? handle).map view := by
  rw [get?_written]
  split
  · rw [Option.map_map]
    exact congrArg (Option.map · _) (funext same)
  · rfl

include notPrototype in
theorem prototypes_written (ancestor : Handle) :
    (heap.modify owner (Object.insert key value)).prototypes ancestor = heap.prototypes ancestor := by
  have same := get?_written_congr heap owner value key
    (fun object => object.properties.get? "@") (get?_insert_of_ne notPrototype.symm) ancestor
  unfold prototypes
  cases found : heap.get? ancestor <;>
    cases changed : (heap.modify owner (Object.insert key value)).get? ancestor <;>
    simp_all

theorem ancestors_written (parent : Handle) :
    (heap.modify owner (Object.insert key value)).ancestors parent = heap.ancestors parent := by
  have same := get?_written_congr heap owner value key
    Object.payload (fun _ => rfl) parent
  unfold ancestors read
  cases found : heap.get? parent <;>
    cases changed : (heap.modify owner (Object.insert key value)).get? parent <;>
    simp_all [bind, Except.bind]

include notClass notPrototype in
theorem chain_written (receiver : Handle) :
    (heap.modify owner (Object.insert key value)).chain receiver = heap.chain receiver := by
  have same : ((heap.modify owner (Object.insert key value)).get? receiver).bind
      Object.classHandle = (heap.get? receiver).bind Object.classHandle := by
    have same := get?_written_congr heap owner value key
      Object.classHandle (fun object => by
        simp only [Object.classHandle, get?_insert_of_ne notClass.symm]) receiver
    cases found : heap.get? receiver <;>
      cases changed : (heap.modify owner (Object.insert key value)).get? receiver <;>
      simp_all
  have inheritance (parent : Handle) :
      (heap.modify owner (Object.insert key value)).inherited parent = heap.inherited parent := by
    simp only [inherited, ancestors_written, funext (prototypes_written notPrototype)]
  simp only [chain, same, inheritance]

theorem search_written_other (other : name ≠ key) (members : List Handle) :
    (heap.modify owner (Object.insert key value)).search name members =
      heap.search name members := by
  induction members with
  | nil => rfl
  | cons first rest ih =>
      have same := get?_written_congr heap owner value key
        (fun object => object.properties.get? name) (get?_insert_of_ne other) first
      unfold search read
      cases found : heap.get? first <;>
        cases changed : (heap.modify owner (Object.insert key value)).get? first <;>
        simp_all [bind, Except.bind]

theorem search_written_cons (apart : member ≠ owner)
    (rest : (heap.modify owner (Object.insert key value)).search name members =
      heap.search name members) :
    (heap.modify owner (Object.insert key value)).search name (member :: members) =
      heap.search name (member :: members) := by
  simp only [search, read, get?_written, if_neg apart, rest]

theorem search_written_reached (held : heap.Holds owner)
    (comes : heap.ComesTo key members owner) :
    (heap.modify owner (Object.insert key value)).search key members =
      .ok (some (owner, .plain value)) := by
  induction comes with
  | here member rest => exact search_cons_of_stores (stores_inserted held key value) rest
  | @past first member rest lacks further ih =>
      by_cases same : first = member
      · subst same
        exact search_cons_of_stores (stores_inserted held key value) rest
      · obtain ⟨object, found, absent⟩ := lacks
        rw [search_cons_of_lacks ⟨object, by rw [get?_written, if_neg same, found], absent⟩]
        exact ih held

theorem search_written_unreached (unreached : ¬ heap.ComesTo key members owner) :
    (heap.modify owner (Object.insert key value)).search key members =
      heap.search key members := by
  induction members with
  | nil => rfl
  | cons first rest ih =>
      have apart : first ≠ owner := by
        rintro rfl
        exact unreached (.here first rest)
      by_cases lacks : heap.Lacks first key
      · exact search_written_cons apart (ih fun comes => unreached (.past lacks comes))
      · -- Nothing is looked up behind an object that does not lack the name.
        rcases heap.stores_or_lacks_or_missing first key with ⟨property, stores⟩ | absent | missing
        · obtain ⟨object, found, held⟩ := stores
          rw [search_cons_of_stores ⟨object, found, held⟩, search_cons_of_stores
            ⟨object, by rw [get?_written, if_neg apart, found], held⟩]
        · exact absurd absent lacks
        · have still : ¬ (heap.modify owner (Object.insert key value)).Holds first := by
            rintro ⟨object, found⟩
            rw [get?_written, if_neg apart] at found
            exact missing ⟨object, found⟩
          rw [search_cons_of_missing missing, search_cons_of_missing still]

include notClass notPrototype in
theorem showsWrite (held : heap.Holds owner) (value : Handle) :
    heap.ShowsWrite (heap.modify owner (Object.insert key value)) owner key value where
  chains := chain_written notClass notPrototype
  others receiver name other := by
    rw [findProperty_eq_search, findProperty_eq_search, chain_written notClass notPrototype,
      search_written_other other]
  reached receiver comes := by
    rw [findProperty_eq_search, chain_written notClass notPrototype,
      search_written_reached held comes]
  unreached receiver away := by
    rw [findProperty_eq_search, findProperty_eq_search, chain_written notClass notPrototype,
      search_written_unreached away]

end

end Heap

namespace Action

variable {world : World} {owner : Handle}

theorem set_of_missing (missing : ¬ world.heap.Holds owner) (key : String) (value : Handle) :
    set owner key value world = .failure (.internal (.danglingHandle owner.index)) world := by
  have asked : ask (fun heap => heap.read owner) world =
      .failure (.internal (.danglingHandle owner.index)) world := by
    simp only [ask, Heap.read_of_not_holds missing]
  rw [set, setProperty, bind_apply, asked]

end Action

open RipInterpreter.Action

/-- Properties are resolved along chains, and what is stored under a name other than `class` and `@`
changes no chain. It is what the look-ups of the name give that come to its object, and no others
notice it. On a machine that an embedding program works with, in the midst of runs, too, all members
of the chain of a value exist, so that no look-up fails. -/
theorem write_shows_where_reached (world : World) (owner value : Handle) {key : String}
    (notClass : key ≠ "class") (notPrototype : key ≠ "@") :
    world.heap.ResolvesAlongChains ∧
    (world.heap.Holds owner → ∃ after,
      set owner key value world = .value () { world with heap := after } ∧
      world.heap.ShowsWrite after owner key value) ∧
    (¬ world.heap.Holds owner →
      set owner key value world = .failure (.internal (.danglingHandle owner.index)) world) ∧
    ∀ loader searchPaths start, Session.Embedded loader searchPaths start → start.Reaches world →
      ∀ receiver, world.heap.Holds receiver →
        ∀ member ∈ world.heap.chain receiver, world.heap.Holds member := by
  refine ⟨world.heap.resolvesAlongChains, fun held => ?_, fun missing =>
    set_of_missing missing key value, fun loader searchPaths start reached reaches receiver held =>
    (reaches.tidy reached.tidy).heap.chain_holds held⟩
  have shows := Heap.showsWrite notClass notPrototype held value
  obtain ⟨object, found⟩ := held
  exact ⟨_, set_apply key value found, shows⟩

/-- What the root gets as `to_boolean` is the `to_boolean` of lists and classes from then on, but not
that of `nil`, the class of which comes first. -/
theorem write_shows_where_reached_at_root :
    let start := World.fresh ⟨fun _ name paths => .refused (.missingModule name paths)⟩ []
    let root := KernelClass.object.prototype
    ∃ after, set root "to_boolean" .nil start = .value () { start with heap := after } ∧
      after.findProperty KernelClass.list.handle "to_boolean" = .ok (some (root, .plain .nil)) ∧
      after.findProperty .nil "to_boolean" = start.heap.findProperty .nil "to_boolean" := by
  intro start root
  have held : start.heap.Holds root := Heap.holds_iff.mpr (by decide +kernel)
  obtain ⟨-, written, -⟩ :=
    @write_shows_where_reached start root .nil "to_boolean" (by decide) (by decide)
  obtain ⟨after, stored, shows⟩ := written held
  exact ⟨after, stored, shows.reached _ (by decide +kernel), shows.unreached _ (by decide +kernel)⟩

end RipInterpreter
