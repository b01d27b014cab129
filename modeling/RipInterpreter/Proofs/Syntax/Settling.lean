import Mathlib.Data.List.Forall2
import Mathlib.Data.List.Perm.Subperm
import RipInterpreter.Proofs.Syntax.Members

/-!
Attempts beside others: `Settles` tells that an attempt fails at a place, or that it comes to what is
expected and another one comes to the same. And outlines among others: `Gathered` tells that members
have been read, and that their entries are among those of some outlines, each as often.
-/

namespace RipInterpreter.Syntax

open Concrete (Tree)

variable {α β : Type}

/-- An attempt fails at a place, or it comes to what is expected and another one comes to the
same. -/
inductive Settles (expected : α → Prop) : (attempt other : Except Error α) → Prop
  | ok {value : α} (met : expected value) : Settles expected (.ok value) (.ok value)
  | error {fault : CompilerFault} {place : Location} {other : Except Error α} :
    Settles expected (.error (.compiler fault (some place))) other

namespace Settles

variable {given expected : α → Prop} {attempt other : Except Error α}

theorem mono (settles : Settles given attempt other)
    (wider : ∀ value, given value → expected value) : Settles expected attempt other := by
  cases settles with
  | ok met => exact .ok (wider _ met)
  | error => exact .error

theorem met {value : α} (settles : Settles expected attempt other) (read : attempt = .ok value) :
    expected value ∧ other = .ok value := by
  cases settles with
  | ok met =>
      cases read
      exact ⟨met, rfl⟩
  | error => cases read

theorem located {error : Error} (settles : Settles expected attempt other)
    (failed : attempt = .error error) : ∃ fault place, error = .compiler fault (some place) := by
  cases settles with
  | ok met => cases failed
  | error =>
      cases failed
      exact ⟨_, _, rfl⟩

theorem bind {expected : β → Prop} {next later : α → Except Error β}
    (first : Settles given attempt other)
    (second : ∀ value, given value → Settles expected (next value) (later value)) :
    Settles expected (attempt >>= next) (other >>= later) := by
  cases first with
  | ok met => exact second _ met
  | error => exact .error

/-- An attempt that has no counterpart, and whose outcome does not matter for what follows. -/
theorem skip {expected : β → Prop} {next : α → Except Error β} {later : Except Error β}
    (first : Settles given attempt other) (second : ∀ value, Settles expected (next value) later) :
    Settles expected (attempt >>= next) later := by
  cases first with
  | ok met => exact second _
  | error => exact .error

theorem map {expected : β → Prop} {change : α → β} (settles : Settles given attempt other)
    (changed : ∀ value, given value → expected (change value)) :
    Settles expected (change <$> attempt) (change <$> other) := by
  cases settles with
  | ok met => exact .ok (changed _ met)
  | error => exact .error

/-- What is wrapped up settles, too. -/
theorem unwrap {expected : β → Prop} {wrap : α → β} (same : Function.Injective wrap)
    (settles : Settles expected (wrap <$> attempt) (wrap <$> other)) :
    Settles (fun value => attempt = .ok value) attempt other := by
  generalize left : wrap <$> attempt = wrapped at settles
  generalize right : wrap <$> other = wrapped₁ at settles
  cases settles with
  | ok met =>
      cases attempt with
      | error error => cases left
      | ok value =>
          cases other with
          | error error => cases right
          | ok value₁ =>
              cases same (Except.ok.inj (left.trans right.symm))
              exact .ok rfl
  | error =>
      cases attempt with
      | error error =>
          cases left
          exact .error
      | ok value => cases left

theorem mapM {items : List β} {expected : β → α → Prop} {convert change : β → Except Error α}
    (each : ∀ item ∈ items, Settles (expected item) (convert item) (change item)) :
    Settles (List.Forall₂ expected items) (items.mapM convert) (items.mapM change) := by
  induction items with
  | nil => exact .ok .nil
  | cons item rest ih =>
      obtain ⟨first, others⟩ := List.forall_mem_cons.mp each
      rw [List.mapM_cons, List.mapM_cons]
      exact first.bind fun _ met => (ih others).bind fun _ more => .ok (.cons met more)

end Settles

namespace Outline

theorem entriesAll_append (front back : List Outline) :
    entriesAll (front ++ back) = entriesAll front ++ entriesAll back := by
  induction front with
  | nil => rfl
  | cons outline rest ih => rw [List.cons_append, entriesAll, entriesAll, ih, List.append_assoc]

theorem entriesAll_perm {front back : List Outline} (perm : front.Perm back) :
    (entriesAll front).Perm (entriesAll back) := by
  induction perm with
  | nil => exact .refl _
  | cons outline _ ih => exact ih.append_left _
  | swap first second rest =>
      simp only [entriesAll, ← List.append_assoc]
      exact List.perm_append_comm.append_right _
  | trans _ _ ih₁ ih₂ => exact ih₁.trans ih₂

theorem entries_eq (outline : Outline) :
    outline.entries = outline :: entriesAll outline.children := by
  cases outline
  rw [entries]

theorem entriesAll_singleton (outline : Outline) :
    entriesAll [outline] = outline :: entriesAll outline.children := by
  rw [entriesAll, entriesAll, List.append_nil, entries_eq]

/-- The entries of the former are among those of the latter, each as often. -/
def Among (inner outer : List Outline) : Prop := (entriesAll inner).Subperm (entriesAll outer)

namespace Among

variable {inner outer more most : List Outline}

theorem refl (outlines : List Outline) : Among outlines outlines := List.Subperm.refl _

theorem nil (outlines : List Outline) : Among [] outlines := List.nil_subperm

theorem trans (first : Among inner outer) (second : Among outer more) : Among inner more :=
  List.Subperm.trans first second

theorem perm (same : inner.Perm outer) : Among inner outer := (entriesAll_perm same).subperm

theorem append (first : Among inner outer) (second : Among more most) :
    Among (inner ++ more) (outer ++ most) := by
  rw [Among, entriesAll_append, entriesAll_append]
  exact List.Subperm.append first second

/-- The entries below an outline are among its own. -/
theorem below (outline : Outline) : Among outline.children [outline] := by
  rw [Among, entriesAll_singleton]
  exact (List.sublist_cons_self _ _).subperm

end Among

end Outline

open Outline (Among)

theorem among_operatorCall (receiver argument : Node) (operator : String) (place : Location) :
    Among [receiver.outline, argument.outline]
      (operatorCall receiver operator place argument).outline.children :=
  (Among.below (Node.property receiver operator place).outline).append (.refl [argument.outline])

/-- What is joined stays in what it is joined with. -/
theorem among_joined {joined argument : Node} {operator : String} {place : Location}
    {inner more outer : List Outline} (within : Among inner [argument.outline])
    (later : Among ((operatorCall joined operator place argument).outline.children ++ more) outer) :
    Among (joined.outline.children ++ (inner ++ more)) outer := by
  have first : Among (joined.outline.children ++ inner) _ :=
    ((Among.below joined.outline).append within).trans
      (among_operatorCall joined argument operator place)
  rw [← List.append_assoc]
  exact (first.append (.refl more)).trans later

/-- The members have been read, and what they add is among some outlines. -/
def Gathered (members : List Member) (outlines : List Outline) : Prop :=
  ∃ items, List.Forall₂ (fun member item => member.read = .ok item) members items ∧
    Among (items.flatMap Item.outlines) outlines

namespace Gathered

variable {members others : List Member} {member : Member} {item : Item}
  {outlines more : List Outline}

theorem nil (outlines : List Outline) : Gathered [] outlines := ⟨[], .nil, .nil _⟩

theorem mono (gathered : Gathered members outlines) (among : Among outlines more) :
    Gathered members more := by
  obtain ⟨items, read, within⟩ := gathered
  exact ⟨items, read, within.trans among⟩

theorem append (front : Gathered members outlines) (back : Gathered others more) :
    Gathered (members ++ others) (outlines ++ more) := by
  obtain ⟨items, read, within⟩ := front
  obtain ⟨rest, readRest, withinRest⟩ := back
  refine ⟨items ++ rest, List.rel_append read readRest, ?_⟩
  rw [List.flatMap_append]
  exact within.append withinRest

theorem single (read : member.read = .ok item) : Gathered [member] item.outlines :=
  ⟨[item], .cons read .nil, by simpa using Among.refl item.outlines⟩

theorem cons (read : member.read = .ok item) (rest : Gathered members outlines) :
    Gathered (member :: members) (item.outlines ++ outlines) := (single read).append rest

end Gathered

section

variable {children : List Tree} {a b c : Tree} {duty duty₁ duty₂ : Duty} {item item₁ item₂ : Item}

theorem gathered_one (at₀ : children[0]? = some a) (read : Member.read ⟨a, duty⟩ = .ok item) :
    Gathered (Member.first [duty] children) item.outlines := by
  match children, at₀ with
  | a :: rest, rfl => simpa [Member.first] using Gathered.single read

theorem gathered_two (at₀ : children[0]? = some a) (at₁ : children[1]? = some b)
    (read : Member.read ⟨a, duty⟩ = .ok item) (read₁ : Member.read ⟨b, duty₁⟩ = .ok item₁) :
    Gathered (Member.first [duty, duty₁] children) (item.outlines ++ item₁.outlines) := by
  match children, at₀, at₁ with
  | a :: b :: rest, rfl, rfl => simpa [Member.first] using Gathered.cons read (.single read₁)

theorem gathered_three (at₀ : children[0]? = some a) (at₁ : children[1]? = some b)
    (at₂ : children[2]? = some c) (read : Member.read ⟨a, duty⟩ = .ok item)
    (read₁ : Member.read ⟨b, duty₁⟩ = .ok item₁) (read₂ : Member.read ⟨c, duty₂⟩ = .ok item₂) :
    Gathered (Member.first [duty, duty₁, duty₂] children)
      (item.outlines ++ (item₁.outlines ++ item₂.outlines)) := by
  match children, at₀, at₁, at₂ with
  | a :: b :: c :: rest, rfl, rfl, rfl =>
      simpa [Member.first] using Gathered.cons read (.cons read₁ (.single read₂))

theorem gathered_two_of_three (at₀ : children[0]? = some a) (at₁ : children[1]? = some b)
    (missing : children[2]? = none) (read : Member.read ⟨a, duty⟩ = .ok item)
    (read₁ : Member.read ⟨b, duty₁⟩ = .ok item₁) :
    Gathered (Member.first [duty, duty₁, duty₂] children) (item.outlines ++ item₁.outlines) := by
  match children, at₀, at₁, missing with
  | [a, b], rfl, rfl, _ => exact Gathered.cons read (.single read₁)

/-- Trees that are read one after the other. -/
theorem gathered_each {wrap : α → Item} {values : List α}
    (reads : List.Forall₂ (fun child value => Member.read ⟨child, duty⟩ = .ok (wrap value))
      children values) :
    Gathered (Member.each duty children) (values.flatMap fun value => (wrap value).outlines) := by
  induction reads with
  | nil => exact .nil _
  | cons read _ ih => exact .cons read ih

/-- Members that are words may be left out. -/
theorem Gathered.withWords (label : String) {members : List Member} {outlines : List Outline}
    (words : ∀ member ∈ members, member.tree.label = label → member.duty = .word)
    (gathered : Gathered (members.filter fun member => member.tree.label != label) outlines) :
    Gathered members outlines := by
  induction members generalizing outlines with
  | nil => exact gathered
  | cons member rest ih =>
      obtain ⟨one, more⟩ := List.forall_mem_cons.mp words
      by_cases word : member.tree.label = label
      · have read : member.read = .ok .word := by
          obtain ⟨tree, duty⟩ := member
          obtain rfl : duty = .word := one word
          rfl
        rw [List.filter_cons_of_neg (by simpa using word)] at gathered
        exact .cons read (ih more gathered)
      · rw [List.filter_cons_of_pos (by simpa using word)] at gathered
        obtain ⟨_, _ | ⟨read, others⟩, within⟩ := gathered
        exact (Gathered.cons read (ih more ⟨_, others, .refl _⟩)).mono within

end

theorem listing_eq {list : List α → List Outline} {make : α → Outline} (none : list [] = [])
    (more : ∀ item rest, list (item :: rest) = make item :: list rest) (items : List α) :
    list items = items.flatMap fun item => [make item] := by
  induction items with
  | nil => exact none
  | cons item rest ih =>
      rw [more, ih]
      rfl

theorem outlines_eq (nodes : List Node) :
    outlines nodes = nodes.flatMap fun node => [node.outline] :=
  listing_eq (by rw [outlines]) (fun _ _ => by rw [outlines]) nodes

theorem caseOutlines_eq (cases : List Case) :
    caseOutlines cases = cases.flatMap fun case => [case.outline] :=
  listing_eq (by rw [caseOutlines]) (fun _ _ => by rw [caseOutlines]) cases

theorem handlerOutlines_eq (handlers : List Handler) :
    handlerOutlines handlers = handlers.flatMap fun handler => [handler.outline] :=
  listing_eq (by rw [handlerOutlines]) (fun _ _ => by rw [handlerOutlines]) handlers

theorem pairOutlines_eq (pairs : List Pair) :
    pairOutlines pairs = pairs.flatMap fun pair => [pair.outline] :=
  listing_eq (by rw [pairOutlines]) (fun _ _ => by rw [pairOutlines]) pairs

theorem lambdaOutlines_eq (definitions : List Lambda) :
    lambdaOutlines definitions = definitions.flatMap fun definition => [definition.outline] :=
  listing_eq (by rw [lambdaOutlines]) (fun _ _ => by rw [lambdaOutlines]) definitions

end RipInterpreter.Syntax
