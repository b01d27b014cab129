import Mathlib.Data.List.Forall2
import RipInterpreter.Proofs.Machine.Questions

namespace RipInterpreter

def Parameter.isLiteral : Parameter → Bool
  | .binding _ => false
  | .matcher _ => true

/-- The number of literals that an overload compares its arguments with. -/
def Overload.literals (overload : Overload) : Nat := overload.parameters.countP Parameter.isLiteral

namespace Heap

variable {heap : Heap} {parameters : List Parameter} {arguments : List Handle}
  {overload chosen : Overload} {before rest : List Overload} {best : Option (Overload × Nat)}

/-- The parameter has a name, or is a literal that equals the argument. -/
def Takes (heap : Heap) : Parameter → Handle → Prop
  | .binding _, _ => True
  | .matcher expected, argument => heap.equal expected argument = .ok true

/-- There are as many arguments as parameters, and every literal equals its argument. -/
def Suits (heap : Heap) (overload : Overload) (arguments : List Handle) : Prop :=
  List.Forall₂ heap.Takes overload.parameters arguments

/-- Every literal that is compared with its argument, all parameters before it having taken theirs,
either equals it or does not. -/
def Comparable (heap : Heap) (parameters : List Parameter) (arguments : List Handle) : Prop :=
  ∀ index expected argument, parameters[index]? = some (.matcher expected) →
    arguments[index]? = some argument →
    List.Forall₂ heap.Takes (parameters.take index) (arguments.take index) →
    ∃ same, heap.equal expected argument = .ok same

theorem comparable_binding {name : String} {argument : Handle} :
    heap.Comparable (.binding name :: parameters) (argument :: arguments) ↔
      heap.Comparable parameters arguments := by
  constructor
  · intro comparable index expected argument listed given taken
    exact comparable (index + 1) expected argument listed given (.cons trivial taken)
  · intro comparable index expected argument listed given taken
    cases index with
    | zero => cases listed
    | succ index =>
        exact comparable index expected argument listed given (List.forall₂_cons.mp taken).2

theorem comparable_matcher {expected argument : Handle} :
    heap.Comparable (.matcher expected :: parameters) (argument :: arguments) ↔
      ∃ same, heap.equal expected argument = .ok same ∧
        (same = true → heap.Comparable parameters arguments) := by
  constructor
  · intro comparable
    obtain ⟨same, answered⟩ := comparable 0 expected argument rfl rfl .nil
    refine ⟨same, answered, ?_⟩
    rintro rfl index expected argument listed given taken
    exact comparable (index + 1) expected argument listed given (.cons answered taken)
  · rintro ⟨same, answered, later⟩ index wanted other listed given taken
    cases index with
    | zero =>
        cases listed
        cases given
        exact ⟨same, answered⟩
    | succ index =>
        obtain ⟨first, taken⟩ := List.forall₂_cons.mp taken
        cases answered.symm.trans first
        exact later rfl index wanted other listed given taken

theorem matchParameters_of_suits (suits : List.Forall₂ heap.Takes parameters arguments) :
    heap.matchParameters parameters arguments =
      .ok (some (parameters.countP Parameter.isLiteral)) := by
  induction suits with
  | nil => rfl
  | @cons parameter argument _ _ takes _ ih =>
      cases parameter with
      | binding name => exact ih
      | matcher expected =>
          rw [matchParameters, (takes : heap.equal expected argument = .ok true), ih,
            List.countP_cons_of_pos rfl]
          rfl

theorem matchParameters_of_unsuited (comparable : heap.Comparable parameters arguments)
    (unsuited : ¬ List.Forall₂ heap.Takes parameters arguments) :
    heap.matchParameters parameters arguments = .ok none := by
  induction parameters generalizing arguments with
  | nil =>
      cases arguments with
      | nil => exact absurd .nil unsuited
      | cons argument arguments => rfl
  | cons parameter parameters ih =>
      cases arguments with
      | nil => cases parameter <;> rfl
      | cons argument arguments =>
          cases parameter with
          | binding name =>
              exact ih (comparable_binding.mp comparable) fun suits => unsuited (.cons trivial suits)
          | matcher expected =>
              obtain ⟨same, answered, later⟩ := comparable_matcher.mp comparable
              rw [matchParameters, answered]
              cases same with
              | false => rfl
              | true =>
                  have none := ih (later rfl) fun suits => unsuited (.cons answered suits)
                  rw [none]
                  rfl

theorem comparable_of_matched {compared : Option Nat}
    (matched : heap.matchParameters parameters arguments = .ok compared) :
    heap.Comparable parameters arguments := by
  induction parameters generalizing arguments compared with
  | nil => exact fun _ _ _ listed => nomatch listed
  | cons parameter parameters ih =>
      cases arguments with
      | nil => exact fun _ _ _ _ given => nomatch given
      | cons argument arguments =>
          cases parameter with
          | binding name => exact comparable_binding.mpr (ih matched)
          | matcher expected =>
              refine comparable_matcher.mpr ?_
              unfold matchParameters at matched
              cases answered : heap.equal expected argument with
              | error fault =>
                  rw [answered] at matched
                  cases matched
              | ok same =>
                  refine ⟨same, rfl, ?_⟩
                  rintro rfl
                  cases later : heap.matchParameters parameters arguments with
                  | error fault =>
                      rw [answered, later] at matched
                      cases matched
                  | ok compared => exact ih later

/-- The overload at this place suits the arguments; no other that does compares more literals, and
each one before it compares fewer. -/
structure BestAt (heap : Heap) (arguments : List Handle) (overloads : List Overload) (index : Nat)
    (chosen : Overload) : Prop where
  listed : overloads[index]? = some chosen
  suits : heap.Suits chosen arguments
  most : ∀ overload ∈ overloads, heap.Suits overload arguments →
    overload.literals ≤ chosen.literals
  first : ∀ earlier overload, earlier < index → overloads[earlier]? = some overload →
    heap.Suits overload arguments → overload.literals < chosen.literals

/-- The best of several overloads with its number of literals, if any suits the arguments. -/
inductive Best (heap : Heap) (arguments : List Handle) :
    List Overload → Option (Overload × Nat) → Prop
  | absent {overloads : List Overload}
      (unsuited : ∀ overload ∈ overloads, ¬ heap.Suits overload arguments) :
      Best heap arguments overloads none
  | found {chosen : Overload} {before after : List Overload}
      (suits : heap.Suits chosen arguments)
      (above : ∀ overload ∈ before, heap.Suits overload arguments →
        overload.literals < chosen.literals)
      (most : ∀ overload ∈ after, heap.Suits overload arguments →
        overload.literals ≤ chosen.literals) :
      Best heap arguments (before ++ chosen :: after) (some (chosen, chosen.literals))

/-- What does not suit, or does not compare more literals, changes nothing. -/
theorem Best.keep (known : heap.Best arguments before best)
    (worse : heap.Suits overload arguments →
      ∃ chosen most, best = some (chosen, most) ∧ overload.literals ≤ most) :
    heap.Best arguments (before ++ [overload]) best := by
  cases known with
  | absent unsuited =>
      refine .absent (List.forall_mem_append.mpr ⟨unsuited, ?_⟩)
      refine List.forall_mem_singleton.mpr fun suits => ?_
      obtain ⟨_, _, same, _⟩ := worse suits
      cases same
  | found suits above most =>
      rw [List.append_assoc, List.cons_append]
      refine .found suits above (List.forall_mem_append.mpr ⟨most, ?_⟩)
      refine List.forall_mem_singleton.mpr fun suits => ?_
      obtain ⟨_, _, same, atMost⟩ := worse suits
      cases same
      exact atMost

/-- What compares more literals is better than all before. -/
theorem Best.replace (known : heap.Best arguments before best)
    (suits : heap.Suits overload arguments)
    (better : ∀ chosen most, best = some (chosen, most) → most < overload.literals) :
    heap.Best arguments (before ++ [overload]) (some (overload, overload.literals)) := by
  refine .found suits ?_ (List.forall_mem_nil _)
  cases known with
  | absent unsuited => exact fun other inside fits => absurd fits (unsuited other inside)
  | @found chosen first after _ above most =>
      have more := better chosen chosen.literals rfl
      refine List.forall_mem_append.mpr ⟨fun other inside fits => ?_, ?_⟩
      · exact Nat.lt_trans (above other inside fits) more
      · refine List.forall_mem_cons.mpr ⟨fun _ => more, fun other inside fits => ?_⟩
        exact Nat.lt_of_le_of_lt (most other inside fits) more

theorem Best.none_iff {overloads : List Overload} (known : heap.Best arguments overloads best) :
    best = none ↔ ∀ overload ∈ overloads, ¬ heap.Suits overload arguments := by
  cases known with
  | absent unsuited => exact ⟨fun _ => unsuited, fun _ => rfl⟩
  | @found chosen before after suits _ _ =>
      refine ⟨nofun, fun unsuited => absurd suits (unsuited chosen ?_)⟩
      exact List.mem_append_right before List.mem_cons_self

theorem Best.bestAt {overloads : List Overload} {literals : Nat}
    (known : heap.Best arguments overloads (some (chosen, literals))) :
    literals = chosen.literals ∧ ∃ index, heap.BestAt arguments overloads index chosen := by
  cases known with
  | @found _ before after suits above most =>
      refine ⟨rfl, before.length, ?_, suits, ?_, fun earlier overload bound listed => ?_⟩
      · rw [List.getElem?_append_right (Nat.le_refl _), Nat.sub_self]
        rfl
      · refine List.forall_mem_append.mpr ⟨fun other inside fits => ?_, ?_⟩
        · exact Nat.le_of_lt (above other inside fits)
        · exact List.forall_mem_cons.mpr ⟨fun _ => Nat.le_refl _, most⟩
      · rw [List.getElem?_append_left bound] at listed
        exact above overload (List.mem_of_getElem? listed)

theorem selectOverload_of_suits (suits : heap.Suits overload arguments) :
    heap.selectOverload arguments best (overload :: rest) =
      heap.selectOverload arguments
        (match best with
          | none => some (overload, overload.literals)
          | some (_, most) =>
            if most < overload.literals then some (overload, overload.literals) else best) rest := by
  rw [selectOverload, if_pos suits.length_eq, matchParameters_of_suits suits]
  cases best <;> rfl

theorem selectOverload_of_unsuited (unsuited : ¬ heap.Suits overload arguments)
    (comparable : overload.parameters.length = arguments.length →
      heap.Comparable overload.parameters arguments) :
    heap.selectOverload arguments best (overload :: rest) =
      heap.selectOverload arguments best rest := by
  rw [selectOverload]
  split
  · rw [matchParameters_of_unsuited (comparable ‹_›) unsuited]
    rfl
  · rfl

/-- By induction on the overloads that are left; those before them have been looked at. -/
theorem best_selectOverload (known : heap.Best arguments before best)
    (comparable : ∀ overload ∈ rest, overload.parameters.length = arguments.length →
      heap.Comparable overload.parameters arguments) :
    Answers (heap.selectOverload arguments best rest) (heap.Best arguments (before ++ rest)) := by
  induction rest generalizing before best with
  | nil => exact .ok (by rwa [List.append_nil])
  | cons overload rest ih =>
      obtain ⟨first, others⟩ := List.forall_mem_cons.mp comparable
      rw [List.append_cons]
      by_cases suits : heap.Suits overload arguments
      · rw [selectOverload_of_suits suits]
        refine ih ?_ others
        cases best with
        | none => exact known.replace suits nofun
        | some best =>
            simp only
            split
            · exact known.replace suits (by rintro _ _ ⟨⟩; assumption)
            · exact known.keep fun _ => ⟨_, _, rfl, Nat.le_of_not_lt ‹_›⟩
      · rw [selectOverload_of_unsuited suits first]
        exact ih (known.keep fun fits => absurd fits suits) others

theorem comparable_of_selected {choice : Option (Overload × Nat)}
    (selected : heap.selectOverload arguments best rest = .ok choice) :
    ∀ overload ∈ rest, overload.parameters.length = arguments.length →
      heap.Comparable overload.parameters arguments := by
  induction rest generalizing best with
  | nil => exact List.forall_mem_nil _
  | cons overload rest ih =>
      unfold selectOverload at selected
      refine List.forall_mem_cons.mpr ⟨fun arity => ?_, ?_⟩
      · rw [if_pos arity] at selected
        cases matched : heap.matchParameters overload.parameters arguments with
        | error fault =>
            rw [matched] at selected
            cases selected
        | ok compared => exact comparable_of_matched matched
      · split at selected
        · cases matched : heap.matchParameters overload.parameters arguments with
          | error fault =>
              rw [matched] at selected
              cases selected
          | ok compared =>
              rw [matched] at selected
              exact ih selected
        · exact ih selected

/-- A choice is made exactly if all comparisons that it comes to have an answer. It is empty exactly
if no overload suits the arguments; otherwise it is an overload that does, compares no fewer literals
than any other that does, and more than each of those before it. -/
theorem choice_is_best (heap : Heap) (arguments : List Handle) (overloads : List Overload) :
    (∀ overload ∈ overloads, overload.parameters.length = arguments.length →
        heap.Comparable overload.parameters arguments) ↔
      ∃ choice, heap.selectOverload arguments none overloads = .ok choice ∧
        (choice = none ↔ ∀ overload ∈ overloads, ¬ heap.Suits overload arguments) ∧
        ∀ chosen literals, choice = some (chosen, literals) →
          literals = chosen.literals ∧ ∃ index, heap.BestAt arguments overloads index chosen := by
  constructor
  · intro comparable
    obtain ⟨choice, selected, best⟩ :=
      best_selectOverload (.absent (List.forall_mem_nil _)) comparable
    exact ⟨choice, selected, best.none_iff, fun chosen literals same => (same ▸ best).bestAt⟩
  · rintro ⟨choice, selected, -⟩
    exact comparable_of_selected selected

end Heap

end RipInterpreter
