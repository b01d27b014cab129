import RipInterpreter.Text.Quoted
import Mathlib.Data.List.Basic

namespace RipInterpreter.Text

theorem digitChar_inj : ∀ m < 16, ∀ n < 16, Nat.digitChar m = Nat.digitChar n → m = n := by
  decide

theorem toDigits_ne_singleton (base number : Nat) (c d : Char) :
    Nat.toDigits base number ++ [c] ≠ [d] := by
  intro same
  have digits : Nat.toDigits base number ≠ [] := Nat.toDigits_ne_nil
  have alone : Nat.toDigits base number ++ [c] = [] ++ [d] := same
  exact digits (List.append_inj' alone rfl).1

section

variable {base : Nat} (large : 1 < base)
include large

theorem exists_digit_of_mem {c : Char} (number : Nat) (written : c ∈ Nat.toDigits base number) :
    ∃ digit < base, c = Nat.digitChar digit := by
  induction number using Nat.strongRecOn with
  | ind number ih =>
      by_cases small : number < base
      · rw [Nat.toDigits_of_lt_base small, List.mem_singleton] at written
        exact ⟨number, small, written⟩
      · rw [Nat.toDigits_of_base_le large (by omega)] at written
        rcases List.mem_append.mp written with written | written
        · exact ih _ (Nat.div_lt_self (by omega) large) written
        · exact ⟨number % base, Nat.mod_lt _ (by omega), List.mem_singleton.mp written⟩

/-- By the last digit, which is the remainder, and the digits before it. -/
theorem toDigits_inj (few : base ≤ 16) {number other : Nat}
    (same : Nat.toDigits base number = Nat.toDigits base other) : number = other := by
  induction number using Nat.strongRecOn generalizing other with
  | ind number ih =>
      rw [Nat.toDigits_eq_if large, Nat.toDigits_eq_if large (n := other)] at same
      split at same <;> split at same
      · exact digitChar_inj _ (by omega) _ (by omega) (List.singleton_inj.mp same)
      · exact absurd same.symm (toDigits_ne_singleton _ _ _ _)
      · exact absurd same (toDigits_ne_singleton _ _ _ _)
      · obtain ⟨before, last⟩ := List.append_inj' same rfl
        have quotients : number / base = other / base :=
          ih _ (Nat.div_lt_self (by omega) large) before
        have below := Nat.mod_lt number (Nat.zero_lt_of_lt large)
        have below' := Nat.mod_lt other (Nat.zero_lt_of_lt large)
        have remainders : number % base = other % base :=
          digitChar_inj _ (by omega) _ (by omega) (List.singleton_inj.mp last)
        rw [← Nat.div_add_mod number base, ← Nat.div_add_mod other base, quotients, remainders]

end

theorem eq_of_append_eq (accepts : Char → Prop) {before other after next : List Char}
    (accepted : ∀ c ∈ before, accepts c) (accepted' : ∀ c ∈ other, accepts c)
    (stops : ∀ c ∈ after.head?, ¬ accepts c) (stops' : ∀ c ∈ next.head?, ¬ accepts c)
    (same : before ++ after = other ++ next) : before = other ∧ after = next := by
  induction before generalizing other with
  | nil =>
      cases other with
      | nil => exact ⟨rfl, same⟩
      | cons c rest =>
          rw [List.nil_append] at same
          exact absurd (accepted' c (by simp)) (stops c (by simp [same]))
  | cons c rest ih =>
      cases other with
      | nil =>
          rw [List.nil_append] at same
          exact absurd (accepted c (by simp)) (stops' c (by simp [← same]))
      | cons d rest' =>
          obtain ⟨rfl, tails⟩ := List.cons_eq_cons.mp same
          obtain ⟨rfl, rfl⟩ := ih (fun c listed => accepted c (by simp [listed]))
            (fun c listed => accepted' c (by simp [listed])) tails
          exact ⟨rfl, rfl⟩

/-- What a letter behind a backslash stands for in a quoted text. -/
def shorthand : Char → Option Char
  | '0' => some '\x00'
  | 't' => some '\t'
  | 'r' => some '\r'
  | 'n' => some '\n'
  | '\\' => some '\\'
  | '"' => some '"'
  | _ => none

/-- A character of a text and how it is written between double quote marks. -/
inductive Written (c : Char) : List Char → Prop
  | plain (shown : c ≠ '\\') (apart : c ≠ '\n') : Written c [c]
  | short {letter : Char} (known : shorthand letter = some c) : Written c ['\\', letter]
  | coded : Written c ('\\' :: 'u' :: '{' :: Nat.toDigits 16 c.toNat ++ ['}'])

theorem written_escapeChar (c : Char) : Written c (escapeChar '"' c).toList := by
  unfold escapeChar
  split_ifs with null tab back feed itself unseen
  · subst null
    exact .short rfl
  · subst tab
    exact .short rfl
  · subst back
    exact .short rfl
  · subst feed
    exact .short rfl
  · rw [String.toList_ofList]
    rcases (by simpa using itself : c = '\\' ∨ c = '"') with rfl | rfl
    · exact .short rfl
    · exact .short rfl
  · simpa [hexadecimal] using Written.coded
  · rw [String.toList_singleton]
    exact .plain (by simp_all) feed

theorem Written.ne_nil {c : Char} {form : List Char} (written : Written c form) : form ≠ [] := by
  cases written <;> simp

theorem digitChar_apart : ∀ digit < 16, Nat.digitChar digit ≠ '}' ∧ Nat.digitChar digit ≠ '\n' := by
  decide

theorem apart_of_mem_toDigits {c : Char} {number : Nat} (written : c ∈ Nat.toDigits 16 number) :
    c ≠ '}' ∧ c ≠ '\n' := by
  obtain ⟨digit, below, rfl⟩ := exists_digit_of_mem (by decide) number written
  exact digitChar_apart digit below

/-- The written form of a character is known from any text that begins with it. -/
theorem Written.prefix_free {c d : Char} {form other rest more : List Char}
    (written : Written c form) (written' : Written d other) (same : form ++ rest = other ++ more) :
    c = d ∧ rest = more := by
  cases written with
  | plain shown =>
      cases written' with
      | plain => simpa using same
      | short | coded => exact absurd (List.cons.inj same).1 shown
  | short known =>
      cases written' with
      | plain shown => exact absurd (List.cons.inj same).1.symm shown
      | short known' =>
          obtain ⟨rfl, rfl⟩ : _ = _ ∧ rest = more := by simpa using same
          exact ⟨Option.some.inj (known.symm.trans known'), rfl⟩
      | coded =>
          obtain ⟨rfl, -⟩ : _ = 'u' ∧ _ := by simpa using same
          cases known
  | coded =>
      cases written' with
      | plain shown => exact absurd (List.cons.inj same).1.symm shown
      | short known' =>
          obtain ⟨rfl, -⟩ : 'u' = _ ∧ _ := by simpa using same
          cases known'
      | coded =>
          simp only [List.cons_append, List.cons.injEq, true_and, List.append_assoc] at same
          obtain ⟨digits, tails⟩ := eq_of_append_eq (· ≠ '}')
            (fun _ listed => (apart_of_mem_toDigits listed).1)
            (fun _ listed => (apart_of_mem_toDigits listed).1) (by simp) (by simp) same
          refine ⟨?_, (List.cons.inj tails).2⟩
          exact Char.toNat_inj.mp (toDigits_inj (by decide) (by decide) digits)

theorem Written.unbroken {c : Char} {form : List Char} (written : Written c form) :
    '\n' ∉ form := by
  cases written with
  | plain _ apart => simpa using Ne.symm apart
  | @short letter known =>
      have apart : '\n' ≠ letter := by
        rintro rfl
        cases known
      simpa using apart
  | coded =>
      have apart : '\n' ∉ Nat.toDigits 16 c.toNat := fun listed =>
        (apart_of_mem_toDigits listed).2 rfl
      simpa using apart

theorem toList_quoteText (text : String) : (quoteText text).toList =
    '"' :: text.toList.flatMap (fun c => (escapeChar '"' c).toList) ++ ['"'] := by
  have written : ∀ (characters : List Char) (before : String),
      (characters.foldl (fun written c => written ++ escapeChar '"' c) before).toList =
        before.toList ++ characters.flatMap fun c => (escapeChar '"' c).toList := by
    intro characters
    induction characters with
    | nil => simp
    | cons c rest ih => simp [ih]
  simp [quoteText, String.foldl_eq_foldl_toList, written]

theorem flatMap_escapeChar_inj {characters others : List Char}
    (same : characters.flatMap (fun c => (escapeChar '"' c).toList) =
      others.flatMap fun c => (escapeChar '"' c).toList) : characters = others := by
  induction characters generalizing others with
  | nil =>
      cases others with
      | nil => rfl
      | cons d rest => simp [(written_escapeChar d).ne_nil] at same
  | cons c rest ih =>
      cases others with
      | nil => simp [(written_escapeChar c).ne_nil] at same
      | cons d rest' =>
          simp only [List.flatMap_cons] at same
          obtain ⟨rfl, tails⟩ := (written_escapeChar c).prefix_free (written_escapeChar d) same
          rw [ih tails]

/-- A text is known from its quoted form. -/
theorem quoteText_injective : Function.Injective quoteText := by
  intro text other same
  have inner := congrArg String.toList same
  simp only [toList_quoteText, List.cons_append, List.cons.injEq, true_and] at inner
  exact String.toList_inj.mp (flatMap_escapeChar_inj (List.append_cancel_right inner))

theorem quoteText_unbroken (text : String) : '\n' ∉ (quoteText text).toList := by
  have : ∀ c ∈ text.toList, '\n' ∉ (escapeChar '"' c).toList := fun c _ =>
    (written_escapeChar c).unbroken
  simpa [toList_quoteText] using this

end RipInterpreter.Text
