import RipInterpreter.Concrete.Numbers
import RipInterpreter.Concrete.Words
import RipInterpreter.Proofs.Parsing.Remaining

namespace RipInterpreter.Concrete

open Parsing Parser

variable {source : Source} {position : Nat} {word rest : List Char} {c : Char}

/-- What a reference may spell. -/
structure IsReference (word : List Char) : Prop where
  nonempty : word ≠ []
  chars : ∀ c ∈ word, isReferenceChar c = true
  led : ∀ c ∈ word.head?, c.isDigit = false

/-- A word does not go on in these characters. -/
def EndsWord (rest : List Char) : Prop := ∀ c ∈ rest.head?, isReferenceChar c = false

/-- Neither a space nor a tab comes next. -/
def Unspaced (rest : List Char) : Prop := ∀ c ∈ rest.head?, (c = ' ' || c = '\t') = false

theorem spaces_of_space (remains : source.Remains position (' ' :: rest)) (other : Unspaced rest) :
    spaces.MatchesAt source position () (position + 1) := by
  have none : (charWhere (fun c => c = ' ' || c = '\t') "space").FailsAt source (position + 1) :=
    .charWhere_of_remains remains.tail other _
  exact MatchesAt.bind ((MatchesAt.charWhere remains rfl _).bind (none.many.bind (.pure _)))
    (.pure ())

theorem spaces_fail (remains : source.Remains position rest) (other : Unspaced rest) :
    spaces.FailsAt source position :=
  FailsAt.bind (FailsAt.bind (.charWhere_of_remains remains other _))

theorem blanks_none (remains : source.Remains position rest)
    (other : ∀ c ∈ rest.head?, Text.isBlank c = false) :
    blanks.MatchesAt source position () position :=
  (FailsAt.charWhere_of_remains remains other _).many.bind (.pure ())

theorem not_blank_of_reference (legal : isReferenceChar c = true) : Text.isBlank c = false := by
  simp only [isReferenceChar, Bool.not_eq_true', Bool.or_eq_false_iff] at legal
  exact legal.1

theorem simpleReference_of_word (remains : source.Remains position (word ++ rest))
    (reference : IsReference word) (ends : EndsWord rest) :
    simpleReference.MatchesAt source position ⟨.ofList word, source.placeOf position⟩
      (position + word.length) := by
  cases word with
  | nil => exact absurd rfl reference.nonempty
  | cons first word =>
      have led : (isReferenceChar first && !first.isDigit) = true := by
        rw [reference.chars first List.mem_cons_self, reference.led first rfl]
        rfl
      obtain ⟨spans, repeats, joined⟩ := repeats_charWhere remains.tail
        (fun c listed => reference.chars c (List.mem_cons_of_mem _ listed)) ends "reference"
      have spelled : String.join (String.singleton first :: spans.map Span.text) =
          .ofList (first :: word) := by
        rw [String.join_cons, joined]
        exact String.ofList_append.symm
      rw [List.length_cons, Nat.add_comm word.length, ← Nat.add_assoc, ← spelled]
      exact (MatchesAt.charWhere remains led _).bind (repeats.many.bind (.pure _))

theorem reference_of_word (remains : source.Remains position (word ++ rest))
    (reference : IsReference word) (ends : EndsWord rest) :
    Concrete.reference.MatchesAt source position
      (.leaf "reference" ⟨.ofList word, source.placeOf position⟩) (position + word.length) :=
  (simpleReference_of_word remains reference ends).map _

theorem keyword_of_word {expected : String}
    (remains : source.Remains position (expected.toList ++ rest)) (ends : EndsWord rest) :
    (keyword expected).MatchesAt source position ⟨expected, source.placeOf position⟩
      (position + expected.length) :=
  (MatchesAt.literal remains).bind
    ((MatchesAt.notFollowedBy (.charWhere_of_remains remains.skipText ends _) _).bind (.pure _))

/-- A piece of text that starts with a longest word starts with that word or with a part of it. -/
theorem prefix_of_word {text : List Char} (starts : text <+: word ++ rest)
    (chars : ∀ c ∈ text, isReferenceChar c = true) (ends : EndsWord rest) : text <+: word := by
  rcases Nat.le_total text.length word.length with shorter | longer
  · exact List.prefix_of_prefix_length_le starts (List.prefix_append word rest) shorter
  obtain ⟨more, rfl⟩ := List.prefix_of_prefix_length_le (List.prefix_append word rest) starts longer
  rw [List.prefix_append_right_inj] at starts
  cases more with
  | nil => exact ⟨[], by rw [List.append_nil, List.append_nil]⟩
  | cons c more =>
      obtain ⟨behind, rfl⟩ := starts
      have inside : isReferenceChar c = true := chars c (by simp)
      rw [ends c rfl] at inside
      cases inside

/-- A reserved word is not read from a longer word, nor from another one. -/
theorem keyword_fails_at_word {expected : String}
    (remains : source.Remains position (word ++ rest)) (ends : EndsWord rest)
    (chars : ∀ c ∈ word, isReferenceChar c = true)
    (reserved : ∀ c ∈ expected.toList, isReferenceChar c = true)
    (different : expected.toList ≠ word) : (keyword expected).FailsAt source position := by
  by_cases starts : expected.toList <+: word ++ rest
  · obtain ⟨more, rfl⟩ := prefix_of_word starts reserved ends
    cases more with
    | nil => exact absurd (List.append_nil _).symm different
    | cons c more =>
        rw [List.append_assoc] at remains
        have goesOn : isReferenceChar c = true := chars c (by simp)
        exact (MatchesAt.literal remains).bind_fails
          (FailsAt.bind (.notFollowedBy (.charWhere remains.skipText goesOn _) _))
  · exact FailsAt.bind (.literal_of_remains remains starts)

/-- No digits come next, nor a low line that might join more of them. -/
def EndsDigits (rest : List Char) : Prop := ∀ c ∈ rest.head?, c.isDigit = false ∧ c ≠ '_'

/-- A run of digits is taken up to the first other character. -/
theorem run_of_digits (remains : source.Remains position (word ++ rest)) (nonempty : word ≠ [])
    (chars : ∀ c ∈ word, c.isDigit = true) (ends : ∀ c ∈ rest.head?, c.isDigit = false) :
    ∃ spans, (manyOne digit).MatchesAt source position spans (position + word.length) := by
  obtain ⟨first, word, rfl⟩ := List.exists_cons_of_ne_nil nonempty
  obtain ⟨isDigit, others⟩ := List.forall_mem_cons.mp chars
  obtain ⟨spans, repeats, -⟩ := repeats_charWhere remains.tail others ends "digit"
  rw [Nat.add_assoc, Nat.add_comm 1] at repeats
  exact ⟨_, (MatchesAt.charWhere remains isDigit _).manyOne repeats⟩

/-- Where the digits end there is no further group. -/
theorem group_fails (remains : source.Remains position rest) (ends : EndsDigits rest) :
    (keepRight (optional (literal "_")) (manyOne digit)).FailsAt source position := by
  have unjoined : (literal "_").FailsAt source position :=
    .literal_of_head remains rfl fun c first => (ends c first).2
  have noDigit : digit.FailsAt source position :=
    .charWhere_of_remains remains (fun c first => (ends c first).1) _
  exact unjoined.optional.bind_fails noDigit.bind

theorem digits_of_digits (remains : source.Remains position (word ++ rest)) (nonempty : word ≠ [])
    (chars : ∀ c ∈ word, c.isDigit = true) (ends : EndsDigits rest) :
    digits.MatchesAt source position () (position + word.length) := by
  obtain ⟨spans, matching⟩ := run_of_digits remains nonempty chars fun c first => (ends c first).1
  exact matching.bind ((group_fails remains.skip ends).many.bind (.pure ()))

theorem digits_fail (remains : source.Remains position rest)
    (other : ∀ c ∈ rest.head?, c.isDigit = false) : digits.FailsAt source position :=
  FailsAt.bind (FailsAt.bind (.charWhere_of_remains remains other _))

theorem sign_taken (isSign : c ∈ ['+', '-'])
    (remains : source.Remains position (c :: rest)) :
    sign.MatchesAt source position (some ⟨.singleton c, source.placeOf position⟩) (position + 1) := by
  simp only [List.mem_cons, List.not_mem_nil, or_false] at isSign
  rcases isSign with rfl | rfl
  · exact ((MatchesAt.mark rfl remains).orElse _).optional
  · exact ((FailsAt.literal_of_remains remains (by simp)).otherwise
      (MatchesAt.mark rfl remains)).optional

theorem sign_absent (remains : source.Remains position rest)
    (unsigned : ∀ c ∈ rest.head?, c ∉ ['+', '-']) :
    sign.MatchesAt source position none position := by
  have other {mark : String} {m : Char} (spelled : mark.toList = [m]) (listed : m ∈ ['+', '-']) :
      (literal mark).FailsAt source position :=
    .literal_of_head remains spelled fun c first same => unsigned c first (same ▸ listed)
  exact ((other rfl (by decide)).orElse (other rfl (by decide))).optional

/-- Behind its sign a number starts with a digit, or with a point and a digit. -/
theorem numeric_fails_behind_sign {found : Option Span} {middle : Nat}
    (taken : sign.MatchesAt source position found middle) (nothing : digits.FailsAt source middle)
    (unpointed : (literal "." >>= fun _ => digits).FailsAt source middle) :
    numeric.FailsAt source position :=
  (FailsAt.map (FailsAt.capture (taken.bind_fails (nothing.optional.bind_fails unpointed))) _).orElse
    (FailsAt.map (FailsAt.capture (taken.bind_fails nothing)) _)

end RipInterpreter.Concrete
