import RipInterpreter.Proofs.Concrete.Literals
import RipInterpreter.Proofs.Concrete.Words

namespace RipInterpreter.Concrete

open Parsing Parser

/-- Letters and digits of ASCII and the low line. -/
def isWordChar (c : Char) : Bool := c.isAlphanum || c = '_'

/-- The words that introduce a construct or a definition. -/
def leadingWords : List String :=
  ["if", "unless", "switch", "try", "throw", "return", "exit", "class", "lambda"]

def operatorSymbols : List Char :=
  ['+', '-', '*', '/', '<', '>', '=', '!', '&', '~', '%', '?', '$']

inductive Operand where
  | numeral (digits : String) (nonempty : digits ≠ "")
    (decimal : ∀ c ∈ digits.toList, c.isDigit = true)
  | name (word : String) (nonempty : word ≠ "") (chars : ∀ c ∈ word.toList, isWordChar c = true)
    (led : ∀ c ∈ word.toList.head?, c.isDigit = false) (free : word ∉ leadingWords)

def Operand.isName : Operand → Bool
  | .numeral .. => false
  | .name .. => true

structure Operator where
  text : String
  nonempty : text ≠ ""
  symbols : ∀ c ∈ text.toList, c ∈ operatorSymbols

structure Link where
  operator : Operator
  operand : Operand

structure Chain where
  first : Operand
  links : List Link

def Operand.text : Operand → String
  | .numeral digits .. => digits
  | .name word .. => word

/-- The leaf that an operand at a place is read as. -/
def Operand.tree (place : Location) : Operand → Tree
  | .numeral digits .. => .leaf "integer" ⟨digits, place⟩
  | .name word .. => .leaf "reference" ⟨word, place⟩

/-- The chain as an operation between operands: `a + b`. -/
def Link.spaced (link : Link) : String := " " ++ link.operator.text ++ " " ++ link.operand.text

/-- The chain as the call of a property: `a.+(b)`. -/
def Link.dotted (link : Link) : String := "." ++ link.operator.text ++ "(" ++ link.operand.text ++ ")"

def Chain.spaced (chain : Chain) : String :=
  chain.first.text ++ String.join (chain.links.map Link.spaced)

def Chain.dotted (chain : Chain) : String :=
  chain.first.text ++ String.join (chain.links.map Link.dotted)

/-- The chain does not read as an assignment to its first operand. -/
def Chain.Unassigning (chain : Chain) : Prop :=
  chain.first.isName = true → ∀ link ∈ chain.links.head?, link.operator.text ≠ "="

theorem of_ascii {accepts : Char → Bool} (holds : ∀ code < 128, accepts (Char.ofNat code) = true)
    {c : Char} (ascii : c.toNat < 128) : accepts c = true := by
  have accepted := holds c.toNat ascii
  rwa [Char.ofNat_toNat] at accepted

theorem ascii_of_wordChar {c : Char} (isWord : isWordChar c = true) : c.toNat < 128 := by
  change ((decide ('A'.val ≤ c.val ∧ c.val ≤ 'Z'.val) ||
    (decide ('a'.val ≤ c.val) && decide (c.val ≤ 'z'.val))) ||
      (decide ('0'.val ≤ c.val) && decide (c.val ≤ '9'.val)) || decide (c = '_')) = true at isWord
  simp only [Bool.or_eq_true, Bool.and_eq_true, decide_eq_true_eq] at isWord
  have upper : c.toNat = c.val.toNat := rfl
  rw [upper]
  rcases isWord with ((⟨-, bound⟩ | ⟨-, bound⟩) | ⟨-, bound⟩) | rfl
  · exact Nat.lt_of_le_of_lt (UInt32.le_iff_toNat_le.mp bound) (by decide)
  · exact Nat.lt_of_le_of_lt (UInt32.le_iff_toNat_le.mp bound) (by decide)
  · exact Nat.lt_of_le_of_lt (UInt32.le_iff_toNat_le.mp bound) (by decide)
  · decide

theorem reference_of_wordChar {c : Char} (isWord : isWordChar c = true) :
    isReferenceChar c = true := by
  have implied : (!isWordChar c || isReferenceChar c) = true :=
    @of_ascii (fun c => !isWordChar c || isReferenceChar c) (by decide +kernel) c
      (ascii_of_wordChar isWord)
  rwa [isWord] at implied

theorem wordChar_of_digit {c : Char} (isDigit : c.isDigit = true) : isWordChar c = true := by
  simp [isWordChar, Char.isAlphanum, isDigit]

theorem Operand.word (operand : Operand) :
    operand.text.toList ≠ [] ∧ ∀ c ∈ operand.text.toList, isWordChar c = true := by
  cases operand with
  | numeral digits nonempty decimal =>
      exact ⟨mt String.toList_eq_nil_iff.mp nonempty,
        fun c listed => wordChar_of_digit (decimal c listed)⟩
  | name word nonempty chars led free => exact ⟨mt String.toList_eq_nil_iff.mp nonempty, chars⟩

theorem Operand.spelled (operand : Operand) :
    ∃ c rest, operand.text.toList = c :: rest ∧ isWordChar c = true := by
  obtain ⟨nonempty, chars⟩ := operand.word
  obtain ⟨c, rest, spelled⟩ := List.exists_cons_of_ne_nil nonempty
  exact ⟨c, rest, spelled, chars c (spelled ▸ List.mem_cons_self)⟩

theorem Operand.chars (operand : Operand) :
    ∀ c ∈ operand.text.toList, isReferenceChar c = true :=
  fun c listed => reference_of_wordChar (operand.word.2 c listed)

theorem isReference_of_word {word : String} (nonempty : word ≠ "")
    (chars : ∀ c ∈ word.toList, isWordChar c = true)
    (led : ∀ c ∈ word.toList.head?, c.isDigit = false) : IsReference word.toList where
  nonempty := mt String.toList_eq_nil_iff.mp nonempty
  chars c listed := reference_of_wordChar (chars c listed)
  led := led

/-- No operand is a word that a construct or a definition starts with. -/
theorem Operand.leads_nothing (operand : Operand) :
    ∀ word ∈ leadingWords ++ ["->", "λ", "=>"], word.toList ≠ operand.text.toList := by
  intro word listed same
  rw [String.toList_inj] at same
  subst same
  rcases List.mem_append.mp listed with leading | sign
  · cases operand with
    | name word nonempty chars led free => exact free leading
    | numeral digits nonempty decimal =>
        have lettered : ∀ word ∈ leadingWords, word.toList.all Char.isDigit ≠ true := by decide
        exact lettered _ leading (List.all_eq_true.mpr decimal)
  · have signed : ∀ word ∈ ["->", "λ", "=>"], word.toList.all isWordChar ≠ true := by decide
    exact signed _ sign (List.all_eq_true.mpr operand.word.2)

theorem Operator.spelled (operator : Operator) :
    ∃ c rest, operator.text.toList = c :: rest ∧ c ∈ operatorSymbols := by
  obtain ⟨c, rest, spelled⟩ := List.exists_cons_of_ne_nil
    (show operator.text.toList ≠ [] by simpa using operator.nonempty)
  exact ⟨c, rest, spelled, operator.symbols c (spelled ▸ List.mem_cons_self)⟩

theorem reference_of_symbol {c : Char} (symbol : c ∈ operatorSymbols) : isReferenceChar c = true :=
  List.all_eq_true.mp (by decide : operatorSymbols.all isReferenceChar = true) c symbol

theorem symbol_not_digit {c : Char} (symbol : c ∈ operatorSymbols) : c.isDigit = false := by
  revert c symbol
  simp [operatorSymbols]

theorem symbol_not_space {c : Char} (symbol : c ∈ operatorSymbols) :
    (c = ' ' || c = '\t') = false := by
  revert c symbol
  simp [operatorSymbols]

theorem Operator.reference (operator : Operator) : IsReference operator.text.toList where
  nonempty := by simpa using operator.nonempty
  chars c listed := reference_of_symbol (operator.symbols c listed)
  led c first := symbol_not_digit (operator.symbols c (List.mem_of_head? first))

/-- The end of the text, of a list of arguments or of a link. -/
inductive Boundary : List Char → Prop
  | ended : Boundary []
  | closed (rest : List Char) : Boundary (')' :: rest)
  | spaced {c : Char} (symbol : c ∈ operatorSymbols) (rest : List Char) : Boundary (' ' :: c :: rest)
  | dotted {c : Char} (symbol : c ∈ operatorSymbols) (rest : List Char) : Boundary ('.' :: c :: rest)

section

variable {source : Source} {position levels : Nat} {rest : List Char} {nested : Nested} {key : Tree}

namespace Boundary

theorem head (boundary : Boundary rest) : ∀ c ∈ rest.head?, c ∈ [')', ' ', '.'] := by
  cases boundary <;> simp

theorem endsWord (boundary : Boundary rest) : EndsWord rest := by
  cases boundary <;> rintro _ ⟨⟩ <;> decide

theorem endsDigits (boundary : Boundary rest) : EndsDigits rest := by
  cases boundary <;> rintro _ ⟨⟩ <;> decide

/-- No operand in front of a boundary is the key of a pair. -/
theorem pairRest_none (boundary : Boundary rest) (remains : source.Remains position rest) :
    (pairRest nested key).MatchesAt source position none position := by
  have unpaired : (optional spaces >>= fun _ => literal ":" >>= fun _ => optional spaces >>= fun _ =>
      nested.operand).FailsAt source position := by
    cases boundary with
    | spaced symbol rest =>
        have space : spaces.MatchesAt source position () (position + 1) :=
          spaces_of_space remains (by rintro _ ⟨⟩; exact symbol_not_space symbol)
        have other : ':' ∉ operatorSymbols := by decide
        exact space.optional.bind_fails <| FailsAt.bind <|
          .literal_of_head remains.tail rfl (by rintro _ ⟨⟩ rfl; exact other symbol)
    | ended | closed | dotted =>
        exact (spaces_fail remains (by rintro _ ⟨⟩ <;> rfl)).optional.bind_fails <|
          FailsAt.bind (.literal_of_head remains rfl (by rintro _ ⟨⟩ <;> decide))
  exact (FailsAt.optional unpaired).bind (.pure none)

/-- No operand in front of a boundary starts a range. -/
theorem rangeRest_none (boundary : Boundary rest) (remains : source.Remains position rest) :
    (rangeRest key).MatchesAt source position none position := by
  have single : ¬ "..".toList <+: rest := by
    intro starts
    cases boundary with
    | dotted symbol rest =>
        obtain ⟨more, same⟩ := starts
        have second : '.' = _ := (List.cons.inj (List.cons.inj same).2).1
        exact (by decide : '.' ∉ operatorSymbols) (second ▸ symbol)
    | _ => simp at starts
  exact (FailsAt.optional (.bind (.literal_of_remains remains single))).bind (.pure none)

end Boundary

section

variable {operand : Operand} (remains : source.Remains position (operand.text.toList ++ rest))
include remains

theorem stands_at_operand :
    ∃ c, source.chars[position]? = some c ∧ isWordChar c = true := by
  obtain ⟨c, tail, spelled, isWord⟩ := operand.spelled
  refine ⟨c, ?_, isWord⟩
  rw [remains.head?, spelled]
  rfl

theorem literal_fails_at_operand {expected : String} {head : Char} {tail : List Char}
    (spelled : expected.toList = head :: tail) (other : isWordChar head = false) :
    (literal expected).FailsAt source position := by
  obtain ⟨c, stands, isWord⟩ := stands_at_operand remains
  refine .literal (fun found => ?_) spelled
  rw [stands] at found
  rw [← Option.some.inj found, isWord] at other
  cases other

theorem sign_none_at_operand : sign.MatchesAt source position none position :=
  ((literal_fails_at_operand remains rfl (by decide)).orElse
    (literal_fails_at_operand remains rfl (by decide))).optional

theorem string_fails_at_operand : (string nested).FailsAt source position := by
  obtain ⟨c, stands, isWord⟩ := stands_at_operand remains
  refine string_fails fun mark listed found => ?_
  rw [stands] at found
  have other : stringMarks.all (!isWordChar ·) = true := by decide
  have unlike := List.all_eq_true.mp other mark listed
  rw [← Option.some.inj found, isWord] at unlike
  cases unlike

theorem blanks_none_at_operand : blanks.MatchesAt source position () position := by
  obtain ⟨c, stands, isWord⟩ := stands_at_operand remains
  have visible : Text.isBlank c = false := not_blank_of_reference (reference_of_wordChar isWord)
  exact (FailsAt.charWhere stands visible _).many.bind (.pure ())

variable (boundary : Boundary rest)
include boundary

theorem keyword_fails_at_operand {word : String}
    (listed : word ∈ leadingWords ++ ["->", "λ", "=>"]) :
    (keyword word).FailsAt source position :=
  have reserved : ∀ word ∈ leadingWords ++ ["->", "λ", "=>"],
      word.toList.all isReferenceChar = true := by decide
  keyword_fails_at_word remains boundary.endsWord operand.chars
    (List.all_eq_true.mp (reserved word listed)) (operand.leads_nothing word listed)

theorem construct_fails_at_operand : (construct nested).FailsAt source position := by
  have word {word : String} {α : Type} {next : Span → Parser α}
      (listed : word ∈ leadingWords ++ ["->", "λ", "=>"]) :
      (keyword word >>= next).FailsAt source position :=
    (keyword_fails_at_operand remains boundary listed).bind
  exact (word (by decide)).orElse <| (word (by decide)).orElse <| (word (by decide)).orElse <|
    (word (by decide)).orElse <| (word (by decide)).orElse <|
      (word (by decide)).orElse (word (by decide))

theorem definition_fails_at_operand : (definition nested).FailsAt source position := by
  have word {word : String} (listed : word ∈ leadingWords ++ ["->", "λ", "=>"]) :
      (keyword word).FailsAt source position := keyword_fails_at_operand remains boundary listed
  have start : (firstOf (keyword "->") [keyword "lambda", keyword "λ"]).FailsAt source position :=
    (word (by decide)).orElse ((word (by decide)).orElse (word (by decide)))
  exact (word (by decide)).bind.orElse (start.bind.orElse (word (by decide)).bind)

end

section

variable {word : String} (boundary : Boundary rest)
  (remains : source.Remains position (word.toList ++ rest))
include boundary remains

/-- Digits in front of a boundary are whole, a point there belongs to a call. -/
theorem numeric_of_digits (nonempty : word ≠ "") (decimal : ∀ c ∈ word.toList, c.isDigit = true) :
    numeric.MatchesAt source position (.leaf "integer" ⟨word, source.placeOf position⟩)
      (position + word.length) := by
  have behind : source.Remains (position + word.length) rest := remains.skipText
  have numeral : source.Remains position
      ((Operand.numeral word nonempty decimal).text.toList ++ rest) := remains
  have unsigned : sign.MatchesAt source position none position := sign_none_at_operand numeral
  have read : digits.MatchesAt source position () (position + word.length) :=
    String.length_toList ▸ digits_of_digits remains
      (mt String.toList_eq_nil_iff.mp nonempty) decimal boundary.endsDigits
  have unpointed : (literal "." >>= fun _ => digits).FailsAt source (position + word.length) := by
    cases boundary with
    | @dotted c symbol rest =>
        exact (MatchesAt.mark rfl behind).bind_fails
          (digits_fail behind.tail (by rintro _ ⟨⟩; exact symbol_not_digit symbol))
    | ended | closed | spaced =>
        exact FailsAt.bind (.literal_of_head behind rfl (by rintro _ ⟨⟩ <;> decide))
  have piece : source.slice position (position + word.length) = word := by
    rw [← String.length_toList, remains.slice, String.ofList_toList]
  have whole : integer.MatchesAt source position
      (.leaf "integer" ⟨source.slice position (position + word.length), source.placeOf position⟩)
      (position + word.length) := (MatchesAt.capture (unsigned.bind read)).map _
  rw [piece] at whole
  exact (FailsAt.map (FailsAt.capture (unsigned.bind_fails (read.optional.bind_fails unpointed)))
    _).otherwise whole

/-- The rule that reads an operand is the first one that does not fail there. -/
theorem atom_of_operand (operand : Operand) (spelled : operand.text = word) :
    (atom nested).MatchesAt source position (operand.tree (source.placeOf position))
      (position + word.length) := by
  subst spelled
  have behind : source.Remains (position + operand.text.length) rest := remains.skipText
  refine (construct_fails_at_operand remains boundary).otherwise <|
    (definition_fails_at_operand remains boundary).otherwise <|
      (FailsAt.bind (literal_fails_at_operand remains rfl (by decide))).otherwise <|
        (FailsAt.bind (literal_fails_at_operand remains rfl (by decide))).otherwise ?_
  cases operand with
  | numeral digits nonempty decimal =>
      refine MatchesAt.orElse ?_ _
      refine ((numeric_of_digits boundary remains nonempty decimal).orElse _).bind
        ((boundary.pairRest_none behind).bind ?_)
      exact (boundary.rangeRest_none behind).bind (.pure _)
  | name name nonempty chars led free =>
      have undecimal : ∀ c ∈ (name.toList ++ rest).head?, c.isDigit = false := by
        obtain ⟨c, tail, spelled⟩ := List.exists_cons_of_ne_nil
          (mt String.toList_eq_nil_iff.mp nonempty)
        rw [spelled] at led ⊢
        exact led
      have unsigned : sign.MatchesAt source position none position := sign_none_at_operand remains
      have nothing : digits.FailsAt source position := digits_fail remains undecimal
      have unpointed : (literal "." >>= fun _ => digits).FailsAt source position :=
        (literal_fails_at_operand remains rfl (by decide)).bind
      have unnumbered : numeric.FailsAt source position :=
        numeric_fails_behind_sign unsigned nothing unpointed
      have unquoted : character.FailsAt source position :=
        FailsAt.map (FailsAt.bind (literal_fails_at_operand remains rfl (by decide))) _
      have simple : (simpleValue nested).FailsAt source position :=
        unnumbered.orElse <| unquoted.orElse <| (string_fails_at_operand remains).orElse
          (FailsAt.bind (literal_fails_at_operand remains rfl (by decide)))
      have reference : Concrete.reference.MatchesAt source position _ (position + name.length) :=
        String.length_toList ▸
          reference_of_word remains (isReference_of_word nonempty chars led) boundary.endsWord
      rw [String.ofList_toList] at reference
      exact (FailsAt.bind simple).otherwise <|
        (FailsAt.bind (literal_fails_at_operand remains rfl (by decide))).otherwise
          (reference.bind ((boundary.rangeRest_none behind).bind (.pure _)))

end

theorem suffix_fails (remains : source.Remains position rest)
    (other : ∀ c ∈ rest.head?, c ≠ '.' ∧ c ≠ '(') : (suffix nested).FailsAt source position := by
  have unpointed : (literal ".").FailsAt source position :=
    .literal_of_head remains rfl fun c first => (other c first).1
  have unopened : (literal "(").FailsAt source position :=
    .literal_of_head remains rfl fun c first => (other c first).2
  exact (FailsAt.map unpointed.bind _).orElse unopened.bind.bind

/-- No suffix follows where neither a property nor a call does. -/
theorem suffixes_none (boundary : Boundary rest) (uncalled : ∀ c ∈ rest.head?, c ≠ '.')
    (remains : source.Remains position rest) (operand : Tree) :
    (suffixes nested operand).MatchesAt source position operand position := by
  have closed : ∀ c ∈ [')', ' ', '.'], c ≠ '(' := by simp
  have alone : (suffix nested).FailsAt source position :=
    suffix_fails remains fun c first => ⟨uncalled c first, closed c (boundary.head c first)⟩
  exact alone.many.bind (.pure operand)

/-- An operand that is not called. -/
theorem operand_of_operand {operand : Operand} (boundary : Boundary rest)
    (uncalled : ∀ c ∈ rest.head?, c ≠ '.')
    (remains : source.Remains position (operand.text.toList ++ rest)) :
    (Concrete.operand nested).MatchesAt source position (operand.tree (source.placeOf position))
      (position + operand.text.length) :=
  (atom_of_operand boundary remains operand rfl).bind
    (suffixes_none boundary uncalled remains.skipText _)

end

/-- What the links of a chain are read as behind spaces: an operator and an operand each. -/
inductive Operations (origin : String) : List Link → List (List Tree) → Prop
  | nil : Operations origin [] []
  | cons {link : Link} {links : List Link} {trees : List (List Tree)}
    {operatorPlace operandPlace : Location} (first : operatorPlace.origin = origin)
    (second : operandPlace.origin = origin) (rest : Operations origin links trees) :
    Operations origin (link :: links)
      ([.leaf "operator" ⟨link.operator.text, operatorPlace⟩, link.operand.tree operandPlace] ::
        trees)

section

variable {origin text : String} {source : Source} {position levels : Nat} {rest : List Char}
  {link : Link} {links : List Link}

theorem toList_spaced (link : Link) :
    link.spaced.toList = ' ' :: (link.operator.text.toList ++ ' ' :: link.operand.text.toList) := by
  simp [Link.spaced]

theorem unspaced_operator (operator : Operator) (rest : List Char) :
    Unspaced (operator.text.toList ++ rest) := by
  obtain ⟨c, symbols, spelled, symbol⟩ := operator.spelled
  rw [spelled]
  rintro _ ⟨⟩
  exact symbol_not_space symbol

theorem unspaced_operand (operand : Operand) (rest : List Char) :
    Unspaced (operand.text.toList ++ rest) := by
  obtain ⟨c, letters, spelled, isWord⟩ := operand.spelled
  rw [spelled]
  rintro _ ⟨⟩
  rw [Bool.or_eq_false_iff, decide_eq_false_iff_not, decide_eq_false_iff_not]
  constructor <;> rintro rfl <;> exact absurd isWord (by decide)

theorem simpleReference_of_operator {operator : Operator}
    (remains : source.Remains position (operator.text.toList ++ rest)) (ends : EndsWord rest) :
    simpleReference.MatchesAt source position ⟨operator.text, source.placeOf position⟩
      (position + operator.text.length) := by
  have read := simpleReference_of_word remains operator.reference ends
  rwa [String.ofList_toList, String.length_toList] at read

/-- Behind an operand comes another link or nothing. -/
theorem boundary_spaced (links : List Link) :
    Boundary (links.flatMap fun link => link.spaced.toList) ∧
      ∀ c ∈ (links.flatMap fun link => link.spaced.toList).head?, c ≠ '.' := by
  cases links with
  | nil => exact ⟨.ended, by rintro _ ⟨⟩⟩
  | cons link links =>
      obtain ⟨c, symbols, spelled, symbol⟩ := link.operator.spelled
      rw [List.flatMap_cons, toList_spaced, spelled]
      exact ⟨.spaced symbol _, by rintro _ ⟨⟩; decide⟩

theorem repeats_operatorLink (named : source = .ofText origin text)
    (remains : source.Remains position (links.flatMap fun link => link.spaced.toList)) :
    ∃ trees finish, Operations origin links trees ∧ source.Remains finish [] ∧
      (operatorLink (.within (levels + 1))).RepeatsAt source position trees finish := by
  have placed (index : Nat) : (source.placeOf index).origin = origin :=
    named ▸ Source.origin_placeOf origin text index
  induction links generalizing position with
  | nil =>
      exact ⟨[], position, .nil, remains,
        .nil (FailsAt.bind (spaces_fail remains (by rintro _ ⟨⟩)))⟩
  | cons link links ih =>
      obtain ⟨boundary, uncalled⟩ := boundary_spaced links
      rw [List.flatMap_cons, toList_spaced, List.cons_append, List.append_assoc,
        List.cons_append] at remains
      have behind := remains.tail.skipText
      obtain ⟨trees, finish, operations, ended, repeats⟩ := ih behind.tail.skipText
      have leading := spaces_of_space remains (unspaced_operator link.operator _)
      have operator := simpleReference_of_operator remains.tail (by rintro _ ⟨⟩; decide)
      have trailing := spaces_of_space behind (unspaced_operand link.operand _)
      have operand : (Nested.within (levels + 1)).operand.MatchesAt source
          (position + 1 + link.operator.text.length + 1) _ _ :=
        operand_of_operand boundary uncalled behind.tail
      exact ⟨_, finish, .cons (placed _) (placed _) operations, ended,
        .cons (leading.bind (operator.bind (trailing.bind (operand.bind (.pure _)))))
          (by omega) remains.inside repeats⟩

/-- What the links of a chain are read as behind points: a property and its call each. -/
inductive Calls (origin : String) : List Link → List Suffix → Prop
  | nil : Calls origin [] []
  | cons {link : Link} {links : List Link} {suffixes : List Suffix}
    {name opening argument : Location} (first : name.origin = origin)
    (second : opening.origin = origin) (third : argument.origin = origin)
    (rest : Calls origin links suffixes) :
    Calls origin (link :: links)
      (.property ⟨link.operator.text, name⟩ :: .invocation opening [link.operand.tree argument] ::
        suffixes)

theorem toList_dotted (link : Link) :
    link.dotted.toList =
      '.' :: (link.operator.text.toList ++ '(' :: (link.operand.text.toList ++ [')'])) := by
  simp [Link.dotted]

theorem boundary_dotted (links : List Link) :
    Boundary (links.flatMap fun link => link.dotted.toList) := by
  cases links with
  | nil => exact .ended
  | cons link links =>
      obtain ⟨c, symbols, spelled, symbol⟩ := link.operator.spelled
      rw [List.flatMap_cons, toList_dotted, spelled]
      exact .dotted symbol _

/-- An operand that neither a call nor a link follows. -/
theorem expression_of_operand {operand : Operand} (boundary : Boundary rest)
    (uncalled : ∀ c ∈ rest.head?, c ≠ '.') (unlinked : Unspaced rest)
    (remains : source.Remains position (operand.text.toList ++ rest)) :
    (expression (.within levels)).MatchesAt source position
      (operand.tree (source.placeOf position)) (position + operand.text.length) := by
  have alone : (operatorLink (.within levels)).FailsAt source (position + operand.text.length) :=
    FailsAt.bind (spaces_fail remains.skipText unlinked)
  exact (operand_of_operand boundary uncalled remains).bind (alone.many.bind (.pure _))

/-- A list of arguments with one operand. -/
theorem parenthesizedList_of_operand {operand : Operand}
    (remains : source.Remains position ('(' :: (operand.text.toList ++ ')' :: rest))) :
    (parenthesizedList (Nested.within (levels + 1)).expression).MatchesAt source position
      (⟨"(", source.placeOf position⟩, [operand.tree (source.placeOf (position + 1))])
      (position + 1 + operand.text.length + 1) := by
  have closing := remains.tail.skipText
  have item : (Nested.within (levels + 1)).expression.MatchesAt source (position + 1) _ _ :=
    expression_of_operand (.closed rest) (by rintro _ ⟨⟩; decide) (by rintro _ ⟨⟩; rfl) remains.tail
  have unblank : blanks.MatchesAt source (position + 1 + operand.text.length) () _ :=
    blanks_none closing (by rintro _ ⟨⟩; decide)
  have comma : (literal ",").FailsAt source (position + 1 + operand.text.length) :=
    .literal_of_remains closing (by simp)
  have single : (listOf (Nested.within (levels + 1)).expression).MatchesAt source (position + 1) _
      (position + 1 + operand.text.length) :=
    item.optional.bind
      ((FailsAt.bind (FailsAt.bind (unblank.bind_fails comma))).many.bind (.pure _))
  exact (MatchesAt.mark rfl remains).bind <|
    (blanks_none_at_operand remains.tail).bind <| single.bind <| unblank.bind <|
      ((MatchesAt.mark rfl closing).label _).bind (.pure _)

theorem repeats_suffix (named : source = .ofText origin text)
    (remains : source.Remains position (links.flatMap fun link => link.dotted.toList)) :
    ∃ suffixes finish, Calls origin links suffixes ∧ source.Remains finish [] ∧
      (suffix (.within (levels + 1))).RepeatsAt source position suffixes finish := by
  have placed (index : Nat) : (source.placeOf index).origin = origin :=
    named ▸ Source.origin_placeOf origin text index
  induction links generalizing position with
  | nil => exact ⟨[], position, .nil, remains, .nil (suffix_fails remains (by rintro _ ⟨⟩))⟩
  | cons link links ih =>
      rw [List.flatMap_cons, toList_dotted, List.cons_append, List.append_assoc,
        List.cons_append, List.append_assoc, List.singleton_append] at remains
      have opening := remains.tail.skipText
      have closing := opening.tail.skipText
      obtain ⟨suffixes, finish, calls, ended, repeats⟩ := ih closing.tail
      have name := simpleReference_of_operator remains.tail (by rintro _ ⟨⟩; decide)
      have property : (suffix (.within (levels + 1))).MatchesAt source position _ _ :=
        (((MatchesAt.mark rfl remains).bind name).map Suffix.property).orElse _
      have unpointed : (literal ".").FailsAt source (position + 1 + link.operator.text.length) :=
        .literal_of_remains opening (by simp)
      have invocation : (suffix (.within (levels + 1))).MatchesAt source
          (position + 1 + link.operator.text.length) _ _ :=
        (FailsAt.map unpointed.bind _).otherwise
          ((parenthesizedList_of_operand opening).bind (.pure _))
      exact ⟨_, finish, .cons (placed _) (placed _) (placed _) calls, ended,
        .cons property (by omega) remains.inside <|
          .cons invocation (by omega) opening.inside repeats⟩

variable {chain : Chain}

theorem toList_spaced_chain (chain : Chain) : chain.spaced.toList =
    chain.first.text.toList ++ chain.links.flatMap fun link => link.spaced.toList := by
  simp [Chain.spaced, String.toList_join, List.flatMap_map]

theorem toList_dotted_chain (chain : Chain) : chain.dotted.toList =
    chain.first.text.toList ++ chain.links.flatMap fun link => link.dotted.toList := by
  simp [Chain.dotted, String.toList_join, List.flatMap_map]

/-- The tree of operands with operations between them. -/
def operation (first : Tree) (links : List (List Tree)) : Tree :=
  if links.isEmpty then first else .branch "binary" first.location (first :: links.flatten)

theorem expression_of_spaced (origin : String) (chain : Chain) :
    ∃ trees finish, Operations origin chain.links trees ∧
      (Source.ofText origin chain.spaced).Remains finish [] ∧
      (expression (.within (levels + 1))).MatchesAt (.ofText origin chain.spaced) 0
        (operation (chain.first.tree (.start origin)) trees) finish := by
  have remains := Source.remains_ofText origin chain.spaced
  rw [toList_spaced_chain] at remains
  obtain ⟨boundary, uncalled⟩ := boundary_spaced chain.links
  obtain ⟨trees, finish, operations, ended, repeats⟩ := repeats_operatorLink rfl remains.skipText
  refine ⟨trees, finish, operations, ended, ?_⟩
  rw [← placeOf_start origin chain.spaced]
  refine (operand_of_operand boundary uncalled remains).bind (repeats.many.bind ?_)
  unfold operation
  split <;> exact .pure _

theorem suffixes_of_dotted (origin : String) (chain : Chain) (operand : Tree) :
    ∃ attached finish, Calls origin chain.links attached ∧
      (Source.ofText origin chain.dotted).Remains finish [] ∧
      (suffixes (.within (levels + 1)) operand).MatchesAt (.ofText origin chain.dotted)
        (0 + chain.first.text.length) (attached.foldl Suffix.attach operand) finish := by
  have remains := Source.remains_ofText origin chain.dotted
  rw [toList_dotted_chain] at remains
  obtain ⟨attached, finish, calls, ended, repeats⟩ := repeats_suffix rfl remains.skipText
  exact ⟨attached, finish, calls, ended, repeats.many.bind (.pure _)⟩

theorem expression_of_dotted (origin : String) (chain : Chain) :
    ∃ attached finish, Calls origin chain.links attached ∧
      (Source.ofText origin chain.dotted).Remains finish [] ∧
      (expression (.within (levels + 1))).MatchesAt (.ofText origin chain.dotted) 0
        (attached.foldl Suffix.attach (chain.first.tree (.start origin))) finish := by
  have remains := Source.remains_ofText origin chain.dotted
  rw [toList_dotted_chain] at remains
  obtain ⟨attached, finish, calls, ended, matching⟩ :=
    @suffixes_of_dotted levels origin chain (chain.first.tree (.start origin))
  refine ⟨attached, finish, calls, ended, ?_⟩
  have unlinked : (operatorLink (.within (levels + 1))).FailsAt (.ofText origin chain.dotted)
      finish := FailsAt.bind (spaces_fail ended (by rintro _ ⟨⟩))
  rw [← placeOf_start origin chain.dotted] at matching ⊢
  have first : (atom (.within (levels + 1))).MatchesAt (.ofText origin chain.dotted) 0 _ _ :=
    atom_of_operand (boundary_dotted chain.links) remains chain.first rfl
  exact (first.bind matching).bind (unlinked.many.bind (.pure _))

theorem reference_of_name {operand : Operand} (isName : operand.isName = true)
    (remains : source.Remains position (operand.text.toList ++ rest)) (ends : EndsWord rest) :
    reference.MatchesAt source position (operand.tree (source.placeOf position))
      (position + operand.text.length) := by
  cases operand with
  | numeral digits nonempty decimal => cases isName
  | name word nonempty chars led free =>
      have read := reference_of_word remains (isReference_of_word nonempty chars led) ends
      rwa [String.ofList_toList, String.length_toList] at read

theorem reference_fails_at_numeral {operand : Operand} (isNumeral : operand.isName = false)
    (remains : source.Remains position (operand.text.toList ++ rest)) :
    reference.FailsAt source position := by
  cases operand with
  | name => cases isNumeral
  | numeral digits nonempty decimal =>
      obtain ⟨c, others, spelled⟩ := List.exists_cons_of_ne_nil
        (mt String.toList_eq_nil_iff.mp nonempty)
      have isDigit : c.isDigit = true := decimal c (spelled ▸ List.mem_cons_self)
      have remains : source.Remains position (c :: (others ++ rest)) := by
        rw [← List.cons_append, ← spelled]
        exact remains
      have refused : (isReferenceChar c && !c.isDigit) = false := by
        rw [isDigit, Bool.not_true, Bool.and_false]
      exact FailsAt.map (FailsAt.bind (.charWhere remains.head? refused _)) _

/-- An equals sign between spaces is missing behind the first operand. -/
theorem unequal_of_spaced {next : Span → Parser Tree} (links : List Link)
    (other : ∀ link ∈ links.head?, link.operator.text ≠ "=")
    (remains : source.Remains position (links.flatMap fun link => link.spaced.toList)) :
    (spaces >>= fun _ => literal "=" >>= fun equals => spaces >>= fun _ => next equals).FailsAt source
      position := by
  cases links with
  | nil => exact FailsAt.bind (spaces_fail remains (by rintro _ ⟨⟩))
  | cons link links =>
      rw [List.flatMap_cons, toList_spaced, List.cons_append, List.append_assoc] at remains
      refine (spaces_of_space remains (unspaced_operator link.operator _)).bind_fails ?_
      obtain ⟨c, symbols, spelled, symbol⟩ := link.operator.spelled
      have behind := remains.tail
      rw [spelled] at behind
      by_cases equals : c = '='
      · subst equals
        refine (MatchesAt.mark rfl behind).bind_fails (FailsAt.bind (spaces_fail behind.tail ?_))
        cases symbols with
        | nil => exact absurd (String.toList_inj.mp spelled) (other link rfl)
        | cons second symbols =>
            rintro _ ⟨⟩
            exact symbol_not_space (link.operator.symbols _ (by rw [spelled]; simp))
      · refine FailsAt.bind (.literal_of_remains behind fun starts => equals ?_)
        exact ((List.cons_prefix_cons.mp starts).1).symm

theorem assignment_fails_of_spaced (origin : String) (unassigning : chain.Unassigning) :
    (assignment (.within (levels + 1))).FailsAt (.ofText origin chain.spaced) 0 := by
  have remains := Source.remains_ofText origin chain.spaced
  rw [toList_spaced_chain] at remains
  cases named : chain.first.isName with
  | false => exact FailsAt.bind (reference_fails_at_numeral named remains)
  | true =>
      obtain ⟨boundary, uncalled⟩ := boundary_spaced chain.links
      exact (reference_of_name named remains boundary.endsWord).bind_fails <|
        (suffixes_none boundary uncalled remains.skipText _).bind_fails <|
          unequal_of_spaced chain.links (unassigning named) remains.skipText

theorem assignment_fails_of_dotted (origin : String) :
    (assignment (.within (levels + 1))).FailsAt (.ofText origin chain.dotted) 0 := by
  have remains := Source.remains_ofText origin chain.dotted
  rw [toList_dotted_chain] at remains
  cases named : chain.first.isName with
  | false => exact FailsAt.bind (reference_fails_at_numeral named remains)
  | true =>
      obtain ⟨attached, finish, -, ended, matching⟩ :=
        @suffixes_of_dotted levels origin chain (chain.first.tree (.start origin))
      rw [← placeOf_start origin chain.dotted] at matching
      exact (reference_of_name named remains (boundary_dotted chain.links).endsWord).bind_fails <|
        matching.bind_fails (FailsAt.bind (spaces_fail ended (by rintro _ ⟨⟩)))

/-- An assignment or an expression that takes the whole text is the only statement. -/
theorem ofText_of_statement {c : Char} {tree : Tree} {finish : Nat}
    (stands : (Source.ofText origin text).chars[0]? = some c) (legal : isReferenceChar c = true)
    (matching : ((assignment (.within ((Source.ofText origin text).size + 1))).orElse
      (expression (.within ((Source.ofText origin text).size + 1)))).MatchesAt
        (.ofText origin text) 0 tree finish)
    (ended : (Source.ofText origin text).Remains finish []) :
    Tree.ofText origin text = .ok (.branch "module" (.start origin) [tree]) := by
  have visible : (Text.isBlank c || c = ';') = false := by
    rw [not_blank_of_reference legal, Bool.false_or, decide_eq_false_iff_not]
    rintro rfl
    exact absurd legal (by decide)
  have separators : (many (charWhere (fun c => Text.isBlank c || c = ';') "separator")).MatchesAt
      (.ofText origin text) 0 [] 0 :=
    (FailsAt.charWhere stands visible _).many
  have unmarked : (literal "#").FailsAt (.ofText origin text) 0 := by
    refine .literal (fun marks => ?_) rfl
    cases stands.symm.trans marks
    exact absurd legal (by decide)
  have matching : (statement (.within ((Source.ofText origin text).size + 1))).MatchesAt
      (.ofText origin text) 0 tree finish :=
    unmarked.bind.otherwise matching
  have regular := regular_within ((Source.ofText origin text).size + 1)
  have deep : (Source.ofText origin text).size < (Source.ofText origin text).size + 1 + 1 := by omega
  obtain ⟨start, whole⟩ : 0 < finish ∧ finish = (Source.ofText origin text).size := by
    obtain ⟨after, matched, rfl⟩ := matching .initial rfl
    obtain ⟨moved, inside⟩ := (regular_statement regular).bounds (Nat.zero_le _) deep matched
    exact ⟨moved, Nat.le_antisymm inside ended.ended⟩
  subst whole
  obtain ⟨after, matched, -⟩ := module_of_statement regular separators matching start .initial rfl
  rw [placeOf_start] at matched
  exact ofText_eq_ok.mpr ⟨after, matched⟩

/-- So is an expression that starts with an operand and is no assignment. -/
theorem ofText_of_expression {operand : Operand} {tree : Tree} {finish : Nat}
    (remains : (Source.ofText origin text).Remains 0 (operand.text.toList ++ rest))
    (unassigned : (assignment (.within ((Source.ofText origin text).size + 1))).FailsAt
      (.ofText origin text) 0)
    (matching : (expression (.within ((Source.ofText origin text).size + 1))).MatchesAt
      (.ofText origin text) 0 tree finish)
    (ended : (Source.ofText origin text).Remains finish []) :
    Tree.ofText origin text = .ok (.branch "module" (.start origin) [tree]) := by
  obtain ⟨c, stands, isWord⟩ := stands_at_operand remains
  exact ofText_of_statement stands (reference_of_wordChar isWord) (unassigned.otherwise matching)
    ended

theorem ofText_spaced (origin : String) (unassigning : chain.Unassigning) :
    ∃ trees, Operations origin chain.links trees ∧
      Tree.ofText origin chain.spaced = .ok (.branch "module" (.start origin)
        [operation (chain.first.tree (.start origin)) trees]) := by
  have remains := Source.remains_ofText origin chain.spaced
  rw [toList_spaced_chain] at remains
  obtain ⟨trees, finish, operations, ended, matching⟩ := expression_of_spaced origin chain
  exact ⟨trees, operations,
    ofText_of_expression remains (assignment_fails_of_spaced origin unassigning) matching ended⟩

theorem ofText_dotted (origin : String) (chain : Chain) :
    ∃ attached, Calls origin chain.links attached ∧ Tree.ofText origin chain.dotted =
      .ok (.branch "module" (.start origin)
        [attached.foldl Suffix.attach (chain.first.tree (.start origin))]) := by
  have remains := Source.remains_ofText origin chain.dotted
  rw [toList_dotted_chain] at remains
  obtain ⟨attached, finish, calls, ended, matching⟩ := expression_of_dotted origin chain
  exact ⟨attached, calls,
    ofText_of_expression remains (assignment_fails_of_dotted origin) matching ended⟩

theorem assignment_of_reference {word : List Char} (reference : IsReference word) (value : Operand)
    (remains : source.Remains position (word ++ ' ' :: '=' :: ' ' :: value.text.toList)) :
    ∃ equals place finish, source.Remains finish [] ∧
      (assignment (.within (levels + 1))).MatchesAt source position
        (.branch "assignment" equals
          [.leaf "reference" ⟨.ofList word, source.placeOf position⟩, value.tree place]) finish := by
  rw [← List.append_nil value.text.toList] at remains
  have afterName := remains.skip
  have afterEquals := afterName.tail.tail
  have boundary : Boundary (' ' :: '=' :: ' ' :: (value.text.toList ++ [])) :=
    .spaced (by decide) _
  have named := reference_of_word remains reference boundary.endsWord
  have unattached (target : Tree) :
      (suffixes (.within (levels + 1)) target).MatchesAt source _ target _ :=
    suffixes_none boundary (by rintro _ ⟨⟩; decide) afterName target
  have read : (Nested.within (levels + 1)).expression.MatchesAt source _ _ _ :=
    expression_of_operand .ended (by rintro _ ⟨⟩) (by rintro _ ⟨⟩) afterEquals.tail
  refine ⟨source.placeOf (position + word.length + 1),
    source.placeOf (position + word.length + 1 + 1 + 1), _, afterEquals.tail.skipText, ?_⟩
  exact named.bind <| (unattached _).bind <|
    (spaces_of_space afterName (by rintro _ ⟨⟩; rfl)).bind <|
      (MatchesAt.mark rfl afterName.tail).bind <|
        (spaces_of_space afterEquals (unspaced_operand value [])).bind <| read.bind (.pure _)

/-- An assignment takes every reference as its target, even one that spells a reserved word or a
literal: a statement is read as an assignment before the rules for these are tried. -/
theorem references_are_assignable {word : List Char} (origin : String) (reference : IsReference word)
    (value : Operand) : ∃ equals place,
      Tree.ofText origin (.ofList word ++ " = " ++ value.text) =
        .ok (.branch "module" (.start origin) [.branch "assignment" equals
          [.leaf "reference" ⟨.ofList word, .start origin⟩, value.tree place]]) := by
  have remains := Source.remains_ofText origin (.ofList word ++ " = " ++ value.text)
  rw [(by simp : (String.ofList word ++ " = " ++ value.text).toList =
    word ++ ' ' :: '=' :: ' ' :: value.text.toList)] at remains
  generalize String.ofList word ++ " = " ++ value.text = text at remains ⊢
  obtain ⟨equals, place, finish, ended, assigned⟩ :=
    @assignment_of_reference _ _ (Source.ofText origin text).size _ reference value remains
  rw [placeOf_start] at assigned
  obtain ⟨first, others, rfl⟩ := List.exists_cons_of_ne_nil reference.nonempty
  exact ⟨equals, place, ofText_of_statement remains.head?
    (reference.chars first List.mem_cons_self) (assigned.orElse _) ended⟩

end

end RipInterpreter.Concrete
