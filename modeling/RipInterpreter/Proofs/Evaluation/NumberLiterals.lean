import RipInterpreter.Evaluation.Session
import RipInterpreter.Proofs.Concrete.NumberTexts
import RipInterpreter.Proofs.Machine.KernelMethods
import RipInterpreter.Proofs.Number.Rounding

namespace RipInterpreter

open Syntax Concrete

namespace Number

def digitOf (c : Char) : Nat := c.toNat - '0'.toNat

/-- The integer that a text denotes in base ten: nothing but its digits and a minus sign in front of
them counts. -/
def denoted (text : List Char) : Int :=
  let magnitude : Nat := Nat.ofDigits 10 ((text.filter Char.isDigit).map digitOf).reverse
  if text.head? = some '-' then -(magnitude : Int) else magnitude

variable {text : List Char} {c : Char}

theorem digitsValue_eq (digits : List Char) :
    digitsValue digits = Nat.ofDigits 10 (digits.map digitOf).reverse := by
  rw [Nat.ofDigits_eq_foldr, List.foldr_reverse, List.foldl_map]
  exact congrArg (fun step => digits.foldl step 0) (funext₂ fun _ _ => Nat.add_comm ..)

theorem splitSign_of_digit (isDigit : c.isDigit = true) (rest : List Char) :
    splitSign (c :: rest) = (false, c :: rest) := by
  unfold splitSign
  split
  · rename_i same
    cases same
    cases isDigit
  · rename_i same
    cases same
    cases isDigit
  · rfl

/-- The characters of groups of digits are digits and low lines. -/
theorem filter_of_groups (grouped : text ∈ digitGroups) :
    text.filter (· != '_') = text.filter Char.isDigit := by
  have ofRun {run : List Char} (isRun : run ∈ digitRun) :
      ∀ c ∈ run, (c != '_') = c.isDigit := by
    intro c listed
    have isDigit := (mem_digitRun.mp isRun).2 c listed
    rw [isDigit, bne_iff_ne]
    rintro rfl
    cases isDigit
  refine List.filter_congr fun c listed => ?_
  obtain ⟨run, isRun, _, later, rfl⟩ := Language.mem_mul.mp grouped
  obtain ⟨groups, rfl, each⟩ := Language.mem_kstar.mp later
  rcases List.mem_append.mp listed with first | others
  · exact ofRun isRun c first
  · obtain ⟨group, inside, listed⟩ := List.mem_flatten.mp others
    obtain ⟨_, rfl, run, isRun, rfl⟩ := Language.mem_mul.mp (each group inside)
    rcases List.mem_append.mp listed with line | digit
    · rw [List.mem_singleton.mp line]
      rfl
    · exact ofRun isRun c digit

/-- A text without its low lines is a sign and the digits, which have the magnitude of what the text
denotes. -/
theorem splitSign_of_text (isInteger : text ∈ integerTexts) : ∃ (negative : Bool) (digits : List Char),
    splitSign (text.filter (· != '_')) = (negative, digits) ∧
    digits ≠ [] ∧ (∀ c ∈ digits, c.isDigit = true) ∧
    denoted text = if negative then -(digitsValue digits : Int) else digitsValue digits := by
  obtain ⟨sign, signed, groups, grouped, rfl⟩ := Language.mem_mul.mp isInteger
  obtain ⟨c, rest, spelled, isDigit⟩ := digitGroups_head grouped
  have digits : groups.filter Char.isDigit = c :: rest.filter Char.isDigit := by
    rw [spelled, List.filter_cons_of_pos isDigit]
  have plain : groups.filter (· != '_') = c :: rest.filter Char.isDigit :=
    (filter_of_groups grouped).trans digits
  have each : ∀ d ∈ c :: rest.filter Char.isDigit, d.isDigit = true := by
    rw [← digits]
    exact fun d listed => (List.mem_filter.mp listed).2
  rcases mem_signs.mp signed with rfl | ⟨mark, isSign, rfl⟩
  · refine ⟨false, _, ?_, List.cons_ne_nil _ _, each, ?_⟩
    · rw [List.nil_append, plain, splitSign_of_digit isDigit]
    · have unsigned : groups.head? ≠ some '-' := by
        rw [spelled, List.head?_cons]
        rintro ⟨⟩
        cases isDigit
      rw [denoted, List.nil_append, if_neg unsigned, digits, digitsValue_eq]
      rfl
  · simp only [List.mem_cons, List.not_mem_nil, or_false] at isSign
    rcases isSign with rfl | rfl
    · refine ⟨false, _, congrArg (fun text => splitSign ('+' :: text)) plain, List.cons_ne_nil _ _,
        each, ?_⟩
      rw [← digits, digitsValue_eq]
      rfl
    · refine ⟨true, _, congrArg (fun text => splitSign ('-' :: text)) plain, List.cons_ne_nil _ _,
        each, ?_⟩
      rw [← digits, digitsValue_eq]
      rfl

/-- Without its low lines, the text of an integer is read as what it denotes, if that is in range. -/
theorem readInteger_of_text (isInteger : text ∈ integerTexts) :
    readInteger (String.ofList (text.filter (· != '_'))) =
      if -2 ^ 63 ≤ denoted text ∧ denoted text < 2 ^ 63 then some (denoted text) else none := by
  obtain ⟨negative, digits, split, nonempty, each, value⟩ := splitSign_of_text isInteger
  have malformed : (digits.isEmpty || !digits.all Char.isDigit) = false := by
    rw [List.all_eq_true.mpr each, List.isEmpty_eq_false_iff.mpr nonempty]
    rfl
  simp only [readInteger, String.toList_ofList, split, malformed, Bool.false_eq_true, if_false, value,
    fitsInteger_iff]

end Number

namespace Action

variable {world : World} {text : String}

/-- Evaluating the text of an integer. -/
theorem integerLiteral_of_text (isInteger : text.toList ∈ integerTexts) (world : World) :
    if -2 ^ 63 ≤ Number.denoted text.toList ∧ Number.denoted text.toList < 2 ^ 63 then
      ∃ result after, integerLiteral text world = .value result after ∧
        after.heap.IsInstance result .integer (.integer (Number.denoted text.toList))
    else integerLiteral text world = .failure (.runtime (.integerOutOfRange text) none) world := by
  rw [integerLiteral, Number.readInteger_of_text isInteger]
  split
  · exact ⟨_, _, rfl, isInstance_of_newInstance rfl⟩
  · rfl

end Action

/-- The rule for integers takes exactly the texts of integers to their end, the rule for decimals
exactly those of decimals and the rule for numbers exactly both; what they read has the whole text.
Evaluating an integer makes the value that its text denotes in base ten, or fails if that is out of
range. -/
theorem numbers_mean_their_texts (origin text : String) :
    (∀ tree, readWhole Rule.integer.parser origin text = .ok tree ↔
      text.toList ∈ integerTexts ∧ tree = .leaf "integer" ⟨text, .start origin⟩) ∧
    (∀ tree, readWhole Rule.decimal.parser origin text = .ok tree ↔
      text.toList ∈ decimalTexts ∧ tree = .leaf "decimal" ⟨text, .start origin⟩) ∧
    (∀ tree, readWhole Rule.numeric.parser origin text = .ok tree ↔
      (text.toList ∈ integerTexts ∧ tree = .leaf "integer" ⟨text, .start origin⟩) ∨
        (text.toList ∈ decimalTexts ∧ tree = .leaf "decimal" ⟨text, .start origin⟩)) ∧
    (text.toList ∈ integerTexts → ∃ node,
      Node.ofTree (.leaf "integer" ⟨text, .start origin⟩) = .ok node ∧
      ∀ depth scope world,
        if -2 ^ 63 ≤ Number.denoted text.toList ∧ Number.denoted text.toList < 2 ^ 63 then
          ∃ result after, evaluate (depth + 1) scope node world = .value result after ∧
            after.heap.IsInstance result .integer (.integer (Number.denoted text.toList))
        else evaluate (depth + 1) scope node world =
          .failure (.runtime (.integerOutOfRange text) (some (.start origin))) world) := by
  refine ⟨fun _ => readWhole_integer_iff, fun _ => readWhole_decimal_iff,
    fun _ => readWhole_numeric_iff, fun isInteger => ?_⟩
  refine ⟨.integer text (.start origin), rfl, fun depth scope world => ?_⟩
  have evaluated : evaluate (depth + 1) scope (.integer text (.start origin)) world =
      Action.locate (.start origin) (Action.integerLiteral text) world := rfl
  have ended := Action.integerLiteral_of_text isInteger world
  rw [evaluated]
  split
  · rw [if_pos ‹_›] at ended
    obtain ⟨result, after, ended, made⟩ := ended
    exact ⟨result, after, Action.locate_of_value ended _, made⟩
  · rw [if_neg ‹_›] at ended
    rw [Action.locate, ended]
    rfl

/-- Of two integers in groups, one is the smallest in range and the other one too large. -/
theorem numbers_at_the_ends :
    let smallest : Node := .integer "-9_223372036854_775808" (.start "text")
    let large : Node := .integer "+9_223372036854_775808" (.start "text")
    (∀ depth scope world, ∃ result after,
      evaluate (depth + 1) scope smallest world = .value result after ∧
        after.heap.IsInstance result .integer (.integer (-2 ^ 63))) ∧
    (∀ depth scope world, evaluate (depth + 1) scope large world = .failure (.runtime
      (.integerOutOfRange "+9_223372036854_775808") (some (.start "text"))) world) := by
  have run {word : List Char} (nonempty : word ≠ []) (digits : word.all Char.isDigit = true) :
      word ∈ digitRun := mem_digitRun.mpr ⟨nonempty, List.all_eq_true.mp digits⟩
  have group {word : List Char} (isRun : word ∈ digitRun) :
      '_' :: word ∈ ({['_']} : Language Char) * digitRun :=
    Language.mem_mul.mpr ⟨['_'], rfl, word, isRun, rfl⟩
  have grouped : ['9'] ++ ["_223372036854".toList, "_775808".toList].flatten ∈ digitGroups := by
    refine Language.append_mem_mul (run (by decide) (by decide)) (Language.mem_kstar.mpr
      ⟨_, rfl, List.forall_mem_cons.mpr ⟨?_, List.forall_mem_singleton.mpr ?_⟩⟩)
    · exact group (run (by decide) (by decide))
    · exact group (run (by decide) (by decide))
  have isInteger : "-9_223372036854_775808".toList ∈ integerTexts := by
    have spelled : "-9_223372036854_775808".toList =
        ['-'] ++ (['9'] ++ ["_223372036854".toList, "_775808".toList].flatten) := by decide +kernel
    rw [spelled]
    exact Language.append_mem_mul (mem_signs.mpr (.inr ⟨'-', by decide, rfl⟩)) grouped
  have isLarge : "+9_223372036854_775808".toList ∈ integerTexts := by
    have spelled : "+9_223372036854_775808".toList =
        ['+'] ++ (['9'] ++ ["_223372036854".toList, "_775808".toList].flatten) := by decide +kernel
    rw [spelled]
    exact Language.append_mem_mul (mem_signs.mpr (.inr ⟨'+', by decide, rfl⟩)) grouped
  have value : Number.denoted "-9_223372036854_775808".toList = -2 ^ 63 := by decide +kernel
  have fits : -2 ^ 63 ≤ Number.denoted "-9_223372036854_775808".toList ∧
      Number.denoted "-9_223372036854_775808".toList < 2 ^ 63 := by
    decide +kernel
  have beyond : ¬(-2 ^ 63 ≤ Number.denoted "+9_223372036854_775808".toList ∧
      Number.denoted "+9_223372036854_775808".toList < 2 ^ 63) := by
    decide +kernel
  obtain ⟨node, made, evaluated⟩ := (numbers_mean_their_texts "text" _).2.2.2 isInteger
  obtain ⟨other, read, failed⟩ := (numbers_mean_their_texts "text" _).2.2.2 isLarge
  cases made
  cases read
  constructor
  · intro depth scope world
    have ended := evaluated depth scope world
    rwa [if_pos fits, value] at ended
  · intro depth scope world
    have ended := failed depth scope world
    rwa [if_neg beyond] at ended

end RipInterpreter
