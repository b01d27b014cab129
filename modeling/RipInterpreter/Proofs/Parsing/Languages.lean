import Mathlib
import RipInterpreter.Proofs.Parsing.Remaining

namespace RipInterpreter.Parsing.Parser

open scoped Computability

variable {α β : Type} {source : Source} {cursor after : Cursor} {parser first second : Parser α}
  {next : α → Parser β} {language other : Language Char}

/-- The texts of one character of a class. -/
def oneOf (accepts : Char → Bool) : Language Char := {text | ∃ c, accepts c = true ∧ text = [c]}

/-- A text of the language stands between the two positions. -/
def Stands (language : Language Char) (source : Source) (start finish : Nat) : Prop :=
  ∃ text ∈ language, ∃ rest, source.Remains start (text ++ rest) ∧ finish = start + text.length

/-- Whatever the parser matches is a text of the language. -/
def Takes (parser : Parser α) (language : Language Char) : Prop :=
  ∀ source cursor value after, parser source cursor = .matched value after →
    Stands language source cursor.position after.position

namespace Stands

variable {start middle finish : Nat}

theorem nothing (start : Nat) : Stands 1 source start start :=
  ⟨[], rfl, _, source.remains_drop start, rfl⟩

theorem append (head : Stands language source start middle)
    (tail : Stands other source middle finish) : Stands (language * other) source start finish := by
  obtain ⟨text, taken, rest, remains, rfl⟩ := head
  obtain ⟨more, continued, last, behind, rfl⟩ := tail
  obtain rfl : rest = more ++ last := remains.skip.symm.trans behind
  refine ⟨text ++ more, Language.append_mem_mul taken continued, last, ?_, ?_⟩
  · rwa [List.append_assoc]
  · rw [List.length_append, Nat.add_assoc]

theorem mono (stands : Stands language source start finish) (wider : language ≤ other) :
    Stands other source start finish := by
  obtain ⟨text, taken, stands⟩ := stands
  exact ⟨text, wider taken, stands⟩

end Stands

namespace Takes

theorem mono (takes : parser.Takes language) (wider : language ≤ other) : parser.Takes other :=
  fun source cursor value after matched => (takes source cursor value after matched).mono wider

theorem pure (value : α) : (pure value : Parser α).Takes 1 := by
  rintro source cursor _ _ ⟨⟩
  exact .nothing cursor.position

theorem bind (takes : first.Takes language) (later : ∀ value, (next value).Takes other) :
    (first >>= next).Takes (language * other) := by
  intro source cursor result after matched
  obtain ⟨value, between, head, tail⟩ := matched_bind matched
  exact (takes _ _ _ _ head).append (later _ _ _ _ _ tail)

theorem map (takes : parser.Takes language) (change : α → β) :
    (change <$> parser).Takes language :=
  (takes.bind fun _ => .pure _).mono (mul_one language).le

theorem orElse (takes : first.Takes language) (otherwise : second.Takes other) :
    (first.orElse second).Takes (language + other) := by
  intro source cursor value after matched
  unfold Parser.orElse at matched
  split at matched
  · exact (otherwise _ _ _ _ matched).mono le_sup_right
  · exact (takes _ _ _ _ matched).mono le_sup_left

theorem optional (takes : parser.Takes language) : (optional parser).Takes (1 + language) := by
  intro source cursor value after matched
  unfold Parser.optional at matched
  split at matched
  · cases matched
    exact (takes _ _ _ _ ‹_›).mono le_sup_right
  · cases matched
    exact (Stands.nothing _).mono le_sup_left
  · cases matched

theorem many (takes : parser.Takes language) : (many parser).Takes language∗ := by
  intro source cursor values after matched
  have rounds := rounds_of_many matched
  clear matched
  induction rounds with
  | done same => exact same ▸ (Stands.nothing _).mono one_le_kstar
  | stay matched unmoved => exact (takes _ _ _ _ matched).mono le_kstar
  | next matched rest ih =>
      exact ((takes _ _ _ _ matched).append ih).mono mul_kstar_le_kstar

theorem manyOne (takes : parser.Takes language) : (manyOne parser).Takes (language * language∗) :=
  takes.bind fun _ => takes.many.map _

theorem literal (expected : String) : (literal expected).Takes {expected.toList} := by
  intro source cursor span after matched
  unfold Parser.literal at matched
  split at matched
  · rename_i continues
    cases matched
    obtain ⟨rest, spelled⟩ := ((source.remains_drop cursor.position).continuesWith _).mp continues
    exact ⟨_, rfl, rest, spelled.symm, congrArg _ String.length_toList.symm⟩
  · cases matched

theorem charWhere (accepts : Char → Bool) (expected : String) :
    (charWhere accepts expected).Takes (oneOf accepts) := by
  intro source cursor span after matched
  obtain ⟨one, c, stands, accepted⟩ := matched_charWhere matched
  obtain ⟨rest, spelled⟩ := (source.remains_drop cursor.position).uncons stands
  exact ⟨[c], ⟨c, accepted, rfl⟩, rest, spelled, one⟩

end Takes

end RipInterpreter.Parsing.Parser
