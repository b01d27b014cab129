import RipInterpreter.Proofs.Parsing.Answers

namespace RipInterpreter.Parsing.Parser

variable {α β : Type} {parser first second : Parser α} {next : α → Parser β} {given : α → Prop}
  {expected : β → Prop}

/-- The values of the parser are as expected. -/
def Yields (expected : α → Prop) (parser : Parser α) : Prop :=
  ∀ source cursor value after, parser source cursor = .matched value after → expected value

namespace Yields

theorem any (parser : Parser α) : parser.Yields fun _ => True := fun _ _ _ _ _ => trivial

theorem mono {weaker : α → Prop} (yields : parser.Yields given)
    (weaken : ∀ value, given value → weaker value) : parser.Yields weaker :=
  fun source cursor value after matched => weaken value (yields source cursor value after matched)

theorem pure {value : β} (met : expected value) : (pure value : Parser β).Yields expected := by
  rintro source cursor _ after ⟨⟩
  exact met

/-- The second parser may rely on what the first one yields. -/
theorem bind (yields : first.Yields given)
    (later : ∀ value, given value → (next value).Yields expected) :
    (first >>= next).Yields expected := by
  intro source cursor result after matched
  obtain ⟨value, between, before, matched⟩ := matched_bind matched
  exact later value (yields source cursor value between before) source between result after matched

/-- Whatever the first parser yields does not matter. -/
theorem after (yields : ∀ value, (next value).Yields expected) : (first >>= next).Yields expected :=
  (any first).bind fun value _ => yields value

theorem map {change : α → β} (yields : first.Yields fun value => expected (change value)) :
    (change <$> first).Yields expected := yields.bind fun _ met => pure met

theorem refuse (failure : Failure) : (refuse failure : Parser β).Yields expected := by
  rintro source cursor value after ⟨⟩

theorem failFurthest (message : String) : (failFurthest message : Parser β).Yields expected := by
  rintro source cursor value after ⟨⟩

theorem orElse {first second : Parser β} (yields : first.Yields expected)
    (otherwise : second.Yields expected) : (first.orElse second).Yields expected := by
  intro source cursor value after matched
  unfold Parser.orElse at matched
  split at matched
  · exact otherwise source _ value after matched
  · exact yields source cursor value after matched

theorem label (yields : parser.Yields given) (name : String) :
    (label name parser).Yields given := by
  intro source cursor value after matched
  unfold Parser.label at matched
  split at matched
  · cases matched
  · exact yields source cursor value after matched

theorem optional (yields : parser.Yields given) :
    (optional parser).Yields fun found => ∀ value ∈ found, given value := by
  intro source cursor found after matched
  unfold Parser.optional at matched
  split at matched
  · rename_i value last first
    cases matched
    rintro _ ⟨⟩
    exact yields source cursor value after first
  · cases matched
    rintro _ ⟨⟩
  · cases matched

theorem rounds {cursor after : Cursor} {source : Source} {values : List α}
    (yields : parser.Yields given) (rounds : Rounds parser source cursor values after) :
    ∀ value ∈ values, given value := by
  induction rounds with
  | done => exact List.forall_mem_nil _
  | stay => exact List.forall_mem_nil _
  | next matched rest ih =>
      exact List.forall_mem_cons.mpr ⟨yields source _ _ _ matched, ih⟩

theorem many (yields : parser.Yields given) :
    (many parser).Yields fun values => ∀ value ∈ values, given value :=
  fun _ _ _ _ matched => yields.rounds (rounds_of_many matched)

theorem manyOne (yields : parser.Yields given) :
    (manyOne parser).Yields fun values => ∀ value ∈ values, given value :=
  yields.bind fun _ met => yields.many.bind fun _ rest => pure (List.forall_mem_cons.mpr ⟨met, rest⟩)

theorem keepLeft (yields : parser.Yields given) (other : Parser β) :
    (keepLeft parser other).Yields given :=
  yields.bind fun _ met => after fun _ => pure met

theorem keepRight (other : Parser α) {parser : Parser β} (yields : parser.Yields expected) :
    (keepRight other parser).Yields expected := after fun _ => yields

theorem separated {separator : Parser β} (yields : parser.Yields given) :
    (separated parser separator).Yields fun values => ∀ value ∈ values, given value := by
  refine yields.optional.bind fun found met => ?_
  cases found with
  | none => exact pure (List.forall_mem_nil _)
  | some first =>
      have between : (Parser.keepRight separator parser).Yields given := keepRight separator yields
      exact between.many.bind fun rest others =>
        pure (List.forall_mem_cons.mpr ⟨met first rfl, others⟩)

theorem manyUntil (yields : parser.Yields given) (stops : Source → Nat → Bool) :
    (manyUntil stops parser).Yields fun values => ∀ value ∈ values, given value :=
  fun _ _ _ _ matched => yields.rounds (rounds_of_manyUntil matched)

end Yields

end RipInterpreter.Parsing.Parser
