import RipInterpreter.Proofs.Parsing.Answers
import RipInterpreter.Proofs.Parsing.Places

namespace RipInterpreter.Parsing.Parser

variable {α β : Type} {source : Source} {start least : Nat} {parser first second : Parser α}
  {other : Parser β} {next : α → Parser β} {given : Nat → α → Prop} {expected : Nat → β → Prop}
  {relation : Nat → Nat → α → Prop}

/-- What the parser reads from the start on ends inside the text, and its end and the value are as
expected. -/
def YieldsFrom (source : Source) (start : Nat) (expected : Nat → α → Prop) (parser : Parser α) :
    Prop :=
  ∀ cursor value after, cursor.position = start → start ≤ source.size →
    parser source cursor = .matched value after →
    start ≤ after.position ∧ after.position ≤ source.size ∧ expected after.position value

/-- Values that belong to stretches one behind the other. -/
inductive Consecutive (relation : Nat → Nat → α → Prop) : (low high : Nat) → List α → Prop
  | nil (position : Nat) : Consecutive relation position position []
  | cons {low middle high : Nat} {value : α} {values : List α} (first : relation low middle value)
    (rest : Consecutive relation middle high values) :
    Consecutive relation low high (value :: values)

theorem matched_capture {cursor after : Cursor} {span : Span}
    (matched : capture parser source cursor = .matched span after) :
    span = ⟨source.slice cursor.position after.position, source.placeOf cursor.position⟩ := by
  unfold capture at matched
  split at matched
  · cases matched
    rfl
  · cases matched
  · cases matched

namespace YieldsFrom

theorem mono {weaker : Nat → α → Prop} (yields : parser.YieldsFrom source start given)
    (weaken : ∀ {finish value}, start ≤ finish → given finish value → weaker finish value) :
    parser.YieldsFrom source start weaker := by
  intro cursor value after same inside matched
  obtain ⟨ordered, within, met⟩ := yields cursor value after same inside matched
  exact ⟨ordered, within, weaken ordered met⟩

theorem inside (yields : parser.YieldsFrom source start given) :
    parser.YieldsFrom source start fun finish value =>
      finish ≤ source.size ∧ given finish value := by
  intro cursor value after same inside matched
  obtain ⟨ordered, within, met⟩ := yields cursor value after same inside matched
  exact ⟨ordered, within, within, met⟩

theorem of_regular (regular : parser.Regular (source.size + 1) least) :
    parser.YieldsFrom source start fun _ _ => True := by
  rintro cursor value after rfl inside matched
  obtain ⟨taken, within⟩ := regular.bounds inside (by omega) matched
  exact ⟨Nat.le_of_add_right_le taken, within, trivial⟩

theorem pure {value : β} (met : expected start value) :
    (pure value : Parser β).YieldsFrom source start expected := by
  rintro cursor _ after rfl inside ⟨⟩
  exact ⟨Nat.le_refl _, inside, met⟩

/-- The second parser starts where the first one has ended. -/
theorem bind (yields : first.YieldsFrom source start given)
    (later : ∀ {middle value}, start ≤ middle → given middle value →
      (next value).YieldsFrom source middle expected) :
    (first >>= next).YieldsFrom source start expected := by
  intro cursor result after same inside matched
  obtain ⟨value, between, before, matched⟩ := matched_bind matched
  obtain ⟨ordered, within, met⟩ := yields cursor value between same inside before
  obtain ⟨further, ended, held⟩ :=
    later ordered met between result after rfl within matched
  exact ⟨Nat.le_trans ordered further, ended, held⟩

/-- The value of the first parser does not matter. -/
theorem after (regular : first.Regular (source.size + 1) least)
    (later : ∀ {middle value}, start ≤ middle → (next value).YieldsFrom source middle expected) :
    (first >>= next).YieldsFrom source start expected :=
  (of_regular regular).bind fun ordered _ => later ordered

theorem map {change : α → β}
    (yields : first.YieldsFrom source start fun finish value => expected finish (change value)) :
    (change <$> first).YieldsFrom source start expected :=
  yields.bind fun _ met => pure met

theorem refuse (failure : Failure) :
    (refuse failure : Parser β).YieldsFrom source start expected := by
  rintro cursor value after _ _ ⟨⟩

theorem failFurthest (message : String) :
    (failFurthest message : Parser β).YieldsFrom source start expected := by
  rintro cursor value after _ _ ⟨⟩

theorem orElse (yields : first.YieldsFrom source start given)
    (otherwise : second.YieldsFrom source start given) :
    (first.orElse second).YieldsFrom source start given := by
  intro cursor value after same inside matched
  unfold Parser.orElse at matched
  split at matched
  · rename_i failure last failed
    exact otherwise (last.moveTo cursor.position) value after same inside matched
  · exact yields cursor value after same inside matched

theorem label (yields : parser.YieldsFrom source start given) (name : String) :
    (label name parser).YieldsFrom source start given := by
  intro cursor value after same inside matched
  unfold Parser.label at matched
  split at matched
  · cases matched
  · exact yields cursor value after same inside matched

theorem optional (yields : parser.YieldsFrom source start given) :
    (optional parser).YieldsFrom source start fun finish found =>
      ∀ value ∈ found, given finish value := by
  intro cursor found after same inside matched
  unfold Parser.optional at matched
  split at matched
  · rename_i value last first
    cases matched
    obtain ⟨ordered, within, met⟩ := yields cursor value after same inside first
    refine ⟨ordered, within, ?_⟩
    rintro _ ⟨⟩
    exact met
  · cases matched
    subst same
    refine ⟨Nat.le_refl _, inside, ?_⟩
    rintro _ ⟨⟩
  · cases matched

theorem keepLeft (yields : parser.YieldsFrom source start given)
    (regular : other.Regular (source.size + 1) least)
    (higher : ∀ {middle finish value}, middle ≤ finish → given middle value → given finish value) :
    (keepLeft parser other).YieldsFrom source start given :=
  yields.bind fun _ met => after regular fun ordered => pure (higher ordered met)

theorem keepRight (regular : first.Regular (source.size + 1) least)
    (yields : ∀ {middle}, start ≤ middle → other.YieldsFrom source middle expected) :
    (keepRight first other).YieldsFrom source start expected :=
  after regular fun ordered => yields ordered

theorem rounds {cursor after : Cursor} {values : List α}
    (yields : ∀ {start}, parser.YieldsFrom source start (relation start))
    (inside : cursor.position ≤ source.size) (rounds : Rounds parser source cursor values after) :
    cursor.position ≤ after.position ∧ after.position ≤ source.size ∧
      Consecutive relation cursor.position after.position values := by
  induction rounds with
  | done same =>
      rw [same]
      exact ⟨Nat.le_refl _, inside, .nil _⟩
  | stay matched unmoved =>
      obtain ⟨ordered, -, -⟩ := yields _ _ _ rfl inside matched
      rw [Nat.le_antisymm unmoved ordered]
      exact ⟨Nat.le_refl _, inside, .nil _⟩
  | next matched rest ih =>
      obtain ⟨ordered, within, met⟩ := yields _ _ _ rfl inside matched
      obtain ⟨further, ended, others⟩ := ih within
      exact ⟨Nat.le_trans ordered further, ended, .cons met others⟩

theorem many (yields : ∀ {start}, parser.YieldsFrom source start (relation start)) :
    (many parser).YieldsFrom source start (Consecutive relation start) := by
  rintro cursor values after rfl inside matched
  exact rounds yields inside (rounds_of_many matched)

theorem manyOne (yields : ∀ {start}, parser.YieldsFrom source start (relation start)) :
    (manyOne parser).YieldsFrom source start (Consecutive relation start) :=
  yields.bind fun _ met => (many yields).bind fun _ rest => pure (.cons met rest)

/-- The separators belong to the items behind them. -/
theorem separated (regular : other.Regular (source.size + 1) least)
    (yields : ∀ {start}, parser.YieldsFrom source start (relation start))
    (lower : ∀ {less low high value}, less ≤ low → relation low high value →
      relation less high value) :
    (separated parser other).YieldsFrom source start fun finish values =>
      values = [] ∨ Consecutive relation start finish values := by
  have next {start : Nat} : (Parser.keepRight other parser).YieldsFrom source start
      (relation start) :=
    keepRight regular fun ordered => yields.mono fun _ met => lower ordered met
  refine yields.optional.bind fun {_ found} _ met => ?_
  cases found with
  | none => exact pure (.inl rfl)
  | some value =>
      exact (many next).bind fun _ rest => pure (.inr (.cons (met value rfl) rest))

/-- The condition that ends a repetition holds at its end. -/
theorem manyUntil {stops : Source → Nat → Bool}
    (yields : ∀ {start}, parser.YieldsFrom source start (relation start)) :
    (manyUntil stops parser).YieldsFrom source start fun finish values =>
      Consecutive relation start finish values ∧ stops source finish = true := by
  rintro cursor values after rfl inside matched
  obtain ⟨ordered, within, read⟩ := rounds yields inside (rounds_of_manyUntil matched)
  exact ⟨ordered, within, read, stops_repeatUntil matched⟩

theorem literal (expected : String) :
    (literal expected).YieldsFrom source start (source.Holds start) := by
  rintro cursor span after rfl inside matched
  unfold Parser.literal at matched
  split at matched
  · rename_i continues
    cases matched
    have bound := continuesWith_bound continues inside
    have piece := Source.slice_of_continuesWith continues
    rw [String.length_toList] at bound piece
    rw [String.ofList_toList] at piece
    have ordered : cursor.position ≤ cursor.position + expected.length := Nat.le_add_right _ _
    exact ⟨ordered, bound, ordered, bound, rfl, piece.symm⟩
  · cases matched

theorem charWhere (accepts : Char → Bool) (expected : String) :
    (charWhere accepts expected).YieldsFrom source start (source.Holds start) := by
  rintro cursor span after rfl inside matched
  obtain ⟨one, c, stands, -⟩ := matched_charWhere matched
  have within : cursor.position + 1 ≤ source.size := (Array.getElem?_eq_some_iff.mp stands).1
  have piece : span = ⟨.singleton c, source.placeOf cursor.position⟩ := by
    unfold Parser.charWhere Cursor.peek at matched
    rw [stands] at matched
    simp only at matched
    split at matched
    · cases matched
      rfl
    · cases matched
  subst piece
  rw [one]
  exact ⟨Nat.le_succ _, within, Nat.le_succ _, within, rfl, (Source.slice_one stands).symm⟩

theorem here : here.YieldsFrom source start fun _ place => source.HasPlace place := by
  rintro cursor place after rfl inside ⟨⟩
  exact ⟨Nat.le_refl _, inside, _, inside, rfl⟩

end YieldsFrom

end RipInterpreter.Parsing.Parser
