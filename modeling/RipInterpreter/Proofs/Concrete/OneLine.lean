import RipInterpreter.Proofs.Concrete.Listings
import RipInterpreter.Proofs.Concrete.NumberTexts
import RipInterpreter.Proofs.Concrete.Positions
import RipInterpreter.Proofs.Text.OneLine

namespace RipInterpreter.Concrete

open Parsing Parser
open Text (OneLine)
open scoped Computability

namespace Tree

/-- Every leaf holds a text on one line, but for the characters and escapes of texts. -/
inductive Inline : Tree → Prop
  | leaf {label : String} {span : Span} (holds : OneLine span.text) : Inline (leaf label span)
  | branch {label : String} {place : Location} {children : List Tree}
    (inside : ∀ child ∈ children, child.Inline) : Inline (branch label place children)
  | text {label : String} {place : Location} {children : List Tree} (kind : label ∈ textLabels)
    (inside : ∀ child ∈ children, child.label = "interpolation" → child.Inline) :
    Inline (branch label place children)

variable {tree child first second : Tree} {trees : List Tree} {label : String} {place : Location}

theorem Inline.content (inline : tree.Inline) : OneLine tree.content := by
  cases inline with
  | leaf holds => exact holds
  | branch | text => exact List.not_mem_nil

theorem Inline.inside (inline : tree.Inline) (listed : child ∈ tree.children)
    (known : tree.label ∈ textLabels → child.label = "interpolation") : child.Inline := by
  cases inline with
  | leaf => cases listed
  | branch inside => exact inside child listed
  | text kind inside => exact inside child listed (known kind)

def AllInline (trees : List Tree) : Prop := ∀ tree ∈ trees, tree.Inline

theorem Inline.one (inline : first.Inline) : (Tree.branch label place [first]).Inline :=
  .branch (by simpa using inline)

theorem Inline.two (inline : first.Inline) (other : second.Inline) :
    (Tree.branch label place [first, second]).Inline :=
  .branch (by simp [inline, other])

/-- Further parts, if they have been found. -/
theorem inline_optional {found : Option Tree} (inside : AllInline trees)
    (met : ∀ tree ∈ found, tree.Inline) : AllInline (trees ++ found.toList) := by
  intro tree listed
  rcases List.mem_append.mp listed with listed | listed
  · exact inside tree listed
  · exact met tree (Option.mem_toList.mp listed)

end Tree

open RipInterpreter.Concrete.Tree

variable {nested : Nested} {item : Parser Tree} {word mark label : String}

def oneLineTexts : Language Char := (oneOf fun c => c != '\n')∗

theorem ne_feed {accepts : Char → Bool} (refuses : accepts '\n' = false) {c : Char}
    (accepted : accepts c = true) : c ≠ '\n' := by
  rintro rfl
  rw [refuses] at accepted
  cases accepted

theorem oneOf_le {accepts : Char → Bool} (refuses : accepts '\n' = false) :
    oneOf accepts ≤ oneLineTexts := by
  apply le_trans _ le_kstar
  rintro _ ⟨c, accepted, rfl⟩
  exact ⟨c, bne_iff_ne.mpr (ne_feed refuses accepted), rfl⟩

theorem singleton_le {text : List Char} (holds : '\n' ∉ text) :
    ({text} : Language Char) ≤ oneLineTexts := by
  rintro _ rfl
  apply mem_oneOf_kstar.mpr
  intro c listed
  simpa using ne_of_mem_of_not_mem listed holds

theorem one_le_oneLineTexts : 1 ≤ oneLineTexts := one_le_kstar

theorem oneLineTexts_mul : oneLineTexts * oneLineTexts = oneLineTexts := kstar_mul_kstar _

theorem oneLineTexts_kstar : oneLineTexts∗ = oneLineTexts := kstar_idem _

theorem oneLine_capture {α : Type} {body : Parser α} (takes : body.Takes oneLineTexts) :
    (capture body).Yields fun span => OneLine span.text := by
  intro source cursor span after matched
  unfold capture at matched
  split at matched <;> cases matched
  obtain ⟨word, inside, rest, remains, reached⟩ := takes _ _ _ _ ‹_›
  rw [OneLine, reached, remains.slice, String.toList_ofList]
  intro listed
  exact absurd (mem_oneOf_kstar.mp inside _ listed) (by decide)

theorem oneLine_literal {expected : String} (holds : OneLine expected) :
    (literal expected).Yields fun span => OneLine span.text := by
  intro source cursor span after matched
  unfold literal at matched
  split at matched
  · cases matched
    exact holds
  · cases matched

theorem oneLine_charWhere {accepts : Char → Bool} (refuses : accepts '\n' = false)
    (expected : String) : (charWhere accepts expected).Yields fun span => OneLine span.text := by
  intro source cursor span after matched
  unfold charWhere at matched
  split at matched
  · split at matched
    · rename_i c _ accepted
      cases matched
      simpa [OneLine] using (ne_feed refuses accepted).symm
    · cases matched
  · cases matched

theorem oneLine_simpleReference : simpleReference.Yields fun span => OneLine span.text := by
  have first : (charWhere (fun c => isReferenceChar c && !c.isDigit) "reference").Yields
      fun span => OneLine span.text := oneLine_charWhere (by decide) _
  have more : (charWhere isReferenceChar "reference").Yields fun span => OneLine span.text :=
    oneLine_charWhere (by decide) _
  refine first.bind fun head led => more.many.bind fun rest each => .pure ?_
  simp only [OneLine, String.toList_join, List.mem_flatMap, List.mem_cons, List.mem_map,
    not_exists, not_and] at led each ⊢
  rintro text (rfl | ⟨span, listed, rfl⟩)
  · exact led
  · exact each span listed

theorem oneLine_keyword (holds : OneLine word) :
    (keyword word).Yields fun span => OneLine span.text :=
  (oneLine_literal holds).keepLeft _

theorem inline_leaf {spans : Parser Span} (holds : spans.Yields fun span => OneLine span.text) :
    (Tree.leaf label <$> spans).Yields Inline := .map (holds.mono fun _ held => .leaf held)

theorem inline_reference : reference.Yields Inline := inline_leaf oneLine_simpleReference

theorem digits_oneLine : digits.Takes oneLineTexts := by
  apply takes_digits.mono
  have run : digitRun ≤ oneLineTexts := calc digitRun
    _ ≤ oneLineTexts * oneLineTexts∗ := mul_le_mul' (oneOf_le rfl) (kstar_mono (oneOf_le rfl))
    _ = oneLineTexts := by rw [oneLineTexts_kstar, oneLineTexts_mul]
  calc digitGroups
    _ ≤ oneLineTexts * (oneLineTexts * oneLineTexts)∗ := by
      have line : ({['_']} : Language Char) ≤ oneLineTexts := singleton_le (by decide)
      exact mul_le_mul' run (kstar_mono (mul_le_mul' line run))
    _ = oneLineTexts := by rw [oneLineTexts_mul, oneLineTexts_kstar, oneLineTexts_mul]

theorem sign_oneLine : sign.Takes oneLineTexts := by
  apply takes_sign.mono
  exact sup_le (sup_le one_le_oneLineTexts (singleton_le (by decide))) (singleton_le (by decide))

theorem inline_decimal : decimal.Yields Inline := by
  apply inline_leaf
  apply oneLine_capture
  have whole : (optional digits).Takes oneLineTexts :=
    digits_oneLine.optional.mono (sup_le one_le_oneLineTexts le_rfl)
  have point : (literal ".").Takes oneLineTexts :=
    (Takes.literal ".").mono (singleton_le (by decide))
  have fraction := (point.bind fun _ => digits_oneLine).mono oneLineTexts_mul.le
  have number := (whole.bind fun _ => fraction).mono oneLineTexts_mul.le
  exact (sign_oneLine.bind fun _ => number).mono oneLineTexts_mul.le

theorem inline_integer : integer.Yields Inline := by
  apply inline_leaf
  apply oneLine_capture
  exact (sign_oneLine.bind fun _ => digits_oneLine).mono oneLineTexts_mul.le

theorem inline_numeric : numeric.Yields Inline := inline_decimal.orElse inline_integer

theorem inline_character : character.Yields Inline :=
  inline_leaf (.keepRight _ (oneLine_charWhere (by decide) _))

theorem lineEnd_of_feed {source : Source} {position : Nat}
    (stands : source.chars[position]? = some '\n') :
    ∃ span finish, lineEnd.MatchesAt source position span finish := by
  obtain ⟨rest, spelled⟩ := (source.remains_drop position).uncons stands
  have remains : source.Remains position ('\n' :: rest) := spelled
  have single : (literal "\r\n").FailsAt source position :=
    .literal_of_head remains rfl (by rintro _ ⟨⟩; decide)
  exact ⟨_, _, single.otherwise (MatchesAt.mark rfl remains)⟩

/-- A comment ends where the line does. -/
theorem inline_comment : comment.Yields Inline := by
  refine .after fun _ => .after fun _ => inline_leaf (oneLine_capture ?_)
  suffices piece : (keepRight (notFollowedBy lineEnd "end of line")
      (charWhere (fun _ => true) "comment text")).Takes (oneOf fun c => c != '\n') from piece.many
  intro source cursor span after matched
  obtain ⟨⟨⟩, between, unended, read⟩ := matched_bind matched
  obtain ⟨one, c, stands, -⟩ := matched_charWhere read
  have still : between.position = cursor.position := by
    unfold notFollowedBy at unended
    split at unended <;> cases unended
    rfl
  rw [still] at one stands
  obtain ⟨rest, spelled⟩ := (source.remains_drop cursor.position).uncons stands
  have other : c ≠ '\n' := by
    rintro rfl
    obtain ⟨feed, finish, ending⟩ := lineEnd_of_feed stands
    exact (FailsAt.notFollowedBy ending _).not_matched unended
  exact ⟨[c], ⟨c, by simpa using other, rfl⟩, rest, spelled, one⟩

/-- What may be nested keeps to its lines, too. -/
structure Nested.Inline (nested : Nested) : Prop where
  lines : nested.lines.Yields AllInline
  expression : nested.expression.Yields Tree.Inline
  operand : nested.operand.Yields Tree.Inline
  classDefinition : nested.classDefinition.Yields Tree.Inline
  conditional : ∀ word, (nested.conditional word).Yields Tree.Inline

/-- A piece of a text may break lines, unless it is an interpolation. -/
def Tree.InlineInside (piece : Tree) : Prop := piece.label = "interpolation" → piece.Inline

theorem inside_leaf {spans : Parser Span} (other : label ≠ "interpolation") :
    (Tree.leaf label <$> spans).Yields InlineInside :=
  .map ((Yields.any _).mono fun _ _ same => absurd same other)

theorem inside_rawCharacter : rawCharacter.Yields InlineInside := inside_leaf (by decide)

theorem inside_escape : escape.Yields InlineInside := inside_leaf (by decide)

theorem inline_symbolString : symbolString.Yields Inline :=
  .after fun _ => .after fun _ => (inside_leaf (by decide)).manyOne.bind fun _ pieces =>
    .pure (.text (by decide) pieces)

theorem inline_singleQuoted : singleQuoted.Yields Inline :=
  .after fun _ => .after fun _ => (Yields.keepRight _ inside_rawCharacter).many.bind
    fun _ pieces => .after fun _ => .pure (.text (by decide) pieces)

section

variable (inline : nested.Inline)
include inline

theorem inline_interpolation : (interpolation nested).Yields Inline := by
  refine .after fun _ => inline.lines.bind fun statements inside => ?_
  refine ((oneLine_literal (by decide)).label _).bind fun closing holds => .pure (.branch ?_)
  intro child listed
  rcases List.mem_append.mp listed with listed | listed
  · exact inside child listed
  · exact List.mem_singleton.mp listed ▸ .leaf holds

theorem inside_interpolation : (interpolation nested).Yields InlineInside :=
  (inline_interpolation inline).mono fun _ inside _ => inside

theorem inline_marked (kind : label ∈ textLabels) : (marked nested label mark).Yields Inline := by
  have piece : (firstOf (interpolation nested) [escape,
      keepRight (notFollowedBy (literal mark) mark) rawCharacter]).Yields InlineInside :=
    (inside_interpolation inline).orElse
      (inside_escape.orElse (.keepRight _ inside_rawCharacter))
  exact .after fun _ => .after fun _ => piece.many.bind fun _ pieces => .after fun _ =>
    .pure (.text kind pieces)

theorem inline_hereDocument : (hereDocument nested).Yields Inline := by
  have piece : ((interpolation nested).orElse
      (Parser.label "here-doc terminator" rawCharacter)).Yields InlineInside :=
    (inside_interpolation inline).orElse (inside_rawCharacter.label _)
  exact .after fun _ => .after fun _ => .after fun _ => .after fun _ =>
    (piece.manyUntil _).bind fun _ pieces => .after fun _ => .pure (.text (by decide) pieces)

theorem inline_string : (string nested).Yields Inline :=
  inline_symbolString.orElse <| inline_singleQuoted.orElse <|
    (inline_marked inline (by decide)).orElse (inline_hereDocument inline)

theorem inline_simpleValue : (simpleValue nested).Yields Inline :=
  inline_numeric.orElse <| inline_character.orElse <|
    (inline_string inline).orElse (inline_marked inline (by decide))

theorem inline_block : (block nested).Yields Inline :=
  .after fun _ => inline.lines.bind fun _ inside => .after fun _ => .pure (.branch inside)

end

theorem inline_listOf (yields : item.Yields Inline) : (listOf item).Yields AllInline :=
  yields.separated

theorem inline_parenthesizedList (yields : item.Yields Inline) :
    (parenthesizedList item).Yields fun found => AllInline found.2 :=
  .after fun _ => .after fun _ => (inline_listOf yields).bind fun _ inside =>
    .after fun _ => .after fun _ => .pure inside

theorem inline_rangeRest {start : Tree} (first : start.Inline) :
    (rangeRest start).Yields fun found => ∀ range ∈ found, range.Inline := by
  have ended : (do
      let _ ← literal ".."
      let exclusive ← optional (literal ".")
      let last ← rangeable
      return (exclusive.isSome, last) : Parser (Bool × Tree)).Yields fun found => found.2.Inline :=
    .after fun _ => .after fun _ =>
      (inline_integer.orElse (inline_character.orElse inline_reference)).bind fun _ last =>
        .pure last
  refine ended.optional.bind fun found met => .pure ?_
  intro range listed
  obtain ⟨last, same, rfl⟩ := Option.map_eq_some_iff.mp listed
  exact first.two (met _ same)

/-- A range, or else its start alone. -/
theorem inline_rangeOr {start : Tree} (first : start.Inline) :
    (rangeRest start >>= fun found => pure (found.getD start)).Yields Inline := by
  refine (inline_rangeRest first).bind fun found met => .pure ?_
  cases found with
  | some range => exact met range rfl
  | none => exact first

section

variable (inline : nested.Inline)
include inline

theorem inline_pairRest {key : Tree} (first : key.Inline) :
    (pairRest nested key).Yields fun found => ∀ pair ∈ found, pair.Inline := by
  have value : (do
      let _ ← optional spaces
      let _ ← literal ":"
      let _ ← optional spaces
      nested.operand : Parser Tree).Yields Inline :=
    .after fun _ => .after fun _ => .after fun _ => inline.operand
  refine value.optional.bind fun found met => .pure ?_
  intro pair listed
  obtain ⟨value, same, rfl⟩ := Option.map_eq_some_iff.mp listed
  exact first.two (met _ same)

theorem inline_keyValue : (keyValue nested).Yields Inline := by
  refine (inline_simpleValue inline).bind fun _ first =>
    (inline_pairRest inline first).bind fun found met => ?_
  cases found with
  | some pair => exact .pure (met pair rfl)
  | none => exact .failFurthest _

theorem inline_ledBySimple : (ledBySimple nested).Yields Inline := by
  refine (inline_simpleValue inline).bind fun first simple =>
    (inline_pairRest inline simple).bind fun found met => ?_
  cases found with
  | some pair => exact .pure (met pair rfl)
  | none =>
      change Yields _ (ite _ _ _)
      split
      · exact inline_rangeOr simple
      · exact .pure simple

theorem inline_map : (map nested).Yields Inline :=
  .after fun _ => .after fun _ => (inline_listOf (inline_keyValue inline)).bind fun _ inside =>
    .after fun _ => .after fun _ => .pure (.branch inside)

theorem inline_list : (list nested).Yields Inline :=
  .after fun _ => .after fun _ => (inline_listOf inline.expression).bind fun _ inside =>
    .after fun _ => .after fun _ => .pure (.branch inside)

theorem inline_condition : (condition nested).Yields Inline :=
  .after fun _ => .after fun _ => inline.expression.bind fun _ value =>
    .after fun _ => .after fun _ => .pure value

theorem inline_elseBranch : (elseBranch nested).Yields Inline := by
  have body : (firstOf (block nested) [nested.conditional "if", nested.conditional "unless"]).Yields
      Inline :=
    (inline_block inline).orElse ((inline.conditional _).orElse (inline.conditional _))
  exact .after fun _ => .after fun _ => .after fun _ => body.bind fun _ inside => .pure inside.one

theorem inline_conditional : (conditional nested word).Yields Inline := by
  refine .after fun _ => .after fun _ => (inline_condition inline).bind fun condition value =>
    .after fun _ => (inline_block inline).bind fun body block =>
      (inline_elseBranch inline).optional.bind fun _ met => .pure (.branch ?_)
  have two : AllInline [condition, body] := by simp [AllInline, value, block]
  exact inline_optional two met

theorem inline_wordAndBlock : (wordAndBlock nested word).Yields Inline :=
  .after fun _ => .after fun _ => (inline_block inline).bind fun _ block => .pure block.one

theorem inline_case : (case nested).Yields Inline :=
  .after fun _ => .after fun _ => (inline_parenthesizedList inline.expression).bind fun _ inside =>
    .after fun _ => (inline_block inline).bind fun _ block =>
      .pure (Inline.two (.branch inside) block)

theorem inline_switch : (switch nested).Yields Inline :=
  .after fun _ => .after fun _ => (inline_condition inline).bind fun _ value =>
    .after fun _ => .after fun _ => .after fun _ =>
      ((inline_case inline).keepLeft _).many.bind fun _ arms =>
        ((inline_wordAndBlock inline).keepLeft _).optional.bind fun _ met => .after fun _ =>
          .pure (.branch (inline_optional (List.forall_mem_cons.mpr ⟨value, arms⟩) met))

theorem inline_catchBranch : (catchBranch nested).Yields Inline := by
  refine .after fun _ => .after fun _ => .after fun _ => .after fun _ =>
    inline_reference.bind fun binding first =>
      (Yields.keepRight spaces inline_reference).optional.bind fun found met =>
        .after fun _ => .after fun _ => .after fun _ => (inline_block inline).bind
          fun body block => .pure (.branch ?_)
  have names : AllInline ([binding] ++ found.toList) :=
    inline_optional (List.forall_mem_singleton.mpr first) met
  exact List.forall_mem_append.mpr ⟨names, List.forall_mem_singleton.mpr block⟩

theorem inline_tryBlock : (tryBlock nested).Yields Inline := by
  have handler : (keepRight blanks (catchBranch nested)).Yields Inline :=
    .keepRight _ (inline_catchBranch inline)
  have last : (keepRight blanks (wordAndBlock nested "finally")).Yields Inline :=
    .keepRight _ (inline_wordAndBlock inline)
  refine .after fun _ => .after fun _ => (inline_block inline).bind fun body block =>
    handler.many.bind fun handlers caught => last.optional.bind fun found met => ?_
  split
  · exact .after fun _ => .refuse _
  · exact .pure (.branch (inline_optional (List.forall_mem_cons.mpr ⟨block, caught⟩) met))

theorem inline_throwing : (throwing nested).Yields Inline :=
  .after fun _ => .after fun _ => inline.expression.bind fun _ value => .pure value.one

theorem inline_leaving : (leaving nested word).Yields Inline :=
  .after fun _ => (Yields.keepRight spaces inline.expression).optional.bind fun _ met =>
    .pure (.branch fun tree listed => met tree (Option.mem_toList.mp listed))

theorem inline_construct : (construct nested).Yields Inline :=
  (inline_conditional inline).orElse <| (inline_conditional inline).orElse <|
    (inline_switch inline).orElse <| (inline_tryBlock inline).orElse <|
      (inline_throwing inline).orElse <| (inline_leaving inline).orElse (inline_leaving inline)

end

theorem inline_optionalList (yields : item.Yields Inline) (start : Location) :
    (optionalList label item start).Yields Inline := by
  refine (inline_parenthesizedList yields).optional.bind fun found met => ?_
  cases found with
  | none => exact .pure (.branch (List.forall_mem_nil _))
  | some found => exact .pure (.branch (met found rfl))

section

variable (inline : nested.Inline)
include inline

theorem inline_classDefinition : (classDefinition nested).Yields Inline :=
  .after fun _ => .after fun _ =>
    (inline_optionalList (inline.classDefinition.orElse inline_reference) _).bind
      fun _ ancestors => .after fun _ => (inline_block inline).bind fun _ block =>
        .pure (ancestors.two block)

theorem inline_parameter : (parameter nested).Yields Inline :=
  inline_numeric.orElse <| inline_character.orElse <|
    (inline_string inline).orElse inline_reference

theorem inline_lambda : (lambda nested).Yields Inline := by
  have word : (firstOf (keyword "->") [keyword "lambda", keyword "λ"]).Yields
      fun span => OneLine span.text :=
    (oneLine_keyword (by decide)).orElse <|
      (oneLine_keyword (by decide)).orElse (oneLine_keyword (by decide))
  refine word.bind fun start holds => .after fun _ =>
    (inline_optionalList (inline_parameter inline) _).bind fun parameters inside =>
      .after fun _ => (inline_block inline).bind fun body block => .pure (.branch ?_)
  have keyword : (Tree.leaf "keyword" start).Inline := .leaf holds
  simp [keyword, inside, block]

theorem inline_overloads : (overloads nested).Yields Inline :=
  .after fun _ => .after fun _ => .after fun _ => .after fun _ =>
    ((inline_lambda inline).label _).bind fun _ first => .after fun _ =>
      ((inline_lambda inline).keepLeft _).many.bind fun _ rest => .after fun _ =>
        .pure (.branch (List.forall_mem_cons.mpr ⟨first, rest⟩))

theorem inline_definition : (definition nested).Yields Inline :=
  (inline_classDefinition inline).orElse <| (inline_lambda inline).orElse (inline_overloads inline)

end

theorem inline_attached {suffixes : List Suffix} {tree : Tree}
    (attached : ∀ suffix ∈ suffixes, ∀ operand : Tree, operand.Inline →
      (suffix.attach operand).Inline) (first : tree.Inline) :
    (suffixes.foldl Suffix.attach tree).Inline := by
  induction suffixes generalizing tree with
  | nil => exact first
  | cons suffix rest ih =>
      obtain ⟨next, others⟩ := List.forall_mem_cons.mp attached
      exact ih others (next tree first)

section

variable (inline : nested.Inline)
include inline

theorem inline_suffix : (suffix nested).Yields fun suffix =>
    ∀ operand : Tree, operand.Inline → (suffix.attach operand).Inline := by
  have name : (keepRight (literal ".") simpleReference).Yields fun span => OneLine span.text :=
    .keepRight _ oneLine_simpleReference
  refine .orElse (.map (name.mono fun _ holds _ first => first.two (.leaf holds))) ?_
  exact (inline_parenthesizedList inline.expression).bind fun _ inside =>
    .pure fun _ first => first.two (.branch inside)

theorem inline_suffixes {tree : Tree} (first : tree.Inline) :
    (suffixes nested tree).Yields Inline :=
  (inline_suffix inline).many.bind fun _ attached => .pure (inline_attached attached first)

theorem inline_parenthesized : (parenthesized nested).Yields Inline :=
  .after fun _ => .after fun _ => inline.expression.bind fun _ value =>
    .after fun _ => .after fun _ => .pure value

theorem inline_atom : (atom nested).Yields Inline :=
  (inline_construct inline).orElse <| (inline_definition inline).orElse <|
    (inline_map inline).orElse <| (inline_list inline).orElse <|
      (inline_ledBySimple inline).orElse <| (inline_parenthesized inline).orElse <|
        inline_reference.bind fun _ first => inline_rangeOr first

theorem inline_operand : (operand nested).Yields Inline :=
  (inline_atom inline).bind fun _ first => inline_suffixes inline first

theorem inline_operatorLink : (operatorLink nested).Yields AllInline := by
  refine .after fun _ => oneLine_simpleReference.bind fun operator holds => .after fun _ =>
    inline.operand.bind fun operand value => .pure ?_
  have sign : (Tree.leaf "operator" operator).Inline := .leaf holds
  simp [AllInline, sign, value]

theorem inline_expression : (expression nested).Yields Inline := by
  refine (inline_operand inline).bind fun first value =>
    (inline_operatorLink inline).many.bind fun links inside => ?_
  split
  · exact .pure value
  · refine .pure (.branch (List.forall_mem_cons.mpr ⟨value, ?_⟩))
    intro child listed
    obtain ⟨link, among, listed⟩ := List.mem_flatten.mp listed
    exact inside link among child listed

theorem inline_assignment : (assignment nested).Yields Inline :=
  inline_reference.bind fun _ first => (inline_suffixes inline first).bind fun _ target =>
    .after fun _ => .after fun _ => .after fun _ => inline.expression.bind fun _ value =>
      .pure (target.two value)

theorem inline_statement : (statement nested).Yields Inline :=
  inline_comment.orElse ((inline_assignment inline).orElse (inline_expression inline))

theorem inline_lines : (lines nested).Yields AllInline :=
  .after fun _ => ((inline_statement inline).keepLeft _).many

theorem inline_module : (module nested).Yields Inline := by
  intro source cursor tree after matched
  obtain ⟨statements, between, read, later⟩ := matched_bind matched
  obtain ⟨⟨⟩, last, -, ⟨⟩⟩ := matched_bind later
  exact .branch (inline_lines inline _ _ _ _ read)

end

/-- By induction on the levels. -/
theorem inline_within (levels : Nat) : (Nested.within levels).Inline := by
  induction levels with
  | zero => exact ⟨by nofun, by nofun, by nofun, by nofun, by nofun⟩
  | succ levels ih =>
      exact ⟨inline_lines ih, inline_expression ih, inline_operand ih, inline_classDefinition ih,
        fun _ => inline_conditional ih⟩

theorem inline_of_text {origin text : String} {tree : Tree}
    (parsed : Tree.ofText origin text = .ok tree) : tree.Inline := by
  obtain ⟨after, matched⟩ := ofText_eq_ok.mp parsed
  exact inline_module (inline_within _) _ _ _ _ matched

theorem Production.oneLine {label : String} {parts : List String}
    (production : Production label parts) : OneLine label := by
  cases production with
  | text kind | range kind | values kind | statements kind | conditional kind | leaving kind =>
      revert label
      decide
  | _ => decide

theorem Spelled.oneLine {label text : String} (spelled : Spelled label text) : OneLine label := by
  cases spelled with
  | character | escape => decide
  | word kind =>
      revert label
      decide

namespace Tree

theorem Derived.oneLine {tree : Tree} (derived : tree.Derived) : OneLine tree.label := by
  cases derived with
  | leaf spelled => exact spelled.oneLine
  | branch _ production => exact production.oneLine

theorem oneLine_headline {tree : Tree} (label : OneLine tree.label)
    (origin : OneLine tree.location.origin) : OneLine tree.headline := by
  have at_ : OneLine "@" := by decide
  have space : OneLine " " := by decide
  unfold headline
  cases tree.text <;> simp [label, Text.oneLine_place, origin, at_, space, Text.oneLine_quoteText]

mutual
/-- Each line shows a part of the tree. -/
theorem mem_listing {depth : Nat} {line : Nat × String} {tree : Tree}
    (listed : line ∈ tree.listing depth) : ∃ part, PartOf part tree ∧ line.2 = part.headline := by
  cases tree with
  | mk label place text children =>
  rcases List.mem_cons.mp listed with rfl | below
  · exact ⟨_, .whole _, rfl⟩
  · obtain ⟨child, inside, part, within, shown⟩ := mem_listingAll below
    exact ⟨part, .inside inside within, shown⟩
termination_by sizeOf tree
theorem mem_listingAll {depth : Nat} {line : Nat × String} {trees : List Tree}
    (listed : line ∈ listingAll depth trees) :
    ∃ tree ∈ trees, ∃ part, PartOf part tree ∧ line.2 = part.headline := by
  cases trees with
  | nil => cases listed
  | cons tree rest =>
      rcases List.mem_append.mp listed with first | later
      · exact ⟨tree, List.mem_cons_self, mem_listing first⟩
      · obtain ⟨other, among, shown⟩ := mem_listingAll later
        exact ⟨other, List.mem_cons_of_mem tree among, shown⟩
termination_by sizeOf trees
end

/-- What the leaves hold is quoted, line feeds included. -/
theorem oneLine_listing {origin text : String} {tree : Tree} (plain : OneLine origin)
    (parsed : Tree.ofText origin text = .ok tree) (depth : Nat) :
    ∀ line ∈ tree.listing depth, OneLine line.2 := by
  intro line listed
  obtain ⟨part, within, shown⟩ := mem_listing listed
  obtain ⟨after, matched⟩ := ofText_eq_ok.mp parsed
  have follows : tree.Follows origin text := follows_of_matched (Nat.zero_le _) matched
  have derived : part.Derived := (derived_of_text parsed).1.part within
  rw [shown]
  exact oneLine_headline derived.oneLine (follows.named part within ▸ plain)

end Tree

end RipInterpreter.Concrete
