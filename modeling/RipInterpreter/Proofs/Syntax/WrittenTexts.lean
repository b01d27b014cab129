import RipInterpreter.Proofs.Concrete.WrittenTexts
import RipInterpreter.Proofs.Syntax.ReadableTrees

namespace RipInterpreter.Syntax

open Concrete (Rule Tree Written guarded readWhole)

/-- The characters that a written character gives a text of the kind. -/
def TextKind.means (kind : TextKind) : Written → List Char
  | .plain c => [c]
  | .escaped c =>
    match kind with
    | .string => [resolveEscape c]
    | .regularExpression => ['\\', c]

def TextKind.label : TextKind → String
  | .string => "string"
  | .regularExpression => "regular_expression"

variable {kind : TextKind} {written : Written} {tree : Tree}

theorem flatMap_means_plain (kind : TextKind) (text : List Char) :
    (text.map Written.plain).flatMap kind.means = text := by
  rw [List.flatMap_map]
  exact List.flatMap_singleton' text

/-- A pattern keeps what is written. -/
theorem means_regularExpression : TextKind.regularExpression.means = Written.spelled := by
  funext written
  cases written <;> rfl

/-- A string has the guarded characters without their backslashes, unless an escape has a meaning of
its own. -/
theorem flatMap_means_guarding {marks : List Char} (literal : ∀ c ∈ marks, resolveEscape c = c)
    (text : List Char) :
    (text.map (Written.guarding marks)).flatMap TextKind.string.means = text := by
  rw [List.flatMap_map]
  have each (c : Char) : TextKind.string.means (Written.guarding marks c) = [c] := by
    by_cases listed : c ∈ marks
    · rw [Written.guarding_of_mem listed]
      exact congrArg (fun c => [c]) (literal c listed)
    · rw [Written.guarding_of_not_mem listed]
      rfl
  simp only [each]
  exact List.flatMap_singleton' text

/-- Characters without interpolations are one fragment. -/
theorem joinFragments_gather_glyphs (kind : TextKind) (place : Location) (glyphs : List Glyph) :
    joinFragments kind place (Fragment.gather (glyphs.map .glyph)) =
      kind.literal glyphs (firstPlace glyphs place) := by
  have gathered : ∀ glyph glyphs, Fragment.gather (.glyph glyph :: glyphs.map Piece.glyph) =
      [.literal (glyph :: glyphs)] := by
    intro glyph glyphs
    induction glyphs generalizing glyph with
    | nil => rfl
    | cons next glyphs ih =>
        unfold Fragment.gather
        rw [List.map_cons, ih next]
  cases glyphs with
  | nil => rfl
  | cons glyph glyphs =>
      rw [List.map_cons, gathered]
      rfl

namespace Reading

theorem pieces_of_written (kind : TextKind) (reads : written.Reads tree) :
    ∃ glyphs : List Glyph,
      pieces kind (ofTree tree).tree (ofTree tree).parts = .ok (glyphs.map .glyph) ∧
        glyphs.map Glyph.char = kind.means written := by
  obtain ⟨place, rfl⟩ := reads
  cases written with
  | plain c =>
      have read : glyph (.leaf "character" ⟨.singleton c, place⟩) = .ok ⟨c, place⟩ := glyph_of rfl
      refine ⟨[⟨c, place⟩], (pieces_character rfl).trans ?_, rfl⟩
      change (do return [Piece.glyph (← glyph (.leaf "character" ⟨.singleton c, place⟩))]) = _
      rw [read]
      rfl
  | escaped c => exact ⟨_, pieces_escape rfl String.toList_ofList, by cases kind <;> rfl⟩

theorem pieces_of_text (kind : TextKind) {text : List Written} {leaves : List Tree}
    (reads : List.Forall₂ Written.Reads text leaves) :
    ∃ found, ∃ glyphs : List Glyph,
      (ofTrees leaves).mapM (fun child => pieces kind child.tree child.parts) = .ok found ∧
        found.flatten = glyphs.map .glyph ∧ glyphs.map Glyph.char = text.flatMap kind.means := by
  induction reads with
  | nil => exact ⟨[], [], rfl, rfl, rfl⟩
  | @cons written tree text leaves read reads ih =>
      obtain ⟨first, firstRead, firstChars⟩ := pieces_of_written kind read
      obtain ⟨found, glyphs, others, joined, chars⟩ := ih
      refine ⟨first.map .glyph :: found, first ++ glyphs, ?_, ?_, ?_⟩
      · rw [ofTrees, List.mapM_cons, firstRead, others]
        rfl
      · rw [List.flatten_cons, joined, List.map_append]
      · rw [List.map_append, firstChars, chars, List.flatMap_cons]

end Reading

theorem ofTree_of_written (kind : TextKind) {text : List Written} {leaves : List Tree}
    (place : Location) (reads : List.Forall₂ Written.Reads text leaves) :
    ∃ glyphs location, Node.ofTree (.branch kind.label place leaves) =
        .ok (kind.literal glyphs location) ∧
      spell glyphs = .ofList (text.flatMap kind.means) := by
  obtain ⟨found, glyphs, read, joined, chars⟩ := Reading.pieces_of_text kind reads
  refine ⟨glyphs, firstPlace glyphs place, ?_, congrArg String.ofList chars⟩
  have whole : Node.ofTree (.branch kind.label place leaves) =
      Reading.text kind (.branch kind.label place leaves) (Reading.ofTrees leaves) := by
    cases kind <;> rfl
  rw [whole, Reading.text, read, ← joinFragments_gather_glyphs, ← joined]
  rfl

/-- The node is a literal of the kind. -/
inductive TextKind.IsLiteral (glyphs : List Glyph) (place : Location) : TextKind → Node → Prop
  | string : IsLiteral glyphs place .string (.string glyphs place)
  | regularExpression :
    IsLiteral glyphs place .regularExpression (.regularExpression glyphs place)

theorem TextKind.isLiteral_literal (kind : TextKind) (glyphs : List Glyph) (place : Location) :
    kind.IsLiteral glyphs place (kind.literal glyphs place) := by
  cases kind
  · exact .string
  · exact .regularExpression

/-- The rule reads the whole source as a literal of the kind with the text. -/
def ReadsAs (rule : Rule) (kind : TextKind) (origin source text : String) : Prop :=
  ∃ tree node glyphs location, readWhole rule.parser origin source = .ok tree ∧
    Node.ofTree tree = .ok node ∧ kind.IsLiteral glyphs location node ∧ spell glyphs = text

theorem readsAs_of_spells {rule : Rule} {origin source text : String} {written : List Written}
    (spells : rule.Spells origin source kind.label written)
    (means : written.flatMap kind.means = text.toList) : ReadsAs rule kind origin source text := by
  obtain ⟨start, leaves, reads, parsed⟩ := spells
  obtain ⟨glyphs, location, read, spelled⟩ := ofTree_of_written kind start reads
  rw [means, String.ofList_toList] at spelled
  exact ⟨_, _, glyphs, location, parsed, read, kind.isLiteral_literal glyphs location, spelled⟩

/-- Every text can be written in double quotes, and in each of the other forms that its characters
allow; between slashes the backslashes stay in the pattern. -/
theorem every_text_is_written (origin text : String) :
    (text ≠ "" → (∀ c ∈ text.toList, c.isAlpha ∨ c = '_') →
      ReadsAs .string .string origin (":" ++ text) text) ∧
    ('\'' ∉ text.toList → ReadsAs .string .string origin ("'" ++ text ++ "'") text) ∧
    ReadsAs .string .string origin ("\x22" ++ guarded ['\x22', '\\', '#'] text ++ "\x22") text ∧
    (∀ label : String, label ≠ "" → (∀ c ∈ label.toList, c.isUpper ∨ c = '_') →
      ¬ ['#', '\x7b'] <:+: text.toList →
      (∀ index < text.length, ¬ label.toList <+: (text ++ label).toList.drop index) →
      ReadsAs .string .string origin ("<<" ++ label ++ "\n" ++ text ++ label) text) ∧
    ReadsAs .regularExpression .regularExpression origin
      ("/" ++ guarded ['/', '\\', '#'] text ++ "/") (guarded ['/', '\\', '#'] text) := by
  refine ⟨fun nonempty letters => ?_, fun unquoted => ?_, ?_,
    fun label nonempty capitals uninterpolated first => ?_, ?_⟩
  · exact readsAs_of_spells (Concrete.spells_symbol (mt String.toList_eq_nil_iff.mp nonempty)
      (by simpa using letters)) (flatMap_means_plain _ _)
  · exact readsAs_of_spells (Concrete.spells_singleQuoted unquoted) (flatMap_means_plain _ _)
  · exact readsAs_of_spells Concrete.spells_doubleQuoted
      (flatMap_means_guarding (by simp [resolveEscape]) _)
  · exact readsAs_of_spells (Concrete.spells_hereDocument (mt String.toList_eq_nil_iff.mp nonempty)
      (by simpa using capitals) uninterpolated (by simpa using first)) (flatMap_means_plain _ _)
  · refine readsAs_of_spells Concrete.spells_pattern ?_
    rw [means_regularExpression, Concrete.toList_guarded]

theorem every_text_is_written_overlapping :
    ReadsAs .string .string "rspec" ":BA" "BA" ∧ ReadsAs .string .string "rspec" "'BA'" "BA" ∧
      ReadsAs .string .string "rspec" "<<ABA\nBAABA" "BA" ∧
        ReadsAs .string .string "rspec" "\x22\\#\\\\/\x22" "#\\/" ∧
          ReadsAs .regularExpression .regularExpression "rspec" "/\\#\\\\\\//" "\\#\\\\\\/" := by
  obtain ⟨symbol, quoted, -, hereDocument, -⟩ := every_text_is_written "rspec" "BA"
  obtain ⟨-, -, marked, -, pattern⟩ := every_text_is_written "rspec" "#\\/"
  exact ⟨symbol (by decide) (by simp), quoted (by decide),
    hereDocument "ABA" (by decide) (by simp) (by decide) (by decide), marked, pattern⟩

end RipInterpreter.Syntax
