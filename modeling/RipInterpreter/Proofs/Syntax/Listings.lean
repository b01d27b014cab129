import RipInterpreter.Proofs.Syntax.OneLine
import RipInterpreter.Proofs.Syntax.Origins
import RipInterpreter.Proofs.Syntax.Settling

namespace RipInterpreter.Syntax

open Concrete (Tree)
open Text (OneLine)

variable {origin text : String}

namespace Outline

/-- The kinds of entries that show what a text holds. -/
def textKinds : List String := ["String", "RegularExpression"]

/-- The entries have their places in the origin and are on one line, but for what texts hold. -/
inductive Neat (origin : String) : Outline → Prop
  | intro {outline : Outline} (kind : OneLine outline.kind)
    (own : outline.location.origin = origin)
    (shows : outline.kind ∉ textKinds → ∀ payload ∈ outline.payload, OneLine payload)
    (inside : ∀ child ∈ outline.children, child.Neat origin) : Neat origin outline

variable {kind payload : String} {place : Location} {children : List Outline}

theorem Neat.plain (holds : OneLine kind) (own : place.origin = origin)
    (inside : ∀ child ∈ children, child.Neat origin) : (plain kind place children).Neat origin :=
  .intro holds own (fun _ _ => nofun) inside

theorem Neat.showing (holds : OneLine kind) (shows : OneLine payload) (own : place.origin = origin)
    (inside : ∀ child ∈ children, child.Neat origin) :
    (showing kind payload place children).Neat origin :=
  .intro holds own (fun _ _ same => Option.some.inj same ▸ shows) inside

theorem Neat.raw {payload : Option String} {tokens : List Name} (known : kind ∈ textKinds)
    (own : place.origin = origin) : Neat origin ⟨kind, payload, tokens, place, []⟩ := by
  have holds : ∀ kind ∈ textKinds, OneLine kind := by decide
  exact .intro (holds kind known) own (fun other => absurd known other) (List.forall_mem_nil _)

end Outline

open Outline (Neat)

theorem neat_each {α : Type} {make : α → Outline} {items : List α}
    (each : ∀ item ∈ items, (make item).Neat origin) :
    ∀ outline ∈ items.flatMap fun item => [make item], outline.Neat origin :=
  List.forall_mem_flatMap.mpr fun item listed => List.forall_mem_singleton.mpr (each item listed)

theorem neat_outlines {nodes : List Node} (inside : ∀ node ∈ nodes, node.outline.Neat origin) :
    ∀ outline ∈ outlines nodes, outline.Neat origin := by
  rw [outlines_eq]
  exact neat_each inside

theorem neat_block {block : Block} (own : block.location.origin = origin)
    (inside : ∀ statement ∈ block.statements, statement.outline.Neat origin) :
    block.outline.Neat origin := by
  cases block
  exact .plain (by decide) own (neat_outlines inside)

theorem neat_lambda {definition : Lambda}
    (own : ∀ place ∈ definition.places, place.origin = origin)
    (inside : ∀ inner ∈ definition.parameters ++ definition.body.statements,
      inner.outline.Neat origin) : definition.outline.Neat origin := by
  obtain ⟨word, parameters, body, place⟩ := definition
  obtain ⟨first, second⟩ := List.forall_mem_append.mp inside
  have block : body.outline.Neat origin := neat_block (own _ (by simp [Lambda.places])) second
  have shows : OneLine word.text := by cases word <;> decide
  exact .showing (by decide) shows (own _ List.mem_cons_self)
    (List.forall_mem_append.mpr ⟨neat_outlines first, List.forall_mem_singleton.mpr block⟩)

theorem neat_case {case : Case} (own : ∀ place ∈ case.places, place.origin = origin)
    (inside : ∀ inner ∈ case.matchers ++ case.body.statements, inner.outline.Neat origin) :
    case.outline.Neat origin := by
  obtain ⟨matchers, body, place⟩ := case
  obtain ⟨first, second⟩ := List.forall_mem_append.mp inside
  have block : body.outline.Neat origin := neat_block (own _ (by simp [Case.places])) second
  exact .plain (by decide) (own _ List.mem_cons_self)
    (List.forall_mem_append.mpr ⟨neat_outlines first, List.forall_mem_singleton.mpr block⟩)

theorem neat_handler {handler : Handler} (own : ∀ place ∈ handler.places, place.origin = origin)
    (shows : OneLine (handlerText handler.matcher handler.binding))
    (inside : ∀ inner ∈ handler.body.statements, inner.outline.Neat origin) :
    handler.outline.Neat origin := by
  obtain ⟨matcher, binding, body, place⟩ := handler
  have block : body.outline.Neat origin := neat_block (own _ (by simp [Handler.places])) inside
  exact .intro (show OneLine "Catch" by decide) (own _ List.mem_cons_self)
    (fun _ _ same => Option.some.inj same ▸ shows) (List.forall_mem_singleton.mpr block)

theorem neat_clauses {kind : String} {clause : Option Clause} (holds : OneLine kind)
    (own : ∀ place ∈ clause.toList.flatMap Clause.places, place.origin = origin)
    (inside : ∀ inner ∈ clause.toList.flatMap fun clause => clause.body.statements,
      inner.outline.Neat origin) :
    ∀ outline ∈ clauseOutlines kind clause, outline.Neat origin := by
  cases clause with
  | none => exact List.forall_mem_nil _
  | some clause =>
      obtain ⟨body, place⟩ := clause
      have block : body.outline.Neat origin :=
        neat_block (own _ (by simp [Clause.places])) (by simpa using inside)
      have at_ : place.origin = origin := own _ (by simp [Clause.places])
      exact List.forall_mem_singleton.mpr (.plain holds at_ (List.forall_mem_singleton.mpr block))

/-- By the kind of the node. -/
theorem neat_outline {node : Node} (own : ∀ place ∈ node.places, place.origin = origin)
    (words : ∀ word ∈ node.words, OneLine word)
    (inside : ∀ inner ∈ node.contents, inner.outline.Neat origin) : node.outline.Neat origin := by
  have here : node.location.origin = origin := own _ node.location_mem_places
  cases node with
  | comment | reference | integer | decimal | character =>
      exact .showing (by decide) (words _ List.mem_cons_self) here (List.forall_mem_nil _)
  | string | regularExpression => exact .raw (by decide) here
  | interpolation | list => exact .plain (by decide) here (neat_outlines inside)
  | keyValue pair =>
      cases pair
      exact .plain (by decide) here (by simpa [Node.contents] using inside)
  | range start last exclusive place =>
      have shows : OneLine (if exclusive then "..." else "..") := by cases exclusive <;> decide
      exact .showing (by decide) shows here (by simpa [Node.contents] using inside)
  | map pairs place =>
      refine .plain (by decide) here ?_
      rw [pairOutlines_eq]
      refine neat_each fun pair listed => ?_
      have owned : pair.location.origin = origin :=
        own _ (List.mem_cons_of_mem _ (List.mem_map_of_mem listed))
      have both := List.forall_mem_flatMap.mp inside pair listed
      cases pair
      exact .plain (by decide) owned (by simpa using both)
  | assignment target value place =>
      exact .plain (by decide) here (by simpa [Node.contents] using inside)
  | property object key place =>
      exact .showing (by decide) (words _ List.mem_cons_self) here
        (by simpa [Node.contents] using inside)
  | invocation callable arguments place =>
      obtain ⟨first, others⟩ := List.forall_mem_cons.mp inside
      exact .plain (by decide) here (List.forall_mem_cons.mpr ⟨first, neat_outlines others⟩)
  | lambda definition => exact neat_lambda own inside
  | overloads definitions place =>
      have places := (List.forall_mem_cons.mp own).2
      refine .plain (by decide) here ?_
      rw [lambdaOutlines_eq]
      exact neat_each fun definition listed => neat_lambda
        (List.forall_mem_flatMap.mp places definition listed)
        (List.forall_mem_flatMap.mp inside definition listed)
  | classDefinition ancestors body place =>
      obtain ⟨first, second⟩ := List.forall_mem_append.mp inside
      have block : body.outline.Neat origin := neat_block (own _ (by simp [Node.places])) second
      exact .plain (by decide) here
        (List.forall_mem_append.mpr ⟨neat_outlines first, List.forall_mem_singleton.mpr block⟩)
  | block body => exact neat_block here inside
  | conditional condition holds fails place =>
      obtain ⟨first, other⟩ := List.forall_mem_append.mp inside
      obtain ⟨value, body⟩ := List.forall_mem_cons.mp first
      have block : holds.outline.Neat origin := neat_block (own _ (by simp [Node.places])) body
      have last : fails.outline.Neat origin := neat_block (own _ (by simp [Node.places])) other
      exact .plain (by decide) here (by simp [value, block, last])
  | switch subject cases otherwise place =>
      obtain ⟨before, behind⟩ := List.forall_mem_append.mp own
      obtain ⟨within, last⟩ := List.forall_mem_append.mp inside
      obtain ⟨first, matched⟩ := List.forall_mem_cons.mp within
      have arms : ∀ outline ∈ caseOutlines cases, outline.Neat origin := by
        rw [caseOutlines_eq]
        exact neat_each fun case listed => neat_case
          (List.forall_mem_flatMap.mp (List.forall_mem_cons.mp before).2 case listed)
          (List.forall_mem_flatMap.mp matched case listed)
      exact .plain (by decide) here (List.forall_mem_append.mpr
        ⟨List.forall_mem_cons.mpr ⟨first, arms⟩, neat_clauses (by decide) behind last⟩)
  | attempt body handlers cleanup place =>
      obtain ⟨before, behind⟩ := List.forall_mem_append.mp own
      obtain ⟨within, last⟩ := List.forall_mem_append.mp inside
      obtain ⟨first, caught⟩ := List.forall_mem_append.mp within
      have block : body.outline.Neat origin := neat_block (own _ (by simp [Node.places])) first
      have handled : ∀ outline ∈ handlerOutlines handlers, outline.Neat origin := by
        rw [handlerOutlines_eq]
        exact neat_each fun handler listed => neat_handler
          (List.forall_mem_flatMap.mp (List.forall_mem_cons.mp (List.forall_mem_cons.mp before).2).2
            handler listed)
          (words _ (List.mem_map_of_mem listed)) (List.forall_mem_flatMap.mp caught handler listed)
      exact .plain (by decide) here (List.forall_mem_append.mpr
        ⟨List.forall_mem_cons.mpr ⟨block, handled⟩, neat_clauses (by decide) behind last⟩)
  | throwing payload place =>
      exact .plain (by decide) here (by simpa [Node.contents] using inside)
  | returning payload place | exiting payload place =>
      refine .plain (by decide) here ?_
      cases payload with
      | none => exact List.forall_mem_nil _
      | some node => exact List.forall_mem_singleton.mpr (inside node List.mem_cons_self)

theorem Node.Stands.neat {node : Node} (stands : node.Stands origin text) (inline : node.Inline) :
    node.outline.Neat origin := by
  induction stands with
  | intro places _ _ _ ih =>
      exact neat_outline (fun place listed => (places place listed).named) inline.own
        fun inner listed => ih inner listed (inline.inside inner listed)

theorem Module.neat_of_text {module : Module} (read : Module.ofText origin text = .ok module) :
    module.outline.Neat origin := by
  obtain ⟨own, stands⟩ := stands_of_text read
  have inline := inline_of_text read
  exact .plain (by decide) own.named (neat_outlines fun statement listed =>
    (stands statement listed).neat (inline statement listed))

namespace Outline

/-- What the text of the entry holds has a line feed in it. -/
def Breaks (entry : Outline) : Prop :=
  entry.kind ∈ textKinds ∧ ∃ payload ∈ entry.payload, ¬ OneLine payload

theorem mem_entriesAll {entry : Outline} {outlines : List Outline} :
    entry ∈ entriesAll outlines ↔ ∃ outline ∈ outlines, entry ∈ outline.entries := by
  induction outlines with
  | nil => simp [entriesAll]
  | cons outline rest ih => simp [entriesAll, ih]

theorem Neat.entry {outline entry : Outline} (neat : outline.Neat origin)
    (listed : entry ∈ outline.entries) : entry.Neat origin := by
  induction neat with
  | @intro outline kind own shows inside ih =>
      rw [entries_eq] at listed
      rcases List.mem_cons.mp listed with rfl | below
      · exact .intro kind own shows inside
      · obtain ⟨child, among, within⟩ := mem_entriesAll.mp below
        exact ih child among within

theorem Neat.oneLine_headline {entry : Outline} (neat : entry.Neat origin)
    (plain : OneLine origin) : OneLine entry.headline ↔ ¬ entry.Breaks := by
  have at_ : OneLine "@" := by decide
  have opening : OneLine " (" := by decide
  have closing : OneLine ")" := by decide
  cases neat with
  | intro kind own shows =>
      have place : OneLine entry.location.text := Text.oneLine_place.mpr (own ▸ plain)
      unfold headline Breaks
      cases holds : entry.payload with
      | none => simp [kind, place, at_]
      | some payload =>
          simp only [Text.oneLine_append, kind, place, at_, opening, closing, true_and, and_true,
            Option.mem_some_iff, exists_eq_left', not_and, not_not]
          exact ⟨fun line _ => line, fun texts => by_cases texts fun other => shows other _ holds⟩

mutual
/-- One line for each entry. -/
theorem listing_lines (depth : Nat) (outline : Outline) :
    (outline.listing depth).map Prod.snd = outline.entries.map headline := by
  cases outline with
  | mk kind payload tokens place children =>
  rw [listing, entries, List.map_cons, List.map_cons, listingAll_lines (depth + 1) children]
termination_by sizeOf outline
theorem listingAll_lines (depth : Nat) (outlines : List Outline) :
    (listingAll depth outlines).map Prod.snd = (entriesAll outlines).map headline := by
  cases outlines with
  | nil => rfl
  | cons outline rest =>
      rw [listingAll, entriesAll, List.map_append, List.map_append, listing_lines depth outline,
        listingAll_lines depth rest]
termination_by sizeOf outlines
end

end Outline

/-- In the listing of a concrete tree no line holds a line feed. In that of a syntax tree only those
lines do that show a string or a regular expression with a line feed, and the listing renders as its
lines one below the other, each behind its tabs, exactly if there are none. -/
theorem Module.lines_break_in_texts {module : Module} (plain : OneLine origin)
    (read : Module.ofText origin text = .ok module) (depth : Nat) :
    (∃ tree, Tree.ofText origin text = .ok tree ∧ Module.ofTree tree = .ok module ∧
      (∀ line ∈ tree.listing depth, OneLine line.2) ∧
      (tree.listing depth).render.toList.splitOn '\n' =
        (tree.listing depth).map Listing.indented ++ [[]]) ∧
    (module.outline.listing depth).map Prod.snd = module.outline.entries.map Outline.headline ∧
    (∀ entry ∈ module.outline.entries, OneLine entry.headline ↔ ¬ entry.Breaks) ∧
    ((module.outline.listing depth).render.toList.splitOn '\n' =
        (module.outline.listing depth).map Listing.indented ++ [[]] ↔
      ∀ entry ∈ module.outline.entries, ¬ entry.Breaks) := by
  have entries : ∀ entry ∈ module.outline.entries, OneLine entry.headline ↔ ¬ entry.Breaks :=
    fun entry listed => ((neat_of_text read).entry listed).oneLine_headline plain
  have lines := Outline.listing_lines depth module.outline
  refine ⟨?_, lines, entries, ?_⟩
  · unfold Module.ofText at read
    cases parsed : Tree.ofText origin text with
    | error error =>
        rw [parsed] at read
        cases read
    | ok tree =>
        rw [parsed] at read
        have each := Tree.oneLine_listing plain parsed depth
        exact ⟨tree, rfl, read, each, (Listing.splitOn_render _).mpr each⟩
  · rw [Listing.splitOn_render]
    calc (∀ line ∈ module.outline.listing depth, OneLine line.2)
      _ ↔ ∀ shown ∈ (module.outline.listing depth).map Prod.snd, OneLine shown :=
        List.forall_mem_map.symm
      _ ↔ ∀ entry ∈ module.outline.entries, OneLine entry.headline := by
        rw [lines, List.forall_mem_map]
      _ ↔ ∀ entry ∈ module.outline.entries, ¬ entry.Breaks := forall₂_congr entries

/-- A comment, a string with a line feed, and a pattern with an escaped one. -/
theorem Module.lines_break_in_texts_of_string :
    let text := "# c\n'a\nb'\n/\\n/"
    OneLine "sample" ∧ ∃ module, Module.ofText "sample" text = .ok module ∧
      (∃ tree, Tree.ofText "sample" text = .ok tree ∧ Module.ofTree tree = .ok module ∧
        (∀ line ∈ tree.listing 0, OneLine line.2) ∧
        (tree.listing 0).render.toList.splitOn '\n' =
          (tree.listing 0).map Listing.indented ++ [[]]) ∧
      (∀ entry ∈ module.outline.entries, OneLine entry.headline ↔ ¬ entry.Breaks) ∧
      (module.outline.listing 0).map Prod.snd = module.outline.entries.map Outline.headline ∧
      module.outline.listing 0 = [(0, "Module@sample:1:0"), (1, "Comment@sample:1:1 ( c)"),
        (1, "String@sample:2:1 (a\nb)"), (1, "RegularExpression@sample:4:1 (\\n)")] := by
  intro text
  have checked : ((Module.ofText "sample" text).toOption.any fun module =>
      module.outline.listing 0 = [(0, "Module@sample:1:0"), (1, "Comment@sample:1:1 ( c)"),
        (1, "String@sample:2:1 (a\nb)"), (1, "RegularExpression@sample:4:1 (\\n)")]) = true := by
    decide +kernel
  have plain : OneLine "sample" := by decide
  cases parsed : Module.ofText "sample" text with
  | error error =>
      rw [parsed] at checked
      cases checked
  | ok module =>
      rw [parsed] at checked
      obtain ⟨concrete, lines, entries, -⟩ := lines_break_in_texts plain parsed 0
      exact ⟨plain, module, rfl, concrete, entries, lines, of_decide_eq_true checked⟩

/-- Two entries, and three lines, the last of them without a tab. -/
theorem Module.string_on_two_lines : OneLine "rspec" ∧
    ∃ module, Module.ofText "rspec" "'a\nb'" = .ok module ∧
      module.outline.entries.length = 2 ∧
      (module.outline.listing 0).render = "Module@rspec:1:0\n\tString@rspec:1:1 (a\nb)\n" ∧
      ¬ ∀ entry ∈ module.outline.entries, OneLine entry.headline := by
  have checked : ((Module.ofText "rspec" "'a\nb'").toOption.any fun module =>
      module.outline.entries.length = 2 ∧
      (module.outline.listing 0).render = "Module@rspec:1:0\n\tString@rspec:1:1 (a\nb)\n" ∧
      ¬ ∀ entry ∈ module.outline.entries, OneLine entry.headline) = true := by
    decide +kernel
  cases parsed : Module.ofText "rspec" "'a\nb'" with
  | error error =>
      rw [parsed] at checked
      cases checked
  | ok module =>
      rw [parsed] at checked
      exact ⟨by decide, module, rfl, of_decide_eq_true checked⟩

end RipInterpreter.Syntax
