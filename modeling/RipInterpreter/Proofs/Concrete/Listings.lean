import RipInterpreter.Proofs.Concrete.Productions
import RipInterpreter.Proofs.Text.Quoted

namespace RipInterpreter.Concrete.Tree

open Parsing

mutual
/-- The tree with all positions forgotten; lines and columns stay. -/
def unpositioned : Tree → Tree
  | ⟨label, location, text, children⟩ =>
    ⟨label, { location with position := 0 }, text, unpositionedAll children⟩
def unpositionedAll : List Tree → List Tree
  | [] => []
  | tree :: rest => tree.unpositioned :: unpositionedAll rest
end

/-- Every part of the tree has a place in one origin, and no `@` in its label. -/
def Named (origin : String) (tree : Tree) : Prop :=
  ∀ part, PartOf part tree → part.location.origin = origin ∧ '@' ∉ part.label.toList

theorem Named.child {origin : String} {tree child : Tree} (named : tree.Named origin)
    (listed : child ∈ tree.children) : child.Named origin :=
  fun part within => named part (.inside listed within)

theorem named_leaf {label : String} {span : Span} (plain : '@' ∉ label.toList) :
    (leaf label span).Named span.location.origin := by
  intro part within
  cases within with
  | whole => exact ⟨rfl, plain⟩
  | inside listed => cases listed

theorem named_branch {label : String} {location : Location} {children : List Tree}
    (plain : '@' ∉ label.toList) (named : ∀ child ∈ children, child.Named location.origin) :
    (branch label location children).Named location.origin := by
  intro part within
  cases within with
  | whole => exact ⟨rfl, plain⟩
  | inside listed within => exact named _ listed part within

/-- What a line holds behind the column. -/
def ending (text : Option String) : List Char :=
  text.elim [] fun text => ' ' :: (Text.quoteText text).toList

theorem toList_headline (tree : Tree) : tree.headline.toList =
    tree.label.toList ++ '@' :: (tree.location.origin.toList ++ ':' ::
      (Nat.toDigits 10 tree.location.line ++ ':' ::
        (Nat.toDigits 10 tree.location.column ++ ending tree.text))) := by
  unfold headline
  cases tree.text <;> simp [ending, Location.text]

theorem ending_injective : Function.Injective ending := by
  intro text other same
  cases text <;> cases other <;>
    simp_all [ending, String.toList_inj, Text.quoteText_injective.eq_iff]

theorem digits_inj {number other : Nat} {after next : List Char}
    (stops : ∀ c ∈ after.head?, c.isDigit = false) (stops' : ∀ c ∈ next.head?, c.isDigit = false)
    (same : Nat.toDigits 10 number ++ after = Nat.toDigits 10 other ++ next) :
    number = other ∧ after = next := by
  have digits : ∀ number, ∀ c ∈ Nat.toDigits 10 number, c.isDigit = true := fun _ _ listed =>
    Nat.isDigit_of_mem_toDigits (by decide) (by decide) listed
  obtain ⟨written, rest⟩ := Text.eq_of_append_eq _ (digits _) (digits _)
    (by simpa using stops) (by simpa using stops') same
  exact ⟨Text.toDigits_inj (by decide) (by decide) written, rest⟩

theorem headline_inj {tree other : Tree} (origin : tree.location.origin = other.location.origin)
    (plain : '@' ∉ tree.label.toList) (plain' : '@' ∉ other.label.toList)
    (same : tree.headline = other.headline) :
    tree.label = other.label ∧ tree.location.line = other.location.line ∧
      tree.location.column = other.location.column ∧ tree.text = other.text := by
  have spelled := congrArg String.toList same
  rw [toList_headline, toList_headline, origin] at spelled
  have colon : ∀ rest : List Char, ∀ c ∈ (':' :: rest).head?, c.isDigit = false := by simp
  have space : ∀ text, ∀ c ∈ (ending text).head?, c.isDigit = false := by
    intro text
    cases text <;> simp [ending]
  obtain ⟨labels, behind⟩ := Text.eq_of_append_eq (· ≠ '@')
    (fun c listed => ne_of_mem_of_not_mem listed plain)
    (fun c listed => ne_of_mem_of_not_mem listed plain') (by simp) (by simp) spelled
  have numbers := List.append_cancel_left (List.cons.inj behind).2
  obtain ⟨lines, rest⟩ := digits_inj (colon _) (colon _) (List.cons.inj numbers).2
  obtain ⟨columns, texts⟩ := digits_inj (space _) (space _) (List.cons.inj rest).2
  exact ⟨String.toList_inj.mp labels, lines, columns, ending_injective texts⟩

/-- Lines that begin at a lower depth, if there are any. -/
def Outside (depth : Nat) (lines : Listing) : Prop := ∀ line ∈ lines.head?, line.1 < depth

theorem Outside.mono {depth deeper : Nat} {lines : Listing} (outside : Outside depth lines)
    (less : depth ≤ deeper) : Outside deeper lines :=
  fun line first => Nat.lt_of_lt_of_le (outside line first) less

theorem listing_eq (depth : Nat) (tree : Tree) :
    tree.listing depth = (depth, tree.headline) :: listingAll (depth + 1) tree.children := by
  cases tree
  rfl

theorem unpositioned_eq (tree : Tree) : tree.unpositioned =
    ⟨tree.label, { tree.location with position := 0 }, tree.text,
      unpositionedAll tree.children⟩ := by
  cases tree
  rfl

/-- Behind a tree come its siblings, at its own depth, and what is behind them. -/
theorem outside_listingAll {depth : Nat} {lines : Listing} (outside : Outside depth lines)
    (trees : List Tree) : Outside (depth + 1) (listingAll depth trees ++ lines) := by
  cases trees with
  | nil => exact outside.mono (Nat.le_succ depth)
  | cons tree rest => simp [Outside, listingAll, listing_eq]

mutual
theorem listing_append_inj {origin : String} {tree other : Tree} {depth : Nat}
    {lines more : Listing} (named : tree.Named origin) (named' : other.Named origin)
    (outside : Outside (depth + 1) lines) (outside' : Outside (depth + 1) more)
    (same : tree.listing depth ++ lines = other.listing depth ++ more) :
    tree.unpositioned = other.unpositioned ∧ lines = more := by
  cases tree with
  | mk label location text children =>
  rw [listing_eq, listing_eq, List.cons_append, List.cons_append] at same
  obtain ⟨first, below⟩ := List.cons.inj same
  obtain ⟨own, plain⟩ := named _ (.whole _)
  obtain ⟨own', plain'⟩ := named' _ (.whole _)
  obtain ⟨labels, places, columns, texts⟩ :=
    headline_inj (own.trans own'.symm) plain plain' (Prod.mk.inj first).2
  obtain ⟨children, behind⟩ := listingAll_append_inj (fun child => named.child)
    (fun child => named'.child) outside outside' below
  refine ⟨?_, behind⟩
  rw [unpositioned_eq, unpositioned_eq, labels, texts, children]
  simp_all
termination_by sizeOf tree
theorem listingAll_append_inj {origin : String} {trees others : List Tree} {depth : Nat}
    {lines more : Listing} (named : ∀ tree ∈ trees, tree.Named origin)
    (named' : ∀ tree ∈ others, tree.Named origin)
    (outside : Outside depth lines) (outside' : Outside depth more)
    (same : listingAll depth trees ++ lines = listingAll depth others ++ more) :
    unpositionedAll trees = unpositionedAll others ∧ lines = more := by
  cases trees with
  | nil =>
      cases others with
      | nil => exact ⟨rfl, same⟩
      | cons other rest =>
          have first : (depth, other.headline) ∈ lines.head? := by
            simpa [listingAll, listing_eq] using congrArg List.head? same
          exact absurd (outside _ first) (Nat.lt_irrefl depth)
  | cons tree trees =>
      cases others with
      | nil =>
          have first : (depth, tree.headline) ∈ more.head? := by
            simpa [listingAll, listing_eq] using congrArg List.head? same.symm
          exact absurd (outside' _ first) (Nat.lt_irrefl depth)
      | cons other others =>
          simp only [listingAll, List.append_assoc] at same
          obtain ⟨heads, behind⟩ := listing_append_inj (named tree (by simp))
            (named' other (by simp)) (outside_listingAll outside trees)
            (outside_listingAll outside' others) same
          obtain ⟨tails, last⟩ := listingAll_append_inj
            (fun tree listed => named tree (by simp [listed]))
            (fun tree listed => named' tree (by simp [listed])) outside outside' behind
          exact ⟨by simp [unpositionedAll, heads, tails], last⟩
termination_by sizeOf trees
end

mutual
/-- A listing shows no positions. -/
theorem listing_unpositioned (depth : Nat) (tree : Tree) :
    tree.unpositioned.listing depth = tree.listing depth := by
  cases tree with
  | mk label location text children =>
  have below := listingAll_unpositionedAll (depth + 1) children
  simp [unpositioned, listing, headline, Location.text, below]
termination_by sizeOf tree
theorem listingAll_unpositionedAll (depth : Nat) (trees : List Tree) :
    listingAll depth (unpositionedAll trees) = listingAll depth trees := by
  cases trees with
  | nil => rfl
  | cons tree rest =>
      rw [unpositionedAll, listingAll, listingAll, listing_unpositioned depth tree,
        listingAll_unpositionedAll depth rest]
termination_by sizeOf trees
end

/-- Two trees whose parts have their places in one origin and no `@` in their labels have the same
listing exactly if they differ in the positions of their locations at most. -/
theorem listing_eq_iff (origin : String) (depth : Nat) (tree other : Tree)
    (named : tree.Named origin) (named' : other.Named origin) :
    tree.listing depth = other.listing depth ↔ tree.unpositioned = other.unpositioned := by
  constructor
  · intro same
    have nothing : Outside (depth + 1) [] := by simp [Outside]
    exact (listing_append_inj named named' nothing nothing (congrArg (· ++ []) same)).1
  · intro same
    rw [← listing_unpositioned, same, listing_unpositioned]

/-- A list of a character that is written in escaped form, `shift` characters into a text. -/
def listAt (shift : Nat) : Tree :=
  branch "list" ⟨"rip", shift, 1, 0⟩
    [branch "string" ⟨"rip", shift + 1, 1, 1⟩ [leaf "character" ⟨"\t", ⟨"rip", shift + 2, 1, 2⟩⟩]]

theorem listing_eq_iff_of_shifted :
    (listAt 0).Named "rip" ∧ (listAt 7).Named "rip" ∧
      (listAt 0).listing 1 = (listAt 7).listing 1 ∧
      (listAt 0).unpositioned = (listAt 7).unpositioned := by
  have named (shift : Nat) : (listAt shift).Named "rip" := by
    apply named_branch (by decide)
    intro child listed
    cases List.mem_singleton.mp listed
    apply named_branch (by decide)
    intro character listed
    cases List.mem_singleton.mp listed
    exact named_leaf (by decide)
  have same : (listAt 0).listing 1 = (listAt 7).listing 1 := rfl
  exact ⟨named 0, named 7, same, (listing_eq_iff "rip" 1 _ _ (named 0) (named 7)).mp same⟩

end RipInterpreter.Concrete.Tree
