import RipInterpreter.Parsing.Parser

namespace RipInterpreter

open Parsing

/-- An indented list of lines, each with its depth. -/
abbrev Listing : Type := List (Nat × String)

/-- The lines of a listing as text, one tab for each level. -/
def Listing.render (listing : Listing) : String :=
  String.join <| listing.map fun (depth, line) =>
    String.ofList (List.replicate depth '\t') ++ line ++ "\n"

namespace Concrete

/-- A labelled part of a source. -/
structure Tree where
  label : String
  location : Location
  text : Option String
  children : List Tree
deriving Inhabited

namespace Tree

def leaf (label : String) (span : Span) : Tree := ⟨label, span.location, some span.text, []⟩

def branch (label : String) (location : Location) (children : List Tree) : Tree :=
  ⟨label, location, none, children⟩

def content (tree : Tree) : String := tree.text.getD ""

/-- The line that stands for a tree without its parts. -/
def headline (tree : Tree) : String :=
  let head := tree.label ++ "@" ++ tree.location.text
  match tree.text with
  | some text => head ++ " " ++ Text.quoteText text
  | none => head

mutual
/-- One line for each part, the parts of a part below it and one level deeper. -/
def listing (depth : Nat) : Tree → Listing
  | ⟨label, location, text, children⟩ =>
    (depth, headline ⟨label, location, text, children⟩) :: listingAll (depth + 1) children
def listingAll (depth : Nat) : List Tree → Listing
  | [] => []
  | tree :: rest => tree.listing depth ++ listingAll depth rest
end

mutual
/-- Whether two trees agree in every label, place and text. -/
def same : Tree → Tree → Bool
  | ⟨label, location, text, children⟩, ⟨label₁, location₁, text₁, children₁⟩ =>
    label == label₁ && location == location₁ && text == text₁ && sameAll children children₁
def sameAll : List Tree → List Tree → Bool
  | [], [] => true
  | tree :: rest, tree₁ :: rest₁ => same tree tree₁ && sameAll rest rest₁
  | _, _ => false
end

end Tree

end Concrete

end RipInterpreter
