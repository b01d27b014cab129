import RipInterpreter.Parsing.Failure
import RipInterpreter.Parsing.Source
import RipInterpreter.Text.Quoted

/-!
Parsers with ordered choice. A parser reads a source from a cursor on and answers with a value and
the cursor after it, or with a failure. Every failure is also recorded in the cursor, which keeps
the furthest one; backtracking moves the position back and never forgets a record.

A reply may also be `exhausted`: a parser that nests itself was given too few levels. No failure is
meant by it, and no combinator recovers from it.
-/

namespace RipInterpreter.Parsing

/-- A position in the source and the furthest failure recorded so far. -/
structure Cursor where
  position : Nat
  furthest : Option Failure
deriving Inhabited

/-- A piece of source text and the place of its first character. -/
structure Span where
  text : String
  location : Location
deriving DecidableEq, Inhabited

namespace Cursor

/-- The cursor in front of the first character, with nothing recorded. -/
def initial : Cursor := ⟨0, none⟩

def moveTo (cursor : Cursor) (position : Nat) : Cursor := { cursor with position := position }

def record (cursor : Cursor) (failure : Failure) : Cursor :=
  { cursor with furthest := some (Failure.furthest cursor.furthest failure) }

def peek (source : Source) (cursor : Cursor) : Option Char := source.chars[cursor.position]?

/-- The character at the cursor and the cursor behind it; the end of the text is not passed. -/
def advance (source : Source) (cursor : Cursor) : Option Char × Cursor :=
  match cursor.peek source with
  | some c => (some c, cursor.moveTo (cursor.position + 1))
  | none => (none, cursor)

/-- A failure at the cursor that tells what stands there. -/
def failureHere (source : Source) (cursor : Cursor) (message : String) : Failure where
  message := message
  expected := []
  found := some <| match cursor.peek source with
    | some c => Text.quoteChar c
    | none => "end of input"
  location := some (source.placeOf cursor.position)

def mismatch (source : Source) (cursor : Cursor) (expected : String) : Failure :=
  let message := match cursor.peek source with
    | some _ => "unexpected character"
    | none => "unexpected end of input"
  (cursor.failureHere source message).expecting expected

end Cursor

inductive Reply (α : Type) where
  | matched (value : α) (cursor : Cursor)
  | failed (failure : Failure) (cursor : Cursor)
  | exhausted

/-- A way to read a value from a source. -/
def Parser (α : Type) : Type := Source → Cursor → Reply α

namespace Parser

variable {α β : Type}

/-- Matches nothing and answers with `value`. -/
@[inline] protected def pure (value : α) : Parser α := fun _ cursor => .matched value cursor

/-- One parser after the other; the second is chosen by the value of the first. -/
@[inline] protected def bind (first : Parser α) (next : α → Parser β) : Parser β :=
  fun source cursor =>
    match first source cursor with
    | .matched value after => next value source after
    | .failed failure after => .failed failure after
    | .exhausted => .exhausted

instance : Monad Parser where
  pure := Parser.pure
  bind := Parser.bind

/-- Fails with a failure that is recorded first. -/
def refuse (failure : Failure) : Parser α := fun _ cursor => .failed failure (cursor.record failure)

/-- Both in order; the value is that of the first. -/
def keepLeft (first : Parser α) (second : Parser β) : Parser α := do
  let value ← first
  let _ ← second
  return value

/-- Both in order; the value is that of the second. -/
def keepRight (first : Parser α) (second : Parser β) : Parser β := do
  let _ ← first
  second

/-- The first parser, or the second from the same position if the first fails. -/
def orElse (first second : Parser α) : Parser α := fun source cursor =>
  match first source cursor with
  | .failed _ after => second source (after.moveTo cursor.position)
  | reply => reply

/-- The first of several parsers that matches; the last one's failure if none does. -/
def firstOf (first : Parser α) : List (Parser α) → Parser α
  | [] => first
  | next :: rest => first.orElse (firstOf next rest)

/-- Names a parser: its failures read as one failure at its start, where `name` was expected. -/
def label (name : String) (parser : Parser α) : Parser α := fun source cursor =>
  match parser source cursor with
  | .failed _ after =>
    let failure : Failure :=
      { message := "unexpected input"
        expected := [name]
        found := none
        location := some (source.placeOf cursor.position) }
    .failed failure (after.record failure)
  | reply => reply

def literal (expected : String) : Parser Span := fun source cursor =>
  if source.continuesWith cursor.position expected.toList then
    .matched ⟨expected, source.placeOf cursor.position⟩
      (cursor.moveTo (cursor.position + expected.length))
  else
    let failure := cursor.mismatch source (Text.quoteText expected)
    .failed failure (cursor.record failure)

/-- Matches one character of a class, which failures call `expected`. -/
def charWhere (accepts : Char → Bool) (expected : String) : Parser Span := fun source cursor =>
  match cursor.peek source with
  | some c =>
    if accepts c then
      .matched ⟨String.singleton c, source.placeOf cursor.position⟩
        (cursor.moveTo (cursor.position + 1))
    else
      let failure := cursor.mismatch source expected
      .failed failure (cursor.record failure)
  | none =>
    let failure := cursor.mismatch source expected
    .failed failure (cursor.record failure)

def anyChar : Parser Span := charWhere (fun _ => true) "any character"

/-- Matches nothing, and only where `parser` does not match. -/
def notFollowedBy (parser : Parser α) (expected : String) : Parser Unit := fun source cursor =>
  match parser source cursor with
  | .matched _ after =>
    let back := after.moveTo cursor.position
    let failure := (back.failureHere source "unexpected input").expecting expected
    .failed failure (back.record failure)
  | .failed _ after => .matched () (after.moveTo cursor.position)
  | .exhausted => .exhausted

def endOfInput : Parser Unit := fun source cursor =>
  if cursor.position < source.size then
    let failure := cursor.mismatch source "end of input"
    .failed failure (cursor.record failure)
  else .matched () cursor

def capture (parser : Parser α) : Parser Span := fun source cursor =>
  match parser source cursor with
  | .matched _ after =>
    .matched ⟨source.slice cursor.position after.position, source.placeOf cursor.position⟩ after
  | .failed failure after => .failed failure after
  | .exhausted => .exhausted

/-- What the parser matches, or nothing in its place if it fails. -/
def optional (parser : Parser α) : Parser (Option α) := fun source cursor =>
  match parser source cursor with
  | .matched value after => .matched (some value) after
  | .failed _ after => .matched none (after.moveTo cursor.position)
  | .exhausted => .exhausted

/-- Repeats a parser at most `rounds` times, until it fails or does not move on. -/
def manyUpTo (parser : Parser α) : (rounds : Nat) → Parser (List α)
  | 0, _, cursor => .matched [] cursor
  | rounds + 1, source, cursor =>
    match parser source cursor with
    | .matched value after =>
      if cursor.position < after.position then
        match manyUpTo parser rounds source after with
        | .matched values last => .matched (value :: values) last
        | reply => reply
      else .matched [] after
    | .failed _ after => .matched [] (after.moveTo cursor.position)
    | .exhausted => .exhausted

/-- Repeats a parser as often as it matches and moves on. Each round takes a character, so there
are at most as many as characters left. -/
def many (parser : Parser α) : Parser (List α) := fun source cursor =>
  manyUpTo parser (source.size - cursor.position + 1) source cursor

def manyOne (parser : Parser α) : Parser (List α) := do
  let first ← parser
  let rest ← many parser
  return first :: rest

/-- Zero or more items with separators between them; a separator at the end is not matched. -/
def separated (item : Parser α) (separator : Parser β) : Parser (List α) := do
  match ← optional item with
  | none => return []
  | some first =>
    let rest ← many (keepRight separator item)
    return first :: rest

/-- Repeats a parser, which must not fail, until `stops` holds at the position. -/
def repeatUntil (stops : Source → Nat → Bool) (parser : Parser α) : (rounds : Nat) → Parser (List α)
  | 0, _, _ => .exhausted
  | rounds + 1, source, cursor =>
    if stops source cursor.position then .matched [] cursor
    else match parser source cursor with
      | .matched value after =>
        match repeatUntil stops parser rounds source after with
        | .matched values last => .matched (value :: values) last
        | reply => reply
      | .failed failure after => .failed failure after
      | .exhausted => .exhausted

/-- Repeats a parser that takes a character each time until `stops` holds at the position. -/
def manyUntil (stops : Source → Nat → Bool) (parser : Parser α) : Parser (List α) :=
  fun source cursor => repeatUntil stops parser (source.size - cursor.position + 1) source cursor

def here : Parser Location := fun source cursor =>
  .matched (source.placeOf cursor.position) cursor

/-- A failure at the cursor, which is not recorded. -/
def failureHere (message : String) : Parser Failure := fun source cursor =>
  .matched (cursor.failureHere source message) cursor

/-- Fails with the furthest failure recorded so far, or with `message` if there is none. -/
def failFurthest (message : String) : Parser α := fun source cursor =>
  .failed (cursor.furthest.getD (cursor.failureHere source message)) cursor

/-- Reads a whole source from its start. A failure is reported as the furthest one recorded. -/
def readAll (parser : Parser α) (source : Source) : Reply α :=
  match parser source .initial with
  | .failed failure after => .failed (after.furthest.getD failure) after
  | reply => reply

end Parser

end RipInterpreter.Parsing
