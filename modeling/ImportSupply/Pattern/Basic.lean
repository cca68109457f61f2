/-!
# Patterns

A pattern describes pieces of a text of symbols. Its only repetition is a run of one class of
symbols, so matching is by recursion on the pattern and, inside a run, on the text.

A pattern can match at one place in several ways. They are tried in an order of preference: the
first branch of a choice before the second, the shortest run of `few` first. A run of `many` goes
as far as its class does, and no other way is tried. `Pattern.run` hands each way on to a
continuation and returns the first success.
-/

namespace ImportSupply

/-- Descriptions of pieces of a text, with numbered groups. -/
inductive Pattern (α : Type) where
  /-- The empty piece. -/
  | nothing
  /-- One symbol of a class. -/
  | one (accept : α → Bool)
  /-- A run of symbols of a class, as far as it goes. -/
  | many (accept : α → Bool)
  /-- A run of symbols of a class, the shortest preferred. -/
  | few (accept : α → Bool)
  /-- The empty piece between two neighbours that are related. -/
  | between (related : Option α → Option α → Bool)
  /-- One piece and then another. -/
  | seq (first second : Pattern α)
  /-- Either of two pieces, the first preferred. -/
  | either (first second : Pattern α)
  /-- A piece that is remembered under a number. -/
  | group (number : Nat) (body : Pattern α)

/-- A place in a text: the symbol before it, how many symbols precede it, and what follows. -/
structure Place (α : Type) where
  before : Option α
  index : Nat
  rest : List α

/-- A remembered piece: its group, the text from its start on, and its length. -/
structure Capture (α : Type) where
  group : Nat
  tail : List α
  length : Nat

/-- The symbols of a remembered piece. -/
def Capture.piece {α : Type} (capture : Capture α) : List α :=
  capture.tail.take capture.length

namespace Pattern

variable {α β : Type}

/-- The place behind a run of a class. -/
def behindRun (accept : α → Bool) (before : Option α) (index : Nat) : List α → Place α
  | [] => ⟨before, index, []⟩
  | c :: rest =>
      if accept c then behindRun accept (some c) (index + 1) rest
      else ⟨before, index, c :: rest⟩

/-- Passes a run of a class, shortest first, handing each end on. -/
def runFew (accept : α → Bool) (next : Place α → Option β) (before : Option α) (index : Nat) :
    List α → Option β
  | [] => next ⟨before, index, []⟩
  | c :: rest =>
      match next ⟨before, index, c :: rest⟩ with
      | some result => some result
      | none => if accept c then runFew accept next (some c) (index + 1) rest else none

/-- Matches a pattern at a place and hands the place after it, with the pieces remembered so far,
on to a continuation: the result is that of the first way, in the order of preference, on which
the continuation succeeds. -/
def run : Pattern α → Place α → List (Capture α) → (Place α → List (Capture α) → Option β) →
    Option β
  | nothing, place, captures, next => next place captures
  | one accept, place, captures, next =>
      match place.rest with
      | [] => none
      | c :: rest => if accept c then next ⟨some c, place.index + 1, rest⟩ captures else none
  | many accept, place, captures, next =>
      next (behindRun accept place.before place.index place.rest) captures
  | few accept, place, captures, next =>
      runFew accept (next · captures) place.before place.index place.rest
  | between related, place, captures, next =>
      if related place.before place.rest.head? then next place captures else none
  | seq first second, place, captures, next =>
      first.run place captures fun middle remembered => second.run middle remembered next
  | either first second, place, captures, next =>
      match first.run place captures next with
      | some result => some result
      | none => second.run place captures next
  | group number body, place, captures, next =>
      body.run place captures fun after remembered =>
        next after (⟨number, place.rest, after.index - place.index⟩ :: remembered)

/-- Several pieces, one after another. -/
def all : List (Pattern α) → Pattern α
  | [] => nothing
  | [pattern] => pattern
  | pattern :: rest => seq pattern (all rest)

/-- One of several pieces, earlier ones preferred. -/
def anyOf : List (Pattern α) → Pattern α
  | [] => one fun _ => false
  | [pattern] => pattern
  | pattern :: rest => either pattern (anyOf rest)

/-- A piece or, failing that, nothing. -/
def maybe (pattern : Pattern α) : Pattern α :=
  either pattern nothing

/-- A non-empty run of a class, as far as it goes. -/
def several (accept : α → Bool) : Pattern α :=
  seq (one accept) (many accept)

/-- Given symbols, in order. -/
def exactly [BEq α] (symbols : List α) : Pattern α :=
  all (symbols.map fun symbol => one (· == symbol))

end Pattern

end ImportSupply
