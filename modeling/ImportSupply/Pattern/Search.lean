import ImportSupply.Pattern.Basic

/-!
# Searching a text for a pattern

The matches of a pattern in a text are found from left to right: at each place the most preferred
way counts, and the search goes on behind it, so that matches never overlap.
-/

namespace ImportSupply

/-- One place where a pattern matches: where it starts, how long it is, what it remembered. -/
structure Match (α : Type) where
  index : Nat
  length : Nat
  captures : List (Capture α)

/-- The piece remembered under a number, if the match went through that group. -/
def Match.piece? {α : Type} (found : Match α) (number : Nat) : Option (List α) :=
  (found.captures.find? fun capture => capture.group == number).map Capture.piece

namespace Pattern

variable {α : Type}

/-- The most preferred match that starts at a place. -/
def matchAt (pattern : Pattern α) (place : Place α) : Option (Match α) :=
  pattern.run place [] fun after captures =>
    some ⟨place.index, after.index - place.index, captures⟩

/-- The matches from a place on, where the next `skip` symbols belong to an earlier match. -/
def matchesFrom (pattern : Pattern α) :
    (skip : Nat) → (before : Option α) → (index : Nat) → List α → List (Match α)
  | _, _, _, [] => []
  | skip + 1, _, index, c :: rest => matchesFrom pattern skip (some c) (index + 1) rest
  | 0, before, index, c :: rest =>
      match pattern.matchAt ⟨before, index, c :: rest⟩ with
      | some found =>
          found :: matchesFrom pattern (found.length - 1) (some c) (index + 1) rest
      | none => matchesFrom pattern 0 (some c) (index + 1) rest

/-- All matches in a text, from left to right, without overlap. -/
def allMatches (pattern : Pattern α) (text : List α) : List (Match α) :=
  pattern.matchesFrom 0 none 0 text

/-- The leftmost match in a text. -/
def firstMatch? (pattern : Pattern α) (text : List α) : Option (Match α) :=
  (pattern.allMatches text).head?

end Pattern

end ImportSupply
