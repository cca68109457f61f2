/-!
# Expressions over bytes

What a glob means is a row of expressions, matched against the bytes of a path. An expression is
matched without going back: from the places of a text that have been reached, it gives the places
that can be reached behind it. An expression is also spelled out, and how deep the spelling nests is
counted.
-/

namespace ImportSupply.Glob

/-- What a part of a path can be. -/
inductive Expression where
  | byte (value : UInt8)
  /-- Any one byte. -/
  | any
  /-- Any bytes. -/
  | anything
  /-- A slash or nothing. -/
  | maybeSlash
  /-- One byte of a class of ranges, or one outside it. -/
  | oneOf (negated : Bool) (ranges : List (UInt8 × UInt8))
  /-- One of some rows. -/
  | choice (rows : List (List Expression))

/-- The slash, as a byte. -/
def slash : UInt8 :=
  0x2F

/-! ## Matching

A set of places of a text is a list of marks: one for the place before each byte, and one for the
end. -/

/-- The places behind one accepted byte. -/
def behindOne (accepts : UInt8 → Bool) (text : List UInt8) (marks : List Bool) : List Bool :=
  false :: List.zipWith (fun byte mark => mark && accepts byte) text marks

/-- The places at or behind a marked one; `seen` says whether one has been passed. -/
def behindAny (seen : Bool) : List Bool → List Bool
  | [] => []
  | mark :: rest => (seen || mark) :: behindAny (seen || mark) rest

/-- Whether a byte is in a class. -/
def inClass (negated : Bool) (ranges : List (UInt8 × UInt8)) (byte : UInt8) : Bool :=
  negated != ranges.any fun range => range.1 ≤ byte && byte ≤ range.2

mutual

/-- The places that an expression leads to from some places. -/
def Expression.reach (text : List UInt8) : Expression → List Bool → List Bool
  | .byte value, marks => behindOne (· == value) text marks
  | .any, marks => behindOne (fun _ => true) text marks
  | .anything, marks => behindAny false marks
  | .maybeSlash, marks => List.zipWith or marks (behindOne (· == slash) text marks)
  | .oneOf negated ranges, marks => behindOne (inClass negated ranges) text marks
  | .choice rows, marks => reachAny text rows marks

/-- The places that a row leads to from some places. -/
def reachRow (text : List UInt8) : List Expression → List Bool → List Bool
  | [], marks => marks
  | first :: rest, marks => reachRow text rest (first.reach text marks)

/-- The places that one of some rows leads to. -/
def reachAny (text : List UInt8) : List (List Expression) → List Bool → List Bool
  | [], marks => marks.map fun _ => false
  | row :: rest, marks => List.zipWith or (reachRow text row marks) (reachAny text rest marks)

end

/-- Whether a row matches a whole text. -/
def rowMatches (row : List Expression) (text : List UInt8) : Bool :=
  (reachRow text row (true :: text.map fun _ => false)).getLastD false

/-! ## Spelling -/

/-- Whether a character has a meaning of its own in a spelled expression. -/
def isSign (c : Char) : Bool :=
  "\\.+*?()|[]\x7b\x7d^$#&-~".toList.contains c

/-- A byte spelled out: by its number beyond ASCII, behind a backslash if it is a sign. -/
def spellByte (byte : UInt8) : List Char :=
  if byte < 0x80 then
    let c := Char.ofNat byte.toNat
    if isSign c then ['\\', c] else [c]
  else '\\' :: 'x' :: Nat.toDigits 16 byte.toNat

/-- A range of bytes spelled out, a single byte as itself. -/
def spellRange (range : UInt8 × UInt8) : List Char :=
  if range.1 = range.2 then spellByte range.1
  else spellByte range.1 ++ '-' :: spellByte range.2

mutual

/-- An expression spelled out. -/
def Expression.spell : Expression → List Char
  | .byte value => spellByte value
  | .any => ['.']
  | .anything => ['.', '*']
  | .maybeSlash => ['/', '?']
  | .oneOf negated ranges =>
      '[' :: (if negated then ['^'] else []) ++ ranges.flatMap spellRange ++ [']']
  | .choice rows => '(' :: '?' :: ':' :: spellRows rows ++ [')']

/-- A row spelled out. -/
def spellRow : List Expression → List Char
  | [] => []
  | first :: rest => first.spell ++ spellRow rest

/-- Rows spelled out, with bars between them. -/
def spellRows : List (List Expression) → List Char
  | [] => []
  | [row] => spellRow row
  | row :: rest => spellRow row ++ '|' :: spellRows rest

end

/-! ## Nesting -/

mutual

/-- How deep an expression nests: single bytes do not; groups, bars, rows of several expressions,
repetitions and classes each count once, a class of several ranges twice. -/
def Expression.depth : Expression → Nat
  | .byte _ => 0
  | .any => 0
  | .anything => 1
  | .maybeSlash => 1
  | .oneOf _ ranges => if ranges.length ≤ 1 then 1 else 2
  | .choice rows => (if rows.length ≤ 1 then 1 else 2) + depthOfRows rows

/-- How deep a row nests below the row itself. -/
def depthInRow : List Expression → Nat
  | [] => 0
  | first :: rest => max first.depth (depthInRow rest)

/-- How deep the deepest of some rows nests. -/
def depthOfRows : List (List Expression) → Nat
  | [] => 0
  | row :: rest =>
      max ((if row.length ≤ 1 then 0 else 1) + depthInRow row) (depthOfRows rest)

end

end ImportSupply.Glob
