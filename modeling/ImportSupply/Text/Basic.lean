/-!
# Texts

Texts are lists of characters. Their classes of characters are given by tables of code points;
blanks are the first of these, and texts are trimmed of them. A text is cut at the first or at the
last place where a separator starts, and measured in the bytes of its encoding.
-/

namespace ImportSupply.Text

/-! ## Tables of code points

A character property is given by the closed ranges of code points that have it, in increasing
order. -/

/-- Whether a code point lies in one of the ranges. -/
def inRanges (ranges : List (Nat × Nat)) (point : Nat) : Bool :=
  ranges.any fun range => range.1 ≤ point && point ≤ range.2

/-! ## Blanks

The property White_Space. The byte order mark is not blank. -/

/-- The ranges of white space beyond ASCII, in increasing order. -/
def blankRanges : List (Nat × Nat) :=
  [(0x85, 0x85), (0xA0, 0xA0), (0x1680, 0x1680), (0x2000, 0x200A), (0x2028, 0x2029),
  (0x202F, 0x202F), (0x205F, 0x205F), (0x3000, 0x3000)]

/-- White space of any script: the space, tabs, line ends, the no-break space and their kin. -/
def isBlank (c : Char) : Bool :=
  if c.toNat < 0x80 then c == ' ' || (0x9 ≤ c.toNat && c.toNat ≤ 0xD)
  else inRanges blankRanges c.toNat

/-- A text without the characters of a class that it starts with. -/
def dropStart (drop : Char → Bool) (text : List Char) : List Char :=
  text.dropWhile drop

/-- A text without the characters of a class that it ends with. -/
def dropEnd (drop : Char → Bool) (text : List Char) : List Char :=
  (text.reverse.dropWhile drop).reverse

/-- A text without the characters of a class at either end. -/
def dropEnds (drop : Char → Bool) (text : List Char) : List Char :=
  dropEnd drop (dropStart drop text)

/-- A text without the blanks it starts with. -/
def trimStart : List Char → List Char :=
  dropStart isBlank

/-- A text without the blanks at either end. -/
def trim : List Char → List Char :=
  dropEnds isBlank

/-- Whether a text holds nothing but blanks. -/
def isBlankText (text : List Char) : Bool :=
  text.all isBlank

/-! ## Cutting at a separator

The two sides exclude the separator. -/

/-- The two sides of the first occurrence of a separator. -/
def cutFirst (separator : List Char) : List Char → Option (List Char × List Char)
  | [] => none
  | c :: rest =>
      match separator.isPrefixOf? (c :: rest) with
      | some after => some ([], after)
      | none => (cutFirst separator rest).map fun sides => (c :: sides.1, sides.2)

/-- The two sides of the last occurrence of a separator. -/
def cutLast (separator : List Char) : List Char → Option (List Char × List Char)
  | [] => none
  | c :: rest =>
      match cutLast separator rest with
      | some sides => some (c :: sides.1, sides.2)
      | none => (separator.isPrefixOf? (c :: rest)).map fun after => ([], after)

/-! ## Bytes -/

/-- The number of bytes of a text. -/
def byteLength : List Char → Nat
  | [] => 0
  | c :: rest => c.utf8Size + byteLength rest

@[simp]
theorem byteLength_nil : byteLength [] = 0 :=
  rfl

@[simp]
theorem byteLength_cons (c : Char) (rest : List Char) :
    byteLength (c :: rest) = c.utf8Size + byteLength rest :=
  rfl

@[simp]
theorem byteLength_append (front back : List Char) :
    byteLength (front ++ back) = byteLength front + byteLength back := by
  induction front with
  | nil => simp
  | cons c rest ih => simp [ih, Nat.add_assoc]

end ImportSupply.Text
