import ImportSupply.Text.Alphabetic
import ImportSupply.Text.Mark
import ImportSupply.Text.Number

/-!
# Words and names

A *name* as statements bind it starts with an ASCII letter, `_` or `$` and goes on with word
characters and `$`. A *run* as uses are found in is made of alphanumeric characters, `_` and `$`.

Word characters and alphanumeric characters look alike and differ: a superscript digit is
alphanumeric and no word character, a combining accent is a word character and not alphanumeric. A
recent letter is alphanumeric and not yet a word character, for the tables of character properties
follow version 17 of Unicode, and patterns follow version 16.
-/

namespace ImportSupply.Text

/-- The ranges of recent characters, in increasing order. -/
def recentRanges : List (Nat × Nat) :=
  [(0x88F, 0x88F), (0xC5C, 0xC5C), (0xCDC, 0xCDC), (0x1ACF, 0x1ADD), (0x1AE0, 0x1AEB),
  (0x20C1, 0x20C1), (0x2B96, 0x2B96), (0xA7CE, 0xA7CF), (0xA7D2, 0xA7D2), (0xA7D4, 0xA7D4),
  (0xA7F1, 0xA7F1), (0xFBC3, 0xFBD2), (0xFD90, 0xFD91), (0xFDC8, 0xFDCE), (0x10940, 0x10959),
  (0x10EC5, 0x10EC7), (0x10ED0, 0x10ED8), (0x10EFA, 0x10EFB), (0x11B60, 0x11B67),
  (0x11DB0, 0x11DDB), (0x11DE0, 0x11DE9), (0x16EA0, 0x16EB8), (0x16EBB, 0x16ED3),
  (0x16FF2, 0x16FF6), (0x187F8, 0x187FF), (0x18D09, 0x18D1E), (0x18D80, 0x18DF2),
  (0x1CCFA, 0x1CCFC), (0x1CEBA, 0x1CED0), (0x1CEE0, 0x1CEF0), (0x1E6C0, 0x1E6DE),
  (0x1E6E0, 0x1E6F5), (0x1E6FE, 0x1E6FF), (0x1F6D8, 0x1F6D8), (0x1F777, 0x1F77A),
  (0x1F8D0, 0x1F8D8), (0x1FA54, 0x1FA57), (0x1FA8A, 0x1FA8A), (0x1FA8E, 0x1FA8E),
  (0x1FAC8, 0x1FAC8), (0x1FACD, 0x1FACD), (0x1FAEA, 0x1FAEA), (0x1FAEF, 0x1FAEF),
  (0x1FBFA, 0x1FBFA), (0x2B73A, 0x2B73F), (0x2CEA2, 0x2CEAD), (0x323B0, 0x33479)]

/-- Characters that version 17 of Unicode added. -/
def isRecent (c : Char) : Bool :=
  if c.toNat < 0x80 then false else inRanges recentRanges c.toNat

/-- The ranges of connector punctuation and of the two joiners, in increasing order. -/
def connectorRanges : List (Nat × Nat) :=
  [(0x5F, 0x5F), (0x200C, 0x200D), (0x203F, 0x2040), (0x2054, 0x2054), (0xFE33, 0xFE34),
  (0xFE4D, 0xFE4F), (0xFF3F, 0xFF3F)]

/-- The characters a word is made of: alphabetic characters, marks, decimal digits, connector
punctuation and joiners, all but the recent ones. -/
def isWord (c : Char) : Bool :=
  if c.toNat < 0x80 then c.isAlphanum || c == '_'
  else
    (isAlphabetic c || isMark c || isDecimalDigit c || inRanges connectorRanges c.toNat) &&
      !isRecent c

/-- Alphabetic or numeric characters. -/
def isAlphanumeric (c : Char) : Bool :=
  isAlphabetic c || isNumeric c

end ImportSupply.Text

namespace ImportSupply.Name

/-- The characters a bound name may start with. -/
def isHead (c : Char) : Bool :=
  c.isAlpha || c == '_' || c == '$'

/-- The characters a bound name may go on with. -/
def isTail (c : Char) : Bool :=
  Text.isWord c || c == '$'

/-- The characters of a run. -/
def isRunChar (c : Char) : Bool :=
  Text.isAlphanumeric c || c == '_' || c == '$'

/-- Whether a text is a name that a statement can bind. -/
def isBindable : List Char → Bool
  | [] => false
  | c :: rest => isHead c && rest.all isTail

end ImportSupply.Name
