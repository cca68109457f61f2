import ImportSupply.Name
import ImportSupply.Pattern.Basic
import ImportSupply.Text.Basic

/-!
# The pieces of script statements

The small patterns that import, export and declaration patterns are put together from.
-/

namespace ImportSupply.Pattern

/-- The end of a word: exactly one of the two neighbours is a word character. -/
def wordEdge : Pattern Char :=
  between fun before after => before.any Text.isWord != after.any Text.isWord

/-- A text as it stands. -/
def text (characters : String) : Pattern Char :=
  exactly characters.toList

/-- Any number of blanks. -/
def blanks : Pattern Char :=
  many Text.isBlank

/-- At least one blank. -/
def gap : Pattern Char :=
  several Text.isBlank

/-- A name, as long as it goes. -/
def name : Pattern Char :=
  seq (one Name.isHead) (many Name.isTail)

/-- A word and at least one blank behind it, or nothing. -/
def maybeWord (characters : String) : Pattern Char :=
  maybe (all [text characters, gap])

/-- A quote that opens a module specifier. -/
def quote : Pattern Char :=
  one fun c => c == '\'' || c == '"'

/-- A body between brackets, remembered under a number: everything up to the first closing one. -/
def bracketed (opening closing : Char) (number : Nat) : Pattern Char :=
  all [one (· == opening), group number (many (· != closing)), one (· == closing)]

end ImportSupply.Pattern
