import ImportSupply.Text.GraphemeExtend
import ImportSupply.Text.Mark
import ImportSupply.Text.Unprintable

/-!
# Quoted texts in messages

A message shows a text between double quotes. What cannot be seen is shown by letter or by number:
what is drawn on the character before it, what is unprintable, and what has the property
Default_Ignorable_Code_Point, as fillers, joiners and selectors have.
-/

namespace ImportSupply.Text

/-- The ranges of ignorable characters, in increasing order. -/
def ignorableRanges : List (Nat × Nat) :=
  [(0xAD, 0xAD), (0x34F, 0x34F), (0x61C, 0x61C), (0x115F, 0x1160), (0x17B4, 0x17B5),
  (0x180B, 0x180F), (0x200B, 0x200F), (0x202A, 0x202E), (0x2060, 0x206F), (0x3164, 0x3164),
  (0xFE00, 0xFE0F), (0xFEFF, 0xFEFF), (0xFFA0, 0xFFA0), (0xFFF0, 0xFFF8), (0x1BCA0, 0x1BCA3),
  (0x1D173, 0x1D17A), (0xE0000, 0xE0FFF)]

/-- Characters that show nothing by default. -/
def isIgnorable (c : Char) : Bool :=
  if c.toNat < 0x80 then false else inRanges ignorableRanges c.toNat

/-- Whether a character cannot be seen alone: it is drawn on the one before it, or shows nothing. -/
def isUnseen (c : Char) : Bool :=
  (isMark c && isGraphemeExtend c) || isIgnorable c || isUnprintable c

/-- A character between quotes: the usual letters behind a backslash, the code point in braces for
what cannot be seen alone, all else as it is. -/
def quoteChar (c : Char) : List Char :=
  if c = Char.ofNat 0 then ['\\', '0']
  else if c = '\t' then ['\\', 't']
  else if c = '\r' then ['\\', 'r']
  else if c = '\n' then ['\\', 'n']
  else if c = '\\' then ['\\', '\\']
  else if c = '"' then ['\\', '"']
  else if isUnseen c then
    '\\' :: 'u' :: '\x7b' :: Nat.toDigits 16 c.toNat ++ ['\x7d']
  else [c]

/-- A text between double quotes, as messages show it. -/
def quoted (text : String) : String :=
  String.ofList ('"' :: text.toList.flatMap quoteChar ++ ['"'])

end ImportSupply.Text
