import ImportSupply.Json.Basic

/-!
# Writing JSON

Two layouts of a value: compact on one line, and indented by two spaces a level with one item or
member a line. Strings are escaped the same way in both.
-/

namespace ImportSupply.Json

/-- A hexadecimal digit in lower case. -/
def hexDigit (n : Nat) : Char :=
  if n < 10 then Char.ofNat (0x30 + n) else Char.ofNat (0x57 + n)

/-- A character inside a string: quotes and backslashes behind a backslash, control characters by
letter or by number, all else as it is. -/
def escapeChar (c : Char) : List Char :=
  if c = '"' then ['\\', '"']
  else if c = '\\' then ['\\', '\\']
  else if c = '\x08' then ['\\', 'b']
  else if c = '\t' then ['\\', 't']
  else if c = '\n' then ['\\', 'n']
  else if c = '\x0c' then ['\\', 'f']
  else if c = '\r' then ['\\', 'r']
  else if c.toNat < 0x20 then
    ['\\', 'u', '0', '0', hexDigit (c.toNat / 16), hexDigit (c.toNat % 16)]
  else [c]

/-- A string between quotes. -/
def writeString (text : String) : List Char :=
  '"' :: text.toList.flatMap escapeChar ++ ['"']

/-- A number as it was written. -/
def Numeral.write (numeral : Numeral) : List Char :=
  (if numeral.negative then ['-'] else []) ++ numeral.whole ++
    (if numeral.fraction.isEmpty then [] else '.' :: numeral.fraction) ++
    (match numeral.exponent with
    | none => []
    | some (negative, digits) => 'e' :: (if negative then ['-'] else []) ++ digits)

/-- A truth value. -/
def writeBool (value : Bool) : List Char :=
  if value then "true".toList else "false".toList

mutual

/-- A value on one line, without blanks. -/
def Value.compact : Value → List Char
  | .null => "null".toList
  | .bool value => writeBool value
  | .number value => value.write
  | .string value => writeString value
  | .array items => '[' :: compactItems items ++ [']']
  | .object members => '\x7b' :: compactMembers members ++ ['\x7d']

/-- Items with commas between them. -/
def compactItems : List Value → List Char
  | [] => []
  | [item] => item.compact
  | item :: next :: rest => item.compact ++ ',' :: compactItems (next :: rest)

/-- Members with commas between them. -/
def compactMembers : List (String × Value) → List Char
  | [] => []
  | [(key, value)] => writeString key ++ ':' :: value.compact
  | (key, value) :: next :: rest =>
      writeString key ++ ':' :: value.compact ++ ',' :: compactMembers (next :: rest)

end

/-- A line end and the indentation of a level. -/
def newLine (level : Nat) : List Char :=
  '\n' :: List.replicate (2 * level) ' '

mutual

/-- A value over several lines, its inner lines indented from a level on. -/
def Value.indented (level : Nat) : Value → List Char
  | .null => "null".toList
  | .bool value => writeBool value
  | .number value => value.write
  | .string value => writeString value
  | .array [] => ['[', ']']
  | .array (item :: rest) =>
      '[' :: newLine (level + 1) ++ indentedItems (level + 1) (item :: rest) ++ newLine level ++
        [']']
  | .object [] => ['\x7b', '\x7d']
  | .object (member :: rest) =>
      '\x7b' :: newLine (level + 1) ++ indentedMembers (level + 1) (member :: rest) ++
        newLine level ++ ['\x7d']

/-- Items with a comma and a line end between them. -/
def indentedItems (level : Nat) : List Value → List Char
  | [] => []
  | [item] => item.indented level
  | item :: next :: rest =>
      item.indented level ++ ',' :: newLine level ++ indentedItems level (next :: rest)

/-- Members with a comma and a line end between them. -/
def indentedMembers (level : Nat) : List (String × Value) → List Char
  | [] => []
  | [(key, value)] => writeString key ++ ':' :: ' ' :: value.indented level
  | (key, value) :: next :: rest =>
      writeString key ++ ':' :: ' ' :: value.indented level ++ ',' :: newLine level ++
        indentedMembers level (next :: rest)

end

end ImportSupply.Json
