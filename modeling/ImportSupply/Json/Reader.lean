import ImportSupply.Json.Outline
import ImportSupply.Text.Basic

/-!
# Reading JSON texts

The outline of a text, and typed readings of whole texts. Reading never fails outright: where the
text breaks, the outline says so.
-/

namespace ImportSupply.Json

namespace Reader

/-- The four characters that may stand between tokens. -/
def isSpace (c : Char) : Bool :=
  c == ' ' || c == '\t' || c == '\n' || c == '\r'

/-- The text from its next token on. -/
def skipSpace (text : List Char) : List Char :=
  text.dropWhile isSpace

/-- What is left behind the letters of a word. -/
def expectLetters : List Char → List Char → Except Complaint (List Char)
  | [], rest => .ok rest
  | _ :: _, [] => .error .endInValue
  | letter :: letters, c :: rest =>
      if c == letter then expectLetters letters rest else .error .expectedIdent

/-- A word that stands for a value, and what is left behind it. -/
def readWord (value : Outline) (letters : String) (text : List Char) : Outline × List Char :=
  match expectLetters letters.toList text with
  | .ok rest => (value, rest)
  | .error complaint => (.broken (.plain complaint), [])

/-- The value of a hexadecimal digit. -/
def hexValue? (c : Char) : Option Nat :=
  if c.isDigit then some (c.toNat - 0x30)
  else if 'a' ≤ c && c ≤ 'f' then some (c.toNat - 0x57)
  else if 'A' ≤ c && c ≤ 'F' then some (c.toNat - 0x37)
  else none

/-- The number that four hexadecimal digits write. -/
def hexUnit? (a b c d : Char) : Option Nat := do
  let high ← hexValue? a
  let upper ← hexValue? b
  let lower ← hexValue? c
  let low ← hexValue? d
  return ((high * 16 + upper) * 16 + lower) * 16 + low

/-- The complaint about digits that make no number: fewer than four bytes are left, or they are no
digits. -/
def badUnit (rest : List Char) : Complaint :=
  if Text.byteLength rest < 4 then .endInString else .invalidEscape

/-- Whether a number is the first half of a surrogate pair. -/
def isLeading (unit : Nat) : Bool :=
  0xD800 ≤ unit && unit ≤ 0xDBFF

/-- Whether a number is the second half of a surrogate pair. -/
def isTrailing (unit : Nat) : Bool :=
  0xDC00 ≤ unit && unit ≤ 0xDFFF

/-- What follows the first half of a pair. -/
inductive Follower where
  /-- Its second half. -/
  | trailing (unit : Nat)
  /-- Something else, of which reading complains. -/
  | other (complaint : Complaint)
  /-- A text that breaks before this can be said. -/
  | undecided

/-- What follows the first half of a pair, looked at without passing it. -/
def follower : List Char → Follower
  | [] => .undecided
  | '\\' :: [] => .undecided
  | '\\' :: 'u' :: a :: b :: c :: d :: _ =>
      match hexUnit? a b c d with
      | some unit => if isTrailing unit then .trailing unit else .other .loneSurrogate
      | none => .undecided
  | '\\' :: 'u' :: _ => .undecided
  | _ => .other .endOfHexEscape

/-- A string: the text it spells or what reading it complains of, and what is left behind its quote
or where it breaks. -/
structure Spelled where
  text : Except Complaint (List Char)
  ending : Except Complaint (List Char)

namespace Spelled

/-- A string that breaks here. -/
def fault (complaint : Complaint) : Spelled :=
  ⟨.ok [], .error complaint⟩

/-- A string with one more character in front. -/
def push (c : Char) (spelled : Spelled) : Spelled :=
  ⟨spelled.text.map (c :: ·), spelled.ending⟩

/-- A string whose reading complains here. -/
def spoil (complaint : Complaint) (spelled : Spelled) : Spelled :=
  ⟨.error complaint, spelled.ending⟩

end Spelled

/-- The character that a letter behind a backslash stands for. -/
def escaped? (c : Char) : Option Char :=
  if c = '"' ∨ c = '\\' ∨ c = '/' then some c
  else if c = 'b' then some '\x08'
  else if c = 'f' then some '\x0c'
  else if c = 'n' then some '\n'
  else if c = 'r' then some '\r'
  else if c = 't' then some '\t'
  else none

/-- The rest of a string behind its opening quote. The flag says that the next escape is the second
half of a pair whose character is already spelled. -/
def readString (halfSpelled : Bool) : List Char → Spelled
  | [] => .fault .endInString
  | c :: rest =>
      if c = '"' then ⟨.ok [], .ok rest⟩
      else if c = '\\' then
        match rest with
        | [] => .fault .endInString
        | letter :: behind =>
            if letter = 'u' then
              match behind with
              | a :: b :: c :: d :: after =>
                  match hexUnit? a b c d with
                  | none => .fault (badUnit behind)
                  | some unit =>
                      -- the first half has looked ahead and spelled the pair
                      if halfSpelled then readString false after
                      else if isTrailing unit then (readString false after).spoil .loneSurrogate
                      else if isLeading unit then
                        match follower after with
                        | .trailing second =>
                            (readString true after).push
                              (Char.ofNat
                                (0x10000 + (unit - 0xD800) * 0x400 + (second - 0xDC00)))
                        | .other complaint => (readString false after).spoil complaint
                        -- reading on meets the fault that the look ahead stopped at
                        | .undecided => readString false after
                      else (readString false after).push (Char.ofNat unit)
              | _ => .fault (badUnit behind)
            else
              match escaped? letter with
              | some meant => (readString false behind).push meant
              | none => .fault .invalidEscape
      else if c.toNat < 0x20 then .fault .controlCharacter
      else (readString false rest).push c

/-- The fault of a string that breaks: reading may have complained earlier. -/
def stringFault (spelled : Spelled) (complaint : Complaint) : Fault :=
  match spelled.text with
  | .ok _ => .plain complaint
  | .error earlier => ⟨earlier, complaint⟩

/-- A string value, from behind its opening quote. -/
def readStringValue (text : List Char) : Outline × List Char :=
  let spelled := readString false text
  match spelled.ending with
  | .ok rest => (.string (spelled.text.map String.ofList), rest)
  | .error complaint => (.broken (stringFault spelled complaint), [])

/-- Where a number lacks a digit: at the end of the text, or before something else. -/
def numberFault (rest : List Char) : Fault :=
  if rest.isEmpty then ⟨.endInValue, .invalidNumber⟩ else .plain .invalidNumber

/-- The digits a text starts with, and what is left. -/
def spanDigits (text : List Char) : List Char × List Char :=
  text.span Char.isDigit

/-- The digits before the point: a single zero, or digits that start with no zero. -/
def readWhole (text : List Char) : Except Fault (List Char × List Char) :=
  let (digits, rest) := spanDigits text
  match digits with
  | [] => .error (numberFault rest)
  | '0' :: _ :: _ => .error (.plain .invalidNumber)
  | _ => .ok (digits, rest)

/-- The digits behind a point, if there is one. -/
def readFraction : List Char → Except Fault (List Char × List Char)
  | '.' :: text =>
      let (digits, rest) := spanDigits text
      if digits.isEmpty then .error (numberFault rest) else .ok (digits, rest)
  | rest => .ok ([], rest)

/-- The sign of an exponent. -/
def readSign : List Char → Bool × List Char
  | '+' :: rest => (false, rest)
  | '-' :: rest => (true, rest)
  | rest => (false, rest)

/-- An exponent, if there is one. -/
def readExponent : List Char → Except Fault (Option (Bool × List Char) × List Char)
  | [] => .ok (none, [])
  | c :: text =>
      if c = 'e' ∨ c = 'E' then
        let (negative, behind) := readSign text
        let (digits, rest) := spanDigits behind
        if digits.isEmpty then .error (numberFault rest) else .ok (some (negative, digits), rest)
      else .ok (none, c :: text)

/-- A number, from behind its sign. -/
def readNumber (negative : Bool) (text : List Char) : Outline × List Char :=
  let parts := do
    let (whole, afterWhole) ← readWhole text
    let (fraction, afterFraction) ← readFraction afterWhole
    let (exponent, rest) ← readExponent afterFraction
    return ((⟨negative, whole, fraction, exponent⟩ : Numeral), rest)
  match parts with
  | .ok (numeral, rest) => (.number numeral, rest)
  | .error fault => (.broken fault, [])

mutual

/-- The value a text starts with, and what is left behind it. Each call passes at least one
character or goes one step on in an array or object, so three times the length of the text is fuel
enough. -/
def readValue : Nat → List Char → Outline × List Char
  | 0, _ => (.broken (.plain .endInValue), [])
  | fuel + 1, text =>
      match skipSpace text with
      | [] => (.broken (.plain .endInValue), [])
      | c :: rest =>
          if c = 'n' then readWord .null "ull" rest
          else if c = 't' then readWord (.bool true) "rue" rest
          else if c = 'f' then readWord (.bool false) "alse" rest
          else if c = '-' then readNumber true rest
          else if c.isDigit then readNumber false (c :: rest)
          else if c = '"' then readStringValue rest
          else if c = '[' then
            let (items, after) := readItems fuel true rest
            (.array items, after)
          else if c = '\x7b' then
            let (members, after) := readMembers fuel true rest
            (.object members, after)
          else (.broken (.plain .expectedValue), [])

/-- The items of an array from here on, the first one or a later one. -/
def readItems : Nat → (first : Bool) → List Char → Items × List Char
  | 0, _, _ => (.broken (.plain .endInList), [])
  | fuel + 1, first, text =>
      match skipSpace text with
      | [] => (.broken (.plain .endInList), [])
      | c :: rest =>
          if c = ']' then (.done, rest)
          else if first then
            let (item, after) := readValue fuel (c :: rest)
            let (others, left) := readItems fuel false after
            (.more item others, left)
          else if c = ',' then
            if (skipSpace rest).head? = some ']' then
              (.broken ⟨.trailingComma, .expectedValue⟩, [])
            else
              let (item, after) := readValue fuel rest
              let (others, left) := readItems fuel false after
              (.more item others, left)
          else (.broken (.plain .expectedListEnd), [])

/-- The members of an object from here on, the first one or a later one. -/
def readMembers : Nat → (first : Bool) → List Char → Members × List Char
  | 0, _, _ => (.broken (.plain .endInObject), [])
  | fuel + 1, first, text =>
      match skipSpace text with
      | [] => (.broken (.plain .endInObject), [])
      | c :: rest =>
          if c = '\x7d' then (.done, rest)
          else if first then
            if c = '"' then readMember fuel rest else (.broken (.plain .keyNotString), [])
          else if c = ',' then
            match skipSpace rest with
            | [] => (.broken ⟨.endInValue, .endInObject⟩, [])
            | '"' :: behind => readMember fuel behind
            | '\x7d' :: _ => (.broken ⟨.trailingComma, .keyNotString⟩, [])
            | _ => (.broken (.plain .keyNotString), [])
          else (.broken (.plain .expectedObjectEnd), [])

/-- A member from behind its key's opening quote, and the members after it. -/
def readMember : Nat → List Char → Members × List Char
  | 0, _ => (.broken (.plain .endInObject), [])
  | fuel + 1, text =>
      let spelled := readString false text
      match spelled.ending with
      | .error complaint => (.broken (stringFault spelled complaint), [])
      | .ok behind =>
          let key := spelled.text.map String.ofList
          match skipSpace behind with
          | [] => (.more key (.broken (.plain .endInObject)) .done, [])
          | c :: rest =>
              if c = ':' then
                let (value, after) := readValue fuel rest
                let (others, left) := readMembers fuel false after
                (.more key value others, left)
              else (.more key (.broken (.plain .expectedColon)) .done, [])

end

end Reader

/-- The outline of the value a text starts with, and what is left behind it. -/
def outlineOf (text : List Char) : Outline × List Char :=
  Reader.readValue (3 * text.length + 3) text

/-- Reads a text as one value: the outline first, then that nothing but space follows. -/
def readText {α : Type} (read : Outline → Except Complaint α) (text : List Char) :
    Except Complaint α := do
  let (outline, rest) := outlineOf text
  let value ← read outline
  if (Reader.skipSpace rest).isEmpty then return value else .error .trailingCharacters

end ImportSupply.Json
