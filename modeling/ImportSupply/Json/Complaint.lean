/-!
# What can be wrong with a JSON text

A text can stop too early, break the rules of the format, or hold a value of another shape than is
asked for. Each complaint has its wording and its category.
-/

namespace ImportSupply.Json

/-- The three kinds of complaint. -/
inductive Category where
  | eof
  | syntactic
  | data
  deriving DecidableEq, Repr

/-- What is wrong with a text, or with the value it holds. -/
inductive Complaint where
  | endInValue
  | endInList
  | endInObject
  | endInString
  | expectedValue
  | expectedIdent
  | expectedColon
  | expectedListEnd
  | expectedObjectEnd
  | keyNotString
  | trailingComma
  | trailingCharacters
  | invalidNumber
  | numberOutOfRange
  | invalidEscape
  | controlCharacter
  | endOfHexEscape
  | loneSurrogate
  | tooDeep
  | wrongType (got want : String)
  | wrongLength (length : Nat) (want : String)
  | missingField (name : String)
  | duplicateField (name : String)
  | noVariant (name : String)
  deriving DecidableEq, Repr

namespace Complaint

/-- The wording of a complaint. -/
def message : Complaint → String
  | endInValue => "EOF while parsing a value"
  | endInList => "EOF while parsing a list"
  | endInObject => "EOF while parsing an object"
  | endInString => "EOF while parsing a string"
  | expectedValue => "expected value"
  | expectedIdent => "expected ident"
  | expectedColon => "expected `:`"
  | expectedListEnd => "expected `,` or `]`"
  | expectedObjectEnd => "expected `,` or `\x7d`"
  | keyNotString => "key must be a string"
  | trailingComma => "trailing comma"
  | trailingCharacters => "trailing characters"
  | invalidNumber => "invalid number"
  | numberOutOfRange => "number out of range"
  | invalidEscape => "invalid escape"
  | controlCharacter => "control character (\\u0000-\\u001F) found while parsing a string"
  | endOfHexEscape => "unexpected end of hex escape"
  | loneSurrogate => "lone leading surrogate in hex escape"
  | tooDeep => "recursion limit exceeded"
  | wrongType got want => "invalid type: " ++ got ++ ", expected " ++ want
  | wrongLength length want => "invalid length " ++ Nat.repr length ++ ", expected " ++ want
  | missingField name => "missing field `" ++ name ++ "`"
  | duplicateField name => "duplicate field `" ++ name ++ "`"
  | noVariant name => "data did not match any variant of untagged enum " ++ name

/-- The kind of a complaint. -/
def category : Complaint → Category
  | endInValue | endInList | endInObject | endInString => .eof
  | wrongType _ _ | wrongLength _ _ | missingField _ | duplicateField _ | noVariant _ => .data
  | _ => .syntactic

end Complaint

end ImportSupply.Json
