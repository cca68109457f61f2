import ImportSupply.Glob.Expression

/-!
# Tokens of a glob

A glob is a row of tokens. Between slashes, two stars stand for any number of whole components:
at the start of a glob, at its end, or in its middle. Globs are matched against the bytes of a path,
so one wildcard stands for one byte.
-/

namespace ImportSupply.Glob

/-- A token of a glob. A group holds what its alternatives mean. -/
inductive Token where
  | literal (c : Char)
  /-- Any one byte. -/
  | any
  /-- Any bytes. -/
  | star
  /-- Any components before what follows. -/
  | leading
  /-- Any components between two slashes. -/
  | inner
  /-- All that lies below. -/
  | trailing
  /-- One byte of a class of character ranges, or one outside it. -/
  | oneOf (negated : Bool) (ranges : List (Char × Char))
  /-- One of some alternatives; nothing, if there are none. -/
  | group (alternatives : List (List Expression))

/-- The bytes of a character. -/
def bytesOf (c : Char) : List UInt8 :=
  (String.singleton c).toUTF8.toList

/-- The byte ranges of a range of characters: the last byte of the lower end up to the first byte of
the upper end, and their other bytes singly. -/
def byteRanges (range : Char × Char) : List (UInt8 × UInt8) :=
  if range.1 = range.2 then (bytesOf range.1).map fun byte => (byte, byte)
  else
    let low := bytesOf range.1
    let high := bytesOf range.2
    low.dropLast.map (fun byte => (byte, byte)) ++ [(low.getLastD 0, high.headD 0)] ++
      high.tail.map fun byte => (byte, byte)

namespace Token

/-- What a token means. -/
def expressions : Token → List Expression
  | literal c => (bytesOf c).map .byte
  | any => [.any]
  | star => [.anything]
  | leading => [.choice [[.maybeSlash], [.anything, .byte slash]]]
  | inner => [.choice [[.byte slash], [.byte slash, .anything, .byte slash]]]
  | trailing => [.byte slash, .anything]
  | oneOf negated ranges => [.oneOf negated (ranges.flatMap byteRanges)]
  | group alternatives => if alternatives.isEmpty then [] else [.choice alternatives]

/-- The group of some rows of tokens; rows that mean nothing are dropped. -/
def groupOf (branches : List (List Token)) : Token :=
  group ((branches.map fun branch => branch.flatMap expressions).filter fun row => !row.isEmpty)

/-- The character of a literal. -/
def literal? : Token → Option Char
  | literal c => some c
  | _ => none

end Token

end ImportSupply.Glob
