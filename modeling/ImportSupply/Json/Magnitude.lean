import ImportSupply.Decimal.Shortest
import ImportSupply.Json.Basic
import ImportSupply.Json.Complaint

/-!
# The number a numeral stands for

A numeral without point and exponent that fits in 64 bits is an integer. Every other numeral is a
double: the leading digits that fit in 64 bits, times or divided by a power of ten.
-/

namespace ImportSupply.Json

/-- The number a numeral stands for. -/
inductive Magnitude where
  | integer (value : Int)
  | real (value : Float)

namespace Magnitude

/-- The first of sixty-four bits. -/
def signBit : Nat :=
  0x8000000000000000

/-- The value of a decimal digit. -/
def digitValue (c : Char) : Nat :=
  c.toNat - 0x30

/-- Takes up digits while the number they make fits in 64 bits; also how many digits are left. -/
def takeDigits (significand : Nat) : List Char → Nat × Nat
  | [] => (significand, 0)
  | c :: rest =>
      let next := significand * 10 + digitValue c
      if next ≤ 0xFFFFFFFFFFFFFFFF then takeDigits next rest else (significand, rest.length + 1)

/-- An exponent of at most 31 bits; `none` if it is larger. -/
def smallExponent? (digits : List Char) : Option Nat :=
  let value := digits.foldl (fun n c => n * 10 + digitValue c) 0
  if value ≤ 0x7FFFFFFF then some value else none

/-- A whole number times a power of ten, as far as doubles reach: one multiplication by a power up
to `10 ^ 308`, or divisions, by `10 ^ 308` while the exponent is below that. -/
def scale (value : Float) (exponent : Int) : Nat → Except Complaint Float
  | 0 => .ok value
  | fuel + 1 =>
      if exponent.natAbs ≤ 308 then
        let power := Float.ofScientific 1 false exponent.natAbs
        if 0 ≤ exponent then
          let product := value * power
          if product.isInf then .error .numberOutOfRange else .ok product
        else .ok (value / power)
      else if value == 0 then .ok value
      else if 0 ≤ exponent then .error .numberOutOfRange
      else scale (value / Float.ofScientific 1 false 308) (exponent + 308) fuel

/-- A double from its sign, its leading digits and a power of ten. -/
def ofParts (negative : Bool) (significand : Nat) (exponent : Int) :
    Except Complaint Magnitude := do
  let value ← scale (Float.ofNat significand) exponent 16
  return .real (if negative then -value else value)

/-- The power of ten that a numeral's own exponent adds; too large a one leaves the range or makes
the number zero. -/
def withExponent (negative : Bool) (significand : Nat) (exponent : Int) :
    Option (Bool × List Char) → Except Complaint Magnitude
  | none => ofParts negative significand exponent
  | some (down, digits) =>
      match smallExponent? digits with
      | some small =>
          ofParts negative significand (if down then exponent - small else exponent + small)
      | none =>
          if significand != 0 && !down then .error .numberOutOfRange
          else .ok (.real (if negative then -0.0 else 0.0))

end Magnitude

/-- The number a numeral stands for, unless it is too large for a double. -/
def Numeral.magnitude (numeral : Numeral) : Except Complaint Magnitude :=
  let (leading, dropped) := Magnitude.takeDigits 0 numeral.whole
  if dropped == 0 && numeral.fraction.isEmpty && numeral.exponent.isNone then
    if !numeral.negative then .ok (.integer leading)
    else if leading == 0 then .ok (.real (-0.0))
    else if leading ≤ Magnitude.signBit then .ok (.integer (-(leading : Int)))
    else .ok (.real (-(Float.ofNat leading)))
  else
    let (significand, ignored) := Magnitude.takeDigits leading numeral.fraction
    let places := numeral.fraction.length - ignored
    Magnitude.withExponent numeral.negative significand ((dropped : Int) - places)
      numeral.exponent

namespace Magnitude

/-- Digits with a point: positional while the number has at most sixteen places before the point
and at most four zeros behind it, otherwise with an exponent that always shows its sign. -/
def writeScaled (decimal : Decimal.Scaled) : List Char :=
  let digits := Nat.toDigits 10 decimal.digits
  let point : Int := digits.length + decimal.exponent
  if 0 ≤ decimal.exponent && point ≤ 16 then
    digits ++ List.replicate decimal.exponent.toNat '0' ++ ['.', '0']
  else if 0 < point && point ≤ 16 then
    digits.take point.toNat ++ '.' :: digits.drop point.toNat
  else if -5 < point && point ≤ 0 then
    '0' :: '.' :: List.replicate (-point).toNat '0' ++ digits
  else
    digits.take 1 ++ (if digits.length == 1 then [] else '.' :: digits.drop 1) ++
      'e' :: (if 0 < point then ['+'] else []) ++ (Int.repr (point - 1)).toList

/-- The fewest digits of a double. -/
def writeReal (value : Float) : List Char :=
  let bits := value.toBits.toNat
  (if signBit ≤ bits then ['-'] else []) ++ writeScaled (Decimal.shortest (bits % signBit))

/-- How a complaint names a number. -/
def describe : Magnitude → String
  | integer value => "integer `" ++ Int.repr value ++ "`"
  | real value => "floating point `" ++ String.ofList (writeReal value) ++ "`"

end Magnitude

end ImportSupply.Json
