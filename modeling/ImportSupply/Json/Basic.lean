/-!
# JSON values

Objects keep the order of their members and may repeat a key. A number is kept as it is written.
-/

namespace ImportSupply.Json

/-- A decimal number as it is written: digits before and behind the point, and an exponent with its
sign. -/
structure Numeral where
  negative : Bool
  whole : List Char
  fraction : List Char
  exponent : Option (Bool × List Char)
  deriving DecidableEq, Repr

/-- The numeral of a natural number. -/
def Numeral.ofNat (n : Nat) : Numeral :=
  ⟨false, Nat.toDigits 10 n, [], none⟩

/-- A JSON value. -/
inductive Value where
  | null
  | bool (value : Bool)
  | number (value : Numeral)
  | string (value : String)
  | array (items : List Value)
  | object (members : List (String × Value))
  deriving Repr, Inhabited

namespace Value

/-- The number of a natural number. -/
def ofNat (n : Nat) : Value :=
  number (Numeral.ofNat n)

/-- An array of strings. -/
def ofStrings (items : List String) : Value :=
  array (items.map string)

end Value

end ImportSupply.Json
