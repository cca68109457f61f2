/-!
# The fewest digits of a binary number

A finite binary number `m * 2 ^ q` stands for all reals that round to it. Its shortest decimal is
found on the grids of 1, 2, ... digits: the first grid with a point among those reals wins, and of
two such points the nearer one.
-/

namespace ImportSupply.Decimal

/-- A positive number as a fraction of natural numbers. -/
structure Ratio where
  num : Nat
  den : Nat

/-- Whether one fraction is below another. -/
def Ratio.below (a b : Ratio) : Bool :=
  a.num * b.den < b.num * a.den

/-- `m * 2 ^ q`, as a fraction. -/
def Ratio.ofBinary (m : Nat) (q : Int) : Ratio :=
  match q with
  | .ofNat up => ⟨m * Nat.pow 2 up, 1⟩
  | .negSucc down => ⟨m, Nat.pow 2 (down + 1)⟩

/-- `m * 10 ^ e`, as a fraction. -/
def Ratio.ofDecimal (m : Nat) (e : Int) : Ratio :=
  match e with
  | .ofNat up => ⟨m * Nat.pow 10 up, 1⟩
  | .negSucc down => ⟨m, Nat.pow 10 (down + 1)⟩

/-- A decimal `digits * 10 ^ exponent`. -/
structure Scaled where
  digits : Nat
  exponent : Int

/-- The reals that round to `m * 2 ^ q`, as the interval's ends; the lower end is nearer below a
power of two. -/
def interval (m : Nat) (q : Int) (nearerBelow : Bool) : Ratio × Ratio :=
  (if nearerBelow then Ratio.ofBinary (4 * m - 1) (q - 2) else Ratio.ofBinary (2 * m - 1) (q - 1),
    Ratio.ofBinary (2 * m + 1) (q - 1))

/-- Whether a fraction lies in an interval, its ends counted or not. -/
def isInside (ends : Ratio × Ratio) (closed : Bool) (x : Ratio) : Bool :=
  if closed then !x.below ends.1 && !ends.2.below x
  else ends.1.below x && x.below ends.2

/-- The decimal on the grid of a step `10 ^ exponent` that rounds to the number, if there is one:
the nearer of the two neighbours, the even one when they are equally near. -/
def onGrid? (value : Ratio) (ends : Ratio × Ratio) (closed : Bool) (exponent : Int) :
    Option Scaled :=
  let step := Ratio.ofDecimal 1 exponent
  let scaled : Ratio := ⟨value.num * step.den, value.den * step.num⟩
  let low := scaled.num / scaled.den
  let lowFits := 0 < low && isInside ends closed (Ratio.ofDecimal low exponent)
  let highFits := isInside ends closed (Ratio.ofDecimal (low + 1) exponent)
  let twice := 2 * (scaled.num - low * scaled.den)
  let preferLow := twice < scaled.den || (twice == scaled.den && low % 2 == 0)
  if lowFits && (preferLow || !highFits) then some ⟨low, exponent⟩
  else if highFits then some ⟨low + 1, exponent⟩
  else none

/-- The exponent `e` with `10 ^ e ≤ value < 10 ^ (e + 1)`, found by going down from a bound. -/
def leadingExponent (value : Ratio) : Nat → Int → Int
  | 0, e => e
  | fuel + 1, e =>
      if value.below (Ratio.ofDecimal 1 e) then leadingExponent value fuel (e - 1) else e

/-- The first grid from a number of digits on that holds a fitting decimal. -/
def searchGrids (value : Ratio) (ends : Ratio × Ratio) (closed : Bool) (leading : Int) :
    Nat → Nat → Scaled
  | 0, _ => ⟨0, 0⟩
  | fuel + 1, count =>
      match onGrid? value ends closed (leading - (count : Int) + 1) with
      | some found => found
      | none => searchGrids value ends closed leading fuel (count + 1)

/-- A decimal without zeros at the end of its digits. -/
def dropZeros : Nat → Scaled → Scaled
  | 0, decimal => decimal
  | fuel + 1, decimal =>
      if decimal.digits % 10 == 0 && decimal.digits != 0 then
        dropZeros fuel ⟨decimal.digits / 10, decimal.exponent + 1⟩
      else decimal

/-- The bit in front of the fifty-two that a double spells out. -/
def implicitBit : Nat :=
  0x10000000000000

/-- The shortest decimal of a positive double given by its bits without the sign; zero for zero. -/
def shortest (bits : Nat) : Scaled :=
  let biased : Nat := bits / implicitBit
  let low : Nat := bits % implicitBit
  if bits == 0 then ⟨0, 0⟩
  else
    let m := if biased == 0 then low else implicitBit + low
    let q : Int := if biased == 0 then -1074 else (biased : Int) - 1075
    let value := Ratio.ofBinary m q
    let ends := interval m q (low == 0 && 1 < biased)
    dropZeros 20
      (searchGrids value ends (m % 2 == 0) (leadingExponent value 700 309) 18 1)

end ImportSupply.Decimal
