import ContractBindings.Number.Binary64

/-!
# The shortest decimal

The fewest decimal digits that read back as a given double, and of those the ones nearest to it. A decimal reads back
when it lies in the interval of reals that round to the double, whose ends belong to it when the significand is even.
On a grid of decimals with a fixed number of places the interval holds a point only if it holds one of the two
neighbours of the double, so only those are tested.
-/

namespace ContractBindings.Number

/-- A positive decimal `digits · 10 ^ exponent`. -/
structure Decimal where
  digits : Nat
  exponent : Int
  deriving Repr, DecidableEq, Inhabited

namespace Decimal

/-- The decimal without zeros at the end of its digits; `fuel` bounds how many are dropped. -/
def dropZeros (fuel : Nat) (d : Decimal) : Decimal :=
  match fuel with
  | 0 => d
  | fuel + 1 =>
    if d.digits % 10 == 0 && d.digits != 0 then dropZeros fuel ⟨d.digits / 10, d.exponent + 1⟩ else d

end Decimal

/-- `a / b` compared with `c / d`, denominators positive. -/
def compareRatio (a b c d : Nat) : Ordering := compare (a * d) (c * b)

/-- The greatest `k` with `10 ^ k` at most `a / b`, both positive. -/
def decimalExponent (a b : Nat) : Int :=
  let reaches (k : Int) : Bool := if 0 ≤ k then b * Nat.pow 10 k.toNat ≤ a else b ≤ a * Nat.pow 10 (-k).toNat
  let guess := ((Nat.toDigits 10 a).length : Int) - ((Nat.toDigits 10 b).length : Int)
  if reaches guess then guess else guess - 1

/-- A magnitude with the interval of reals that round to it, all over one denominator. -/
structure Rounding where
  low : Nat
  value : Nat
  high : Nat
  denominator : Nat
  /-- The two ends round to the magnitude, too. -/
  closed : Bool

/-- The interval of a positive significand and exponent: half a unit on either side, but a quarter below a power of two,
where the doubles lie closer. -/
def Rounding.of (significand : Nat) (exponent : Int) : Rounding :=
  let below := if significand == Nat.pow 2 52 && exponent > -1074 then 1 else 2
  let (scale, denominator) :=
    if 0 ≤ exponent then (Nat.pow 2 exponent.toNat, 4) else (1, 4 * Nat.pow 2 (-exponent).toNat)
  ⟨(4 * significand - below) * scale, 4 * significand * scale, (4 * significand + 2) * scale, denominator,
    significand % 2 == 0⟩

/-- The decimal `digits · 10 ^ place` lies in the interval. -/
def Rounding.holds (r : Rounding) (digits : Nat) (place : Int) : Bool :=
  let (a, b) := if 0 ≤ place then (digits * Nat.pow 10 place.toNat, 1) else (digits, Nat.pow 10 (-place).toNat)
  match compareRatio a b r.low r.denominator, compareRatio a b r.high r.denominator with
  | .gt, .lt => true
  | .eq, .lt => r.closed
  | .gt, .eq => r.closed
  | _, _ => false

/-- The neighbour on the grid `10 ^ place` that lies in the interval, the nearer one if both do, the even one of two
equally near. -/
def Rounding.onGrid (r : Rounding) (place : Int) : Option Decimal :=
  let (a, b) :=
    if 0 ≤ place then (r.value, r.denominator * Nat.pow 10 place.toNat)
    else (r.value * Nat.pow 10 (-place).toNat, r.denominator)
  let floor := a / b
  let twice := 2 * (a % b)
  let upIsNearer := twice > b || (twice == b && floor % 2 == 1)
  match r.holds floor place, r.holds (floor + 1) place with
  | true, true => some ⟨if upIsNearer then floor + 1 else floor, place⟩
  | true, false => some ⟨floor, place⟩
  | false, true => some ⟨floor + 1, place⟩
  | false, false => none

/-- The shortest decimal of a positive magnitude. Seventeen digits always suffice. -/
def shortest (significand : Nat) (exponent : Int) : Decimal :=
  let r := Rounding.of significand exponent
  let top := decimalExponent r.value r.denominator
  let found := (List.range 17).findSome? fun (places : Nat) => r.onGrid (top - (places : Int))
  (found.getD ⟨significand, exponent⟩).dropZeros 20

end ContractBindings.Number
