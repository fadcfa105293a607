/-!
# Double-precision numbers

A double as what it stands for: a sign with a significand and a power of two, an infinity, or no number. Arithmetic is
exact on natural numbers and rounded once, to the nearest double and to the even one of two, so no operation of the
machine is involved and every value can be reasoned about.
-/

namespace ContractBindings.Number

/-- A double: `finite s m e` is `m · 2 ^ e`, negated when `s` is set. A canonical one has `m < 2 ^ 53` and
`-1074 ≤ e ≤ 971`, and either `2 ^ 52 ≤ m` or `e = -1074`. -/
inductive Binary64 where
  | finite (negative : Bool) (significand : Nat) (exponent : Int)
  | infinite (negative : Bool)
  | notANumber
  deriving Repr, DecidableEq, Inhabited

/-- The quotient of two natural numbers to the nearest, ties to the even one. -/
def roundQuotient (numerator denominator : Nat) : Nat :=
  let quotient := numerator / denominator
  let twice := 2 * (numerator % denominator)
  if twice > denominator || (twice == denominator && quotient % 2 == 1) then quotient + 1 else quotient

/-- The exponent of the least power of two above the quotient of two positive numbers, or the one after it. -/
def binaryExponent (numerator denominator : Nat) : Int :=
  (Nat.log2 numerator : Int) - (Nat.log2 denominator : Int) + 1

namespace Binary64

/-- Zero of either sign. -/
def zero (negative : Bool) : Binary64 := .finite negative 0 (-1074)

/-- The significand of `numerator / denominator` at a power of two, rounded. -/
def significandAt (numerator denominator : Nat) (exponent : Int) : Nat :=
  if 0 ≤ exponent then roundQuotient numerator (denominator * Nat.pow 2 exponent.toNat)
  else roundQuotient (numerator * Nat.pow 2 (-exponent).toNat) denominator

/-- The quotient is at least `2 ^ k`. -/
def reaches (numerator denominator : Nat) (k : Int) : Bool :=
  if 0 ≤ k then denominator * Nat.pow 2 k.toNat ≤ numerator else denominator ≤ numerator * Nat.pow 2 (-k).toNat

/-- The double nearest to a quotient with a sign. -/
def ofRatio (negative : Bool) (numerator denominator : Nat) : Binary64 :=
  if numerator = 0 then zero negative
  else
    let guess := binaryExponent numerator denominator - 1
    let top := if reaches numerator denominator guess then guess else guess - 1
    let exponent := max (top - 52) (-1074)
    let significand := significandAt numerator denominator exponent
    let (significand, exponent) :=
      if significand = Nat.pow 2 53 then (Nat.pow 2 52, exponent + 1) else (significand, exponent)
    if exponent > 971 then .infinite negative else .finite negative significand exponent

/-- The double nearest to an integer. -/
def ofInt (i : Int) : Binary64 := ofRatio (decide (i < 0)) i.natAbs 1

/-- The double nearest to `digits · 10 ^ exponent`. Far outside the range of doubles the answer is settled without
computing the power. -/
def ofDecimal (negative : Bool) (digits : Nat) (exponent : Int) : Binary64 :=
  if digits = 0 then zero negative
  else if exponent > 400 then .infinite negative
  else if 0 ≤ exponent then ofRatio negative (digits * Nat.pow 10 exponent.toNat) 1
  else if exponent + (Nat.log2 digits : Int) < -1200 then zero negative
  else ofRatio negative digits (Nat.pow 10 (-exponent).toNat)

/-- The numerator and denominator of the magnitude of a finite double. -/
def ratio (significand : Nat) (exponent : Int) : Nat × Nat :=
  if 0 ≤ exponent then (significand * Nat.pow 2 exponent.toNat, 1) else (significand, Nat.pow 2 (-exponent).toNat)

/-- The product of two magnitudes, rounded, under the first factor's sign. -/
def scaleUp : Binary64 → Binary64 → Binary64
  | .finite s m e, .finite _ n f =>
    let (a, b) := ratio m e
    let (c, d) := ratio n f
    ofRatio s (a * c) (b * d)
  | x, _ => x

/-- The quotient of two magnitudes, rounded, under the dividend's sign. -/
def scaleDown : Binary64 → Binary64 → Binary64
  | .finite s m e, .finite _ n f =>
    let (a, b) := ratio m e
    let (c, d) := ratio n f
    ofRatio s (a * d) (b * c)
  | x, _ => x

/-- The number with the other sign. -/
def neg : Binary64 → Binary64
  | .finite s m e => .finite (!s) m e
  | .infinite s => .infinite (!s)
  | .notANumber => .notANumber

/-- The double is zero, of either sign. -/
def isZero : Binary64 → Bool
  | .finite _ m _ => m == 0
  | _ => false

/-- The double is a number and no infinity. -/
def isFinite : Binary64 → Bool
  | .finite .. => true
  | _ => false

/-- Equality as numbers: the two zeros are one number, and what is no number equals nothing. -/
def sameNumber (x y : Binary64) : Bool :=
  match x, y with
  | .notANumber, _ => false
  | _, .notANumber => false
  | x, y => x == y || (x.isZero && y.isZero)

end Binary64

end ContractBindings.Number
