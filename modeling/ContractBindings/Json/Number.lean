import ContractBindings.Number.Reading

/-!
# Numbers in a JSON text

A place in a text is what is left of it and the line reached; errors are reported by line, either that of the place or
the line after the character that stands there.

An integer within 64 bits is exact. Every other number is floating-point: its digits are gathered into an integer
below `2 ^ 64`, later ones only counted, and the result is scaled by one rounded power of ten. The scaling rounds
twice, so the number read need not be the one nearest to the text.
-/

namespace ContractBindings.Json

/-! ## Places -/

/-- A place in the text; lines count from one. -/
structure Place where
  rest : List Char
  line : Nat
  deriving Repr, Inhabited

namespace Place

/-- The start of a text. -/
def start (s : String) : Place := ⟨s.toList, 1⟩

/-- The place after the next character. -/
def advance (p : Place) : Place :=
  match p.rest with
  | [] => p
  | c :: rest => ⟨rest, if c == '\n' then p.line + 1 else p.line⟩

/-- The place after the next `n` characters. -/
def skip (p : Place) : Nat → Place
  | 0 => p
  | n + 1 => p.advance.skip n

/-- The line after the next character. -/
def peekLine (p : Place) : Nat := p.advance.line

/-- A blank between tokens. -/
def isBlank (c : Char) : Bool := c == ' ' || c == '\n' || c == '\t' || c == '\r'

/-- The place after the blanks. -/
def skipBlanks (p : Place) : Place := p.skip (p.rest.takeWhile isBlank).length

end Place

open Number

/-! ## Numbers -/

/-- The digits of a number: the integer they form as far as it stays below `2 ^ 64`, the power of ten that the digits
left out and those after the point amount to. -/
structure Digits where
  significand : Nat
  exponent : Int

/-- A number as it is read. -/
inductive Numeral where
  | int (value : Int)
  | float (value : Binary64)

/-- The greatest power of ten that a double holds. -/
def maxPower : Nat := 308

/-- The magnitude after scaling by a power of ten. Powers beyond the greatest are applied in steps; a magnitude beyond
the doubles is refused. -/
def scaled (p : Place) : Nat → Binary64 → Int → Except Nat Binary64
  | 0, x, _ => .ok x
  | fuel + 1, x, exponent =>
    if exponent.natAbs ≤ maxPower then
      let power := Binary64.ofDecimal false 1 exponent.natAbs
      if 0 ≤ exponent then
        match x.scaleUp power with
        | .infinite _ => .error p.line
        | y => .ok y
      else .ok (x.scaleDown power)
    else if x.isZero then .ok x
    else if 0 ≤ exponent then .error p.line
    else scaled p fuel (x.scaleDown (Binary64.ofDecimal false 1 maxPower)) (exponent + maxPower)

/-- The floating-point number with the given digits. A power that is far out of range is settled in a few steps. -/
def float (p : Place) (negative : Bool) (d : Digits) : Except Nat Numeral := do
  let x ← scaled p 4 (Binary64.ofInt d.significand) (max d.exponent (-1000))
  return .float (if negative then x.neg else x)

/-- The exponent after its mark. -/
def exponent (p : Place) (negative : Bool) (d : Digits) : Except Nat (Numeral × Place) :=
  let p := p.advance
  let (minus, p) :=
    match p.rest with
    | '+' :: _ => (false, p.advance)
    | '-' :: _ => (true, p.advance)
    | _ => (false, p)
  match p.rest with
  | [] => .error p.line
  | c :: _ =>
    if c.isDigit then
      let digits := p.rest.takeWhile Char.isDigit
      let value := digitsValue digits
      let after := p.skip digits.length
      if value ≥ Nat.pow 2 31 then
        if d.significand != 0 && !minus then .error p.line
        else .ok (.float (Binary64.zero negative), after)
      else do
        let n ← float after negative { d with exponent := if minus then d.exponent - value else d.exponent + value }
        return (n, after)
    else .error p.advance.line

/-- What follows the digits after the point. -/
def afterFraction (p : Place) (negative : Bool) (d : Digits) : Except Nat (Numeral × Place) :=
  match p.rest with
  | 'e' :: _ | 'E' :: _ => exponent p negative d
  | _ => do
    let n ← float p negative d
    return (n, p)

/-- The digits after the point, given those before it. -/
def fractionDigits (d : Digits) : List Char → Digits
  | [] => d
  | c :: cs =>
    let next := d.significand * 10 + (c.toNat - '0'.toNat)
    if next < Nat.pow 2 64 then fractionDigits ⟨next, d.exponent - 1⟩ cs else d

/-- The fraction after its point: at least one digit. -/
def fraction (p : Place) (negative : Bool) (d : Digits) : Except Nat (Numeral × Place) :=
  let p := p.advance
  let digits := p.rest.takeWhile Char.isDigit
  if digits.isEmpty then .error p.peekLine
  else afterFraction (p.skip digits.length) negative (fractionDigits d digits)

/-- The digits before the point. -/
def wholeDigits (d : Digits) : List Char → Digits × Bool
  | [] => (d, true)
  | c :: cs =>
    let next := d.significand * 10 + (c.toNat - '0'.toNat)
    if next < Nat.pow 2 64 then wholeDigits ⟨next, d.exponent⟩ cs else (⟨d.significand, (c :: cs).length⟩, false)

/-- A number without its sign. -/
def unsignedNumber (p : Place) (negative : Bool) : Except Nat (Numeral × Place) :=
  match p.rest with
  | [] => .error p.line
  | '0' :: next :: _ =>
    if next.isDigit then .error p.advance.peekLine else afterWhole p.advance (⟨0, 0⟩, true)
  | '0' :: [] => afterWhole p.advance (⟨0, 0⟩, true)
  | c :: _ =>
    if c.isDigit then
      let digits := p.rest.takeWhile Char.isDigit
      afterWhole (p.skip digits.length) (wholeDigits ⟨0, 0⟩ digits)
    else .error p.advance.line
where
  /-- What follows the digits before the point. -/
  afterWhole (p : Place) (read : Digits × Bool) : Except Nat (Numeral × Place) :=
    let (d, exact) := read
    match p.rest with
    | '.' :: _ => fraction p negative d
    | 'e' :: _ | 'E' :: _ => exponent p negative d
    | _ =>
      if !exact then do
        let n ← float p negative d
        return (n, p)
      else if negative then
        if d.significand == 0 || d.significand > Nat.pow 2 63 then
          .ok (.float (Binary64.ofInt d.significand).neg, p)
        else .ok (.int (-(d.significand : Int)), p)
      else .ok (.int d.significand, p)

end ContractBindings.Json
