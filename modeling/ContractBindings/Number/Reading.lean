import ContractBindings.Number.Binary64

/-!
# Reading numbers

Numerals of any radix up to sixteen, and decimal numbers with an optional fraction and exponent.
-/

namespace ContractBindings.Number

/-- The value of a digit of a radix up to sixteen. -/
def digitValue? (radix : Nat) (c : Char) : Option Nat :=
  let value :=
    if c.isDigit then some (c.toNat - '0'.toNat)
    else if 'a' ≤ c && c ≤ 'f' then some (c.toNat - 'a'.toNat + 10)
    else if 'A' ≤ c && c ≤ 'F' then some (c.toNat - 'A'.toNat + 10)
    else none
  value.filter (· < radix)

/-- The value of digits after those already read. -/
def numeralFrom? (radix read : Nat) : List Char → Option Nat
  | [] => some read
  | c :: cs => (digitValue? radix c).bind fun d => numeralFrom? radix (read * radix + d) cs

/-- The value of a numeral of at least one digit. -/
def numeral? (radix : Nat) : List Char → Option Nat
  | [] => none
  | cs => numeralFrom? radix 0 cs

/-- The value of a numeral that may carry a plus sign. -/
def unsigned? : List Char → Option Nat
  | '+' :: cs => numeral? 10 cs
  | cs => numeral? 10 cs

/-- The value of a run of decimal digits. -/
def digitsValue (cs : List Char) : Nat := cs.foldl (fun n c => n * 10 + (c.toNat - '0'.toNat)) 0

/-- The exponent part of a decimal number: empty, or a mark, a sign and digits. -/
def exponentPart? : List Char → Option Int
  | [] => some 0
  | c :: cs =>
    if c == 'e' || c == 'E' then
      match cs with
      | '+' :: ds => (numeral? 10 ds).map fun n => (n : Int)
      | '-' :: ds => (numeral? 10 ds).map fun n => -(n : Int)
      | ds => (numeral? 10 ds).map fun n => (n : Int)
    else none

/-- A decimal number without a sign: digits with at most one point among them, at least one digit, then the exponent. -/
def magnitude? (negative : Bool) (cs : List Char) : Option Binary64 :=
  let whole := cs.takeWhile Char.isDigit
  let afterWhole := cs.dropWhile Char.isDigit
  let (fraction, rest) :=
    match afterWhole with
    | '.' :: ds => (ds.takeWhile Char.isDigit, ds.dropWhile Char.isDigit)
    | ds => ([], ds)
  if whole.isEmpty && fraction.isEmpty then none
  else (exponentPart? rest).map fun e =>
    Binary64.ofDecimal negative (digitsValue (whole ++ fraction)) (e - fraction.length)

/-- The name of an infinity or of what is no number, in any case of letters. -/
def named? (negative : Bool) (cs : List Char) : Option Binary64 :=
  let name := String.ofList (cs.map Char.toLower)
  if name == "inf" || name == "infinity" then some (.infinite negative)
  else if name == "nan" then some .notANumber
  else none

/-- A decimal number with an optional sign, or the name of one that is not finite. -/
def decimal? (s : String) : Option Binary64 :=
  let read (negative : Bool) (cs : List Char) := (magnitude? negative cs).orElse fun _ => named? negative cs
  match s.toList with
  | '+' :: cs => read false cs
  | '-' :: cs => read true cs
  | cs => read false cs

end ContractBindings.Number
