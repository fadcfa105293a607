import ContractBindings.Number.Shortest

/-!
# Written forms of a double

All forms write the shortest decimal. The plain form is positional at any magnitude; the form with a point adds `.0`
to a whole number; the form of document trees is positional only in a middle range and names infinities with a point.
-/

namespace ContractBindings.Number

/-- As many zeros as given. -/
def zeros (n : Nat) : String := String.ofList (List.replicate n '0')

/-- The decimal in positional notation, without a point if it is whole. -/
def Decimal.positional (d : Decimal) : String :=
  let digits := Nat.toDigits 10 d.digits
  if 0 ≤ d.exponent then String.ofList digits ++ zeros d.exponent.toNat
  else
    let places := (-d.exponent).toNat
    if places < digits.length then
      let whole := digits.length - places
      String.ofList (digits.take whole) ++ "." ++ String.ofList (digits.drop whole)
    else "0." ++ zeros (places - digits.length) ++ String.ofList digits

/-- The decimal in scientific notation, with a point only between two digits; `plus` stands in front of an exponent that
is not negative. -/
def Decimal.scientific (plus : String) (d : Decimal) : String :=
  let digits := Nat.toDigits 10 d.digits
  let lead := String.ofList (digits.take 1)
  let rest := String.ofList (digits.drop 1)
  let exponent := d.exponent + (digits.length : Int) - 1
  (if rest == "" then lead else lead ++ "." ++ rest) ++ "e" ++ (if 0 ≤ exponent then plus else "") ++ toString exponent

/-- A minus sign for a negative number. -/
def signText (negative : Bool) : String := if negative then "-" else ""

namespace Binary64

/-- The plain form: `1`, `0.5`, `-0`, `inf`, `NaN`. -/
def plain : Binary64 → String
  | .finite s 0 _ => signText s ++ "0"
  | .finite s m e => signText s ++ (shortest m e).positional
  | .infinite s => signText s ++ "inf"
  | .notANumber => "NaN"

/-- The plain form, with `.0` after a whole number: `1.0`, `0.5`, `inf`. -/
def pointed (x : Binary64) : String :=
  if x.isFinite && !x.plain.toList.contains '.' then x.plain ++ ".0" else x.plain

/-- The positional form ends below `10 ^ 16` and above `10 ^ -6`. -/
def isMiddling (d : Decimal) : Bool :=
  let scale := (Nat.toDigits 10 d.digits).length + d.exponent
  scale ≤ 16 && scale > -5

/-- The positional form with a point in the middle range, the scientific form outside it, and `.inf` and `.nan`. -/
def mixed (plus : String) : Binary64 → String
  | .finite s 0 _ => signText s ++ "0.0"
  | .finite s m e =>
    let d := shortest m e
    signText s ++
      (if isMiddling d then d.positional ++ (if 0 ≤ d.exponent then ".0" else "") else d.scientific plus)
  | .infinite s => signText s ++ ".inf"
  | .notANumber => ".nan"

/-- The form of document trees: `1.0`, `0.00001`, `1e16`, `1.5e300`, `.inf`, `.nan`. -/
def treeText : Binary64 → String := mixed ""

/-- The form of a number that a variable holds: `1.0`, `1e+16`, `1e-7`. -/
def variableText : Binary64 → String := mixed "+"

end Binary64

end ContractBindings.Number
