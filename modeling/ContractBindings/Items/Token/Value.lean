import ContractBindings.Items.Token.Literal
import ContractBindings.Text.Blank

/-!
# What literals stand for

The kinds of literals, the text that a text literal stands for, and the number that a whole number stands for.
-/

namespace ContractBindings.Items

/-- The kinds of literals. -/
inductive LiteralKind where
  | text
  /-- A text of bytes, or one closed by a null byte. -/
  | bytes
  /-- A character or a byte. -/
  | character
  | integer
  /-- A number with a fraction or an exponent. -/
  | fraction
  deriving Repr, DecidableEq

/-- The digits of a whole number that were read, with what follows them. Underscores count for nothing, and a decimal
number has neither a point nor an exponent. -/
def wholeDigits (radix read : Nat) (empty : Bool) : List Char → Option (Nat × List Char)
  | [] => if empty then none else some (read, [])
  | c :: cs =>
    if c == '_' then wholeDigits radix read empty cs
    else
      match Number.digitValue? 16 c with
      | some d =>
        if c.isDigit || 10 < radix then
          if d < radix then wholeDigits radix (read * radix + d) false cs else none
        else if empty then none
        else if radix == 10 && (c == 'e' || c == 'E') then
          match cs.dropWhile (· == '_') with
          | d :: _ => if d.isDigit || d == '+' || d == '-' then none else some (read, c :: cs)
          | [] => some (read, c :: cs)
        else some (read, c :: cs)
      | none => if empty || (c == '.' && radix == 10) then none else some (read, c :: cs)

/-- The value of a whole number, with the word behind its digits. -/
def wholeNumber? (cs : List Char) : Option (Nat × List Char) :=
  match cs with
  | '0' :: 'x' :: rest => wholeDigits 16 0 true rest
  | '0' :: 'o' :: rest => wholeDigits 8 0 true rest
  | '0' :: 'b' :: rest => wholeDigits 2 0 true rest
  | c :: _ => if c.isDigit then wholeDigits 10 0 true cs else none
  | [] => none

/-- The kind of a literal. -/
def LiteralKind.ofText (text : String) : LiteralKind :=
  match text.toList with
  | '"' :: _ => .text
  | 'r' :: _ => .text
  | 'b' :: '\'' :: _ => .character
  | 'b' :: _ => .bytes
  | 'c' :: _ => .bytes
  | '\'' :: _ => .character
  | cs => if (wholeNumber? cs).isSome then .integer else .fraction

/-- The position of a member that digits stand for. -/
def position? (digits : List Char) : Option Nat :=
  match wholeNumber? digits with
  | some (n, []) => if n < Nat.pow 2 32 then some n else none
  | _ => none

/-- The character that an escape stands for, after its backslash, with the text behind it. -/
def escapedChar? : List Char → Option (Char × List Char)
  | 'x' :: a :: b :: rest => do
    let value ← Number.numeral? 16 [a, b]
    return (Char.ofNat value, rest)
  | 'u' :: '{' :: rest => do
    let value ← Number.numeral? 16 ((rest.takeWhile (· != '}')).filter (· != '_'))
    return (Char.ofNat value, (rest.dropWhile (· != '}')).drop 1)
  | 'n' :: rest => some ('\n', rest)
  | 'r' :: rest => some ('\r', rest)
  | 't' :: rest => some ('\t', rest)
  | '0' :: rest => some (Char.ofNat 0, rest)
  | c :: rest => some (c, rest)
  | [] => none

/-- The text up to the closing quote. A backslash at the end of a line takes the blanks behind it away. -/
def quotedValue : Nat → List Char → List Char
  | 0, _ => []
  | fuel + 1, cs =>
    match cs with
    | [] => []
    | '"' :: _ => []
    | '\r' :: '\n' :: rest => '\n' :: quotedValue fuel rest
    | '\\' :: c :: rest =>
      if c == '\n' || c == '\r' then quotedValue fuel (rest.dropWhile Text.isBlank)
      else
        match escapedChar? (c :: rest) with
        | some (c, rest) => c :: quotedValue fuel rest
        | none => []
    | c :: rest => c :: quotedValue fuel rest

/-- The text up to a closing quote with some number signs. -/
def rawValue (signs : List Char) : List Char → List Char
  | [] => []
  | c :: cs => if c == '"' && (after? signs cs).isSome then [] else c :: rawValue signs cs

/-- The text that a text literal stands for. -/
def textValue? (text : String) : Option String :=
  match text.toList with
  | '"' :: rest => some (String.ofList (quotedValue (rest.length + 1) rest))
  | 'r' :: rest =>
    let signs := rest.takeWhile (· == '#')
    some (String.ofList (rawValue signs (rest.drop (signs.length + 1))))
  | _ => none

end ContractBindings.Items
