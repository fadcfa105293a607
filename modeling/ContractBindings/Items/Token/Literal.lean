import ContractBindings.Number.Reading
import ContractBindings.Text.IdentifierChar

/-!
# Literals of Rust

Where a literal at the start of a text ends. Strings and characters may be of text, of bytes or closed by a null byte;
numbers may have a fraction and an exponent. A word right behind a literal belongs to it.
-/

namespace ContractBindings.Items

open Text (isIdentifierStart isIdentifierContinue)

/-- The word at the start of a text, with the text after it. -/
def wordAt? : List Char → Option (List Char × List Char)
  | [] => none
  | c :: cs =>
    if isIdentifierStart c then some (c :: cs.takeWhile isIdentifierContinue, cs.dropWhile isIdentifierContinue)
    else none

/-- The text after the word that stands at its start, if one does. -/
def afterSuffix (cs : List Char) : List Char := (wordAt? cs).elim cs (·.2)

/-- The text begins with some characters, and goes on. -/
def after? : List Char → List Char → Option (List Char)
  | [], cs => some cs
  | c :: more, d :: cs => if c == d then after? more cs else none
  | _ :: _, [] => none

/-- The kinds of text literals. -/
inductive TextKind where
  | text
  | bytes
  /-- Closed by a null byte. -/
  | closed
  deriving Repr, DecidableEq

/-- After `\x`: two hexadecimal digits. A text holds no such escape beyond ASCII, a closed one no null. -/
def afterByteEscape (kind : TextKind) : List Char → Option (List Char)
  | a :: b :: rest =>
    match Number.digitValue? 16 a, Number.digitValue? 16 b with
    | some high, some low =>
      if kind == .text && 8 ≤ high then none
      else if kind == .closed && high == 0 && low == 0 then none
      else some rest
    | _, _ => none
  | _ => none

/-- The code point in braces after `\u`, with the text after it: some hexadecimal digits, of which `left` may still
follow the `value` that was read. -/
def codePointDigits (value left : Nat) (empty : Bool) : List Char → Option (Nat × List Char)
  | [] => none
  | c :: cs =>
    if c == '}' then if empty then none else some (value, cs)
    else if c == '_' then if empty then none else codePointDigits value left empty cs
    else
      match Number.digitValue? 16 c, left with
      | some d, left + 1 => codePointDigits (value * 16 + d) left false cs
      | _, _ => none

/-- After `\u`: a code point of a character, in at most six digits. A closed text holds no null. -/
def afterCodePoint (kind : TextKind) : List Char → Option (List Char)
  | '{' :: cs => do
    let (value, rest) ← codePointDigits 0 6 true cs
    if value < 0xD800 || (0xE000 ≤ value && value < 0x110000) then
      if kind == .closed && value == 0 then none else some rest
    else none
  | _ => none

/-- After a backslash that is not at the end of a line. -/
def afterEscape (kind : TextKind) : List Char → Option (List Char)
  | 'x' :: rest => afterByteEscape kind rest
  | 'u' :: rest => if kind == .bytes then none else afterCodePoint kind rest
  | '0' :: rest => if kind == .closed then none else some rest
  | c :: rest => if ['n', 'r', 't', '\\', '\'', '"'].contains c then some rest else none
  | [] => none

/-- A character that may stand for itself in a text of a kind. -/
def isPlain (kind : TextKind) (c : Char) : Bool :=
  match kind with
  | .text => true
  | .bytes => c.toNat < 0x80
  | .closed => c.toNat != 0

/-- The blanks after a backslash at the end of a line; a carriage return has a line feed behind it. -/
def afterLineEnd : List Char → Option (List Char)
  | '\r' :: '\n' :: cs => afterLineEnd cs
  | '\r' :: _ => none
  | c :: cs => if c == ' ' || c == '\t' || c == '\n' then afterLineEnd cs else some (c :: cs)
  | [] => none

/-- After the opening quote of a text: what stands behind the closing one. -/
def afterText (kind : TextKind) : Nat → List Char → Option (List Char)
  | 0, _ => none
  | fuel + 1, cs =>
    match cs with
    | [] => none
    | '"' :: rest => some rest
    | '\r' :: '\n' :: rest => afterText kind fuel rest
    | '\r' :: _ => none
    | '\\' :: '\n' :: rest => (afterLineEnd rest).bind (afterText kind fuel)
    | '\\' :: '\r' :: '\n' :: rest => (afterLineEnd rest).bind (afterText kind fuel)
    | '\\' :: rest => (afterEscape kind rest).bind (afterText kind fuel)
    | c :: rest => if isPlain kind c then afterText kind fuel rest else none

/-- After the opening quote of a raw text with some number signs: what stands behind the closing ones. -/
def afterRawText (kind : TextKind) (signs : List Char) : List Char → Option (List Char)
  | [] => none
  | c :: cs =>
    match (if c == '"' then after? signs cs else none) with
    | some rest => some rest
    | none =>
      let lineEnd := match cs with
        | d :: _ => d == '\n'
        | [] => false
      if c == '\r' && !lineEnd then none
      else if isPlain kind c then afterRawText kind signs cs
      else none

/-- After the `r` of a raw text. There are fewer than 256 number signs. -/
def afterRaw (kind : TextKind) (cs : List Char) : Option (List Char) :=
  let signs := cs.takeWhile (· == '#')
  match cs.dropWhile (· == '#') with
  | '"' :: rest => if signs.length ≤ 255 then afterRawText kind signs rest else none
  | _ => none

/-- After the opening quote of a character: what stands behind the closing one. -/
def afterCharacter (kind : TextKind) (cs : List Char) : Option (List Char) := do
  let rest ← match cs with
    | '\\' :: rest => afterEscape kind rest
    | c :: rest => if isPlain kind c then some rest else none
    | [] => none
  match rest with
  | '\'' :: rest => some rest
  | _ => none

/-- The digits of a whole number in a radix with underscores among them. A decimal number begins with a digit, and a
digit beyond the radix is a fault. -/
def afterDigits (radix : Nat) (empty : Bool) : List Char → Option (List Char)
  | [] => if empty then none else some []
  | c :: cs =>
    if c == '_' then (if empty && radix == 10 then none else afterDigits radix empty cs)
    else if c.isDigit then (if c.toNat - '0'.toNat < radix then afterDigits radix false cs else none)
    else if radix == 16 && (Number.digitValue? 16 c).isSome then afterDigits radix false cs
    else if empty then none
    else some (c :: cs)

/-- A whole number. -/
def afterInteger (cs : List Char) : Option (List Char) := do
  let rest ← match cs with
    | '0' :: 'x' :: rest => afterDigits 16 true rest
    | '0' :: 'o' :: rest => afterDigits 8 true rest
    | '0' :: 'b' :: rest => afterDigits 2 true rest
    | _ => afterDigits 10 true cs
  let rest := afterSuffix rest
  match rest with
  | c :: _ => if isIdentifierContinue c then none else some rest
  | [] => some []

/-- A digit or an underscore inside a number. -/
def isDigitOrGap (c : Char) : Bool := c.isDigit || c == '_'

/-- The exponent after its mark: a sign, and digits with underscores among them. -/
def afterExponent (cs : List Char) : Option (List Char) :=
  let unsigned := match cs.dropWhile (· == '_') with
    | '+' :: rest => rest
    | '-' :: rest => rest
    | rest => rest
  if (unsigned.takeWhile isDigitOrGap).any Char.isDigit then some (unsigned.dropWhile isDigitOrGap) else none

/-- A number with a fraction or an exponent. A point is no part of a number in front of a word or another point. -/
def afterDecimal (cs : List Char) : Option (List Char) := do
  let whole := cs.takeWhile isDigitOrGap
  if !(match whole with
    | c :: _ => c.isDigit
    | [] => false) then none
  let (hasPoint, rest) ← match cs.dropWhile isDigitOrGap with
    | '.' :: rest =>
      match rest with
      | c :: _ => if c == '.' || isIdentifierStart c then none else some (true, rest.dropWhile isDigitOrGap)
      | [] => some (true, [])
    | rest => some (false, rest)
  let rest ← match rest with
    | c :: more =>
      if c == 'e' || c == 'E' then
        match afterExponent more with
        | some rest => some rest
        | none => if hasPoint then some rest else none
      else if hasPoint then some rest
      else none
    | [] => if hasPoint then some [] else none
  let rest := afterSuffix rest
  match rest with
  | c :: _ => if isIdentifierContinue c then none else some rest
  | [] => some []

/-- A literal that begins with a quote or with a letter in front of one. -/
def afterQuoted (cs : List Char) : Option (List Char) :=
  let plain (kind : TextKind) (rest : List Char) := afterText kind (rest.length + 1) rest
  match cs with
  | '"' :: rest => plain .text rest
  | 'r' :: rest => afterRaw .text rest
  | 'b' :: '"' :: rest => plain .bytes rest
  | 'b' :: 'r' :: rest => afterRaw .bytes rest
  | 'b' :: '\'' :: rest => afterCharacter .bytes rest
  | 'c' :: '"' :: rest => plain .closed rest
  | 'c' :: 'r' :: rest => afterRaw .closed rest
  | '\'' :: rest => afterCharacter .text rest
  | _ => none

/-- What stands behind the literal at the start of a text. -/
def afterLiteral (cs : List Char) : Option (List Char) :=
  match afterQuoted cs with
  | some rest => some (afterSuffix rest)
  | none => (afterDecimal cs).orElse fun _ => afterInteger cs

end ContractBindings.Items
