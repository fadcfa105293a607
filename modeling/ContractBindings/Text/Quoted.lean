import ContractBindings.Text.Printable

/-!
# Quoted text

Two written forms of a text between double quotes: the one that messages use to show a value, and the one of a string
literal in generated code. Both write control characters by name where one exists, and any other character without a
visible form by its code point.
-/

namespace ContractBindings.Text

/-- The escape of a character by its code point in braces, in lower-case hexadecimal digits. -/
def codePointEscape (c : Char) : List Char :=
  ['\\', 'u', '{'] ++ Nat.toDigits 16 c.toNat ++ ['}']

/-- A character other than the null character inside double quotes. -/
def escapeVisible (c : Char) : List Char :=
  match c with
  | '\t' => ['\\', 't']
  | '\r' => ['\\', 'r']
  | '\n' => ['\\', 'n']
  | '\\' => ['\\', '\\']
  | '"' => ['\\', '"']
  | c => if extendsGrapheme c || !isPrintable c then codePointEscape c else [c]

/-- A character of a shown value: the null character is `\0`, whatever follows. -/
def escapeShown (c : Char) : List Char :=
  if c.toNat == 0 then ['\\', '0'] else escapeVisible c

/-- The text as a message shows it. -/
def shown (s : String) : String :=
  String.ofList ('"' :: s.toList.flatMap escapeShown ++ ['"'])

/-- The characters of a string literal. Before an octal digit the null character is written with two hexadecimal digits,
so that the digit is not read as part of the escape. -/
def literalChars : List Char → List Char
  | [] => []
  | c :: cs =>
    (if c.toNat == 0 then
      match cs with
      | d :: _ => if '0' ≤ d && d ≤ '7' then ['\\', 'x', '0', '0'] else ['\\', '0']
      | [] => ['\\', '0']
    else escapeVisible c) ++ literalChars cs

/-- The text as a string literal of generated code. -/
def literal (s : String) : String :=
  String.ofList ('"' :: literalChars s.toList ++ ['"'])

end ContractBindings.Text
