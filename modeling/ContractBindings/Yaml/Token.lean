/-!
# Tokens of YAML

The tokens that a text is divided into, and the places in it. The block structure of YAML depends on columns, and an
implicit key ends with its line. The start of a block collection and the key mark of an implicit key have no character of
their own; they are put in when the indentation or a later colon shows that they were meant.
-/

namespace ContractBindings.Yaml

/-! ## Places -/

/-- A place in the text. -/
structure Cursor where
  rest : List Char
  index : Nat
  line : Nat
  column : Nat
  deriving Repr, Inhabited

/-- A line break of any kind. -/
def isBreak (c : Char) : Bool :=
  c == '\n' || c == '\r' || c.toNat == 0x85 || c.toNat == 0x2028 || c.toNat == 0x2029

/-- A space or a tab. -/
def isSpace (c : Char) : Bool := c == ' ' || c == '\t'

/-- A character of names: an ASCII letter or digit, a hyphen or an underscore. -/
def isNameChar (c : Char) : Bool := c.isAlphanum || c == '-' || c == '_'

/-- A character that may stand in a YAML text. -/
def isAllowed (c : Char) : Bool :=
  let n := c.toNat
  n == 0x9 || n == 0xA || n == 0xD || (0x20 ≤ n && n ≤ 0x7E) || n == 0x85 || (0xA0 ≤ n && n ≤ 0xFFFD && n != 0xFEFF)
    || 0x10000 ≤ n

/-- The text is empty or begins with a blank or a break. -/
def endsWord : List Char → Bool
  | [] => true
  | c :: _ => isSpace c || isBreak c

/-- The text is empty or begins with a break. -/
def endsLine : List Char → Bool
  | [] => true
  | c :: _ => isBreak c

namespace Cursor

/-- The start of a text. -/
def start (cs : List Char) : Cursor := ⟨cs, 0, 0, 0⟩

/-- The place after the next character. -/
def advance (p : Cursor) : Cursor :=
  match p.rest with
  | [] => p
  | _ :: rest => ⟨rest, p.index + 1, p.line, p.column + 1⟩

/-- The place after the next `n` characters. -/
def advanceBy (p : Cursor) : Nat → Cursor
  | 0 => p
  | n + 1 => p.advance.advanceBy n

/-- The place after the line break at which the text stands, if it does. A carriage return and a line feed are one. -/
def skipBreak (p : Cursor) : Cursor :=
  match p.rest with
  | '\r' :: '\n' :: rest => ⟨rest, p.index + 2, p.line + 1, 0⟩
  | c :: rest => if isBreak c then ⟨rest, p.index + 1, p.line + 1, 0⟩ else p
  | [] => p

/-- What the line break at which the text stands contributes to a scalar: the two breaks of Unicode stand for
themselves, all others for a line feed. -/
def breakChars (p : Cursor) : List Char :=
  match p.rest with
  | c :: _ => if c.toNat == 0x2028 || c.toNat == 0x2029 then [c] else if isBreak c then ['\n'] else []
  | [] => []

/-- The place after the characters with a property. -/
def skipWhile (p : Cursor) (test : Char → Bool) : Cursor :=
  let run := p.rest.takeWhile test
  ⟨p.rest.dropWhile test, p.index + run.length, p.line, p.column + run.length⟩

/-- The characters with a property from here on. -/
def run (p : Cursor) (test : Char → Bool) : List Char := p.rest.takeWhile test

/-- The place before the end of the line. -/
def skipLine (p : Cursor) : Cursor := p.skipWhile fun c => !isBreak c

/-- A document marker of three equal characters stands here, at the start of a line. -/
def atMarker (p : Cursor) (mark : Char) : Bool :=
  p.column == 0 &&
    match p.rest with
    | a :: b :: c :: rest => a == mark && b == mark && c == mark && endsWord rest
    | _ => false

/-- The start or the end of a document is marked here. -/
def atDocumentMarker (p : Cursor) : Bool := p.atMarker '-' || p.atMarker '.'

end Cursor

/-! ## Tokens -/

/-- How a scalar is written: without quotes, in quotes, or as a block that keeps or folds its line breaks. -/
inductive ScalarStyle where
  | plain
  | quoted
  | literal
  | folded
  deriving Repr, DecidableEq, Inhabited

/-- A token. A tag carries its handle and what follows it. -/
inductive Token where
  | versionDirective (major minor : Nat)
  | tagDirective (handle lead : String)
  | documentStart
  | documentEnd
  | blockSequenceStart
  | blockMappingStart
  | blockEnd
  | flowSequenceStart
  | flowSequenceEnd
  | flowMappingStart
  | flowMappingEnd
  | blockEntry
  | flowEntry
  | key
  | value
  | alias (name : String)
  | anchor (name : String)
  | tag (handle suffix : String)
  | scalar (text : String) (style : ScalarStyle)
  deriving Repr, DecidableEq, Inhabited

end ContractBindings.Yaml
