import ContractBindings.Document.Tree
import ContractBindings.Json.Number

/-!
# From JSON text to a document tree

A reader of JSON that fails with the line of the first fault. Keys of an object are distinct, and collections nest at
most 127 deep. A repeated key is reported at the next character that is no blank.
-/

namespace ContractBindings.Json

/-- The characters of a word after its first. -/
def word (rest : List Char) (value : Tree) (p : Place) : Except Nat (Tree × Place) :=
  match rest with
  | [] => .ok (value, p)
  | c :: cs =>
    match p.rest with
    | [] => .error p.line
    | d :: _ => if c == d then word cs value p.advance else .error p.advance.line

/-- The value of a hexadecimal digit. -/
def hexDigit? (c : Char) : Option Nat :=
  if c.isDigit then some (c.toNat - '0'.toNat)
  else if 'a' ≤ c && c ≤ 'f' then some (c.toNat - 'a'.toNat + 10)
  else if 'A' ≤ c && c ≤ 'F' then some (c.toNat - 'A'.toNat + 10)
  else none

/-- Four hexadecimal digits. -/
def hexUnit (p : Place) : Except Nat (Nat × Place) :=
  match p.rest with
  | a :: b :: c :: d :: _ =>
    match hexDigit? a, hexDigit? b, hexDigit? c, hexDigit? d with
    | some a, some b, some c, some d => .ok (((a * 16 + b) * 16 + c) * 16 + d, p.skip 4)
    | _, _, _, _ => .error (p.skip 4).line
  | rest => .error (p.skip rest.length).line

/-- The character of an escape by code unit, after its mark. A character beyond the first plane takes two units. -/
def unicodeEscape (p : Place) : Except Nat (Char × Place) := do
  let (unit, p) ← hexUnit p
  if 0xDC00 ≤ unit && unit ≤ 0xDFFF then .error p.line
  else if unit < 0xD800 || 0xDBFF < unit then return (Char.ofNat unit, p)
  else
    match p.rest with
    | '\\' :: 'u' :: _ => do
      let (low, p) ← hexUnit (p.skip 2)
      if 0xDC00 ≤ low && low ≤ 0xDFFF then
        return (Char.ofNat ((unit - 0xD800) * 0x400 + (low - 0xDC00) + 0x10000), p)
      else .error p.line
    | '\\' :: _ :: _ => .error (p.skip 2).line
    | _ => .error p.advance.line

/-- The character of an escape after its backslash. -/
def escape (p : Place) : Except Nat (Char × Place) :=
  match p.rest with
  | [] => .error p.line
  | c :: _ =>
    match c with
    | '"' => .ok ('"', p.advance)
    | '\\' => .ok ('\\', p.advance)
    | '/' => .ok ('/', p.advance)
    | 'b' => .ok (Char.ofNat 8, p.advance)
    | 'f' => .ok (Char.ofNat 0xC, p.advance)
    | 'n' => .ok ('\n', p.advance)
    | 'r' => .ok ('\r', p.advance)
    | 't' => .ok ('\t', p.advance)
    | 'u' => unicodeEscape p.advance
    | _ => .error p.advance.line

/-- The rest of a string after its opening quote, in front of the characters read before. -/
def stringFrom : Nat → Place → List Char → Except Nat (String × Place)
  | 0, p, _ => .error p.line
  | fuel + 1, p, text =>
    match p.rest with
    | [] => .error p.line
    | c :: _ =>
      if c == '"' then .ok (String.ofList text.reverse, p.advance)
      else if c == '\\' then do
        let (meant, p) ← escape p.advance
        stringFrom fuel p (meant :: text)
      else if c.toNat < 0x20 then .error p.advance.line
      else stringFrom fuel p.advance (c :: text)

/-- A string at its opening quote. -/
def string (p : Place) : Except Nat (String × Place) := stringFrom (p.rest.length + 1) p.advance []

/-- The tree of a number. -/
def Numeral.tree : Numeral → Tree
  | .int i => .int i
  | .float x => .float x

mutual

/-- A value. `depth` counts how deep collections may still nest, plus one. -/
def value (depth : Nat) : Nat → Place → Except Nat (Tree × Place)
  | 0, p => .error p.line
  | fuel + 1, p =>
    let p := p.skipBlanks
    match p.rest with
    | [] => .error p.line
    | c :: _ =>
      if c == 'n' then word ['u', 'l', 'l'] .null p.advance
      else if c == 't' then word ['r', 'u', 'e'] (.bool true) p.advance
      else if c == 'f' then word ['a', 'l', 's', 'e'] (.bool false) p.advance
      else if c == '-' then do
        let (n, p) ← unsignedNumber p.advance true
        return (n.tree, p)
      else if c.isDigit then do
        let (n, p) ← unsignedNumber p false
        return (n.tree, p)
      else if c == '"' then do
        let (s, p) ← string p
        return (.text s, p)
      else if c == '[' then
        if depth ≤ 1 then .error p.peekLine
        else do
          let (items, p) ← items (depth - 1) true fuel p.advance
          return (.sequence items, p)
      else if c == '{' then
        if depth ≤ 1 then .error p.peekLine
        else do
          let (entries, p) ← entries (depth - 1) true fuel p.advance []
          return (.mapping entries, p)
      else .error p.peekLine
termination_by structural fuel => fuel

/-- The items of an array up to and with its end. -/
def items (depth : Nat) (isFirst : Bool) : Nat → Place → Except Nat (List Tree × Place)
  | 0, p => .error p.line
  | fuel + 1, p =>
    let p := p.skipBlanks
    match p.rest with
    | [] => .error p.line
    | c :: _ =>
      if c == ']' then .ok ([], p.advance)
      else do
        let p ←
          if isFirst then .ok p
          else if c == ',' then
            let p := p.advance.skipBlanks
            match p.rest with
            | [] => .error p.line
            | d :: _ => if d == ']' then .error p.peekLine else .ok p
          else .error p.peekLine
        let (item, p) ← value depth fuel p
        let (rest, p) ← items depth false fuel p
        return (item :: rest, p)
termination_by structural fuel => fuel

/-- The entries of an object up to and with its end, given those before, the latest first. -/
def entries (depth : Nat) (isFirst : Bool) : Nat → Place → List (Tree × Tree) → Except Nat (List (Tree × Tree) × Place)
  | 0, p, _ => .error p.line
  | fuel + 1, p, before =>
    let p := p.skipBlanks
    match p.rest with
    | [] => .error p.line
    | c :: _ =>
      if c == '}' then .ok (before.reverse, p.advance)
      else do
        let p ←
          if isFirst then .ok p
          else if c == ',' then .ok p.advance.skipBlanks
          else .error p.peekLine
        match p.rest with
        | '"' :: _ => do
          let (key, p) ← string p
          let p := p.skipBlanks
          if (Tree.text key).occursIn before then .error p.line
          else
            match p.rest with
            | ':' :: _ => do
              let (tree, p) ← value depth fuel p.advance
              entries depth false fuel p ((.text key, tree) :: before)
            | _ => .error p.peekLine
        | _ => .error p.peekLine
termination_by structural fuel => fuel

end

/-- How deep collections may nest, plus one. -/
def depthLimit : Nat := 128

/-- The tree of a JSON text, or the line of the first fault. -/
def read (text : String) : Except Nat Tree := do
  let (tree, p) ← value depthLimit (2 * text.length + 4) (Place.start text)
  let p := p.skipBlanks
  if p.rest.isEmpty then return tree else .error p.peekLine

end ContractBindings.Json
