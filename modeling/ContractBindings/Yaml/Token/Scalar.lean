import ContractBindings.Yaml.Token

/-!
# Scalars in a YAML text

Plain, quoted and block scalars. Within plain and quoted scalars a line break is folded: a single one becomes a blank,
of several the first is dropped. A block scalar keeps its breaks, or folds those between two lines that begin with no
blank, and ends by its chomping mark.
-/

namespace ContractBindings.Yaml

/-- White space met inside a scalar, each part with its latest character first: blanks on one line, or the first line
break and those after it. -/
structure Fold where
  broken : Bool
  spaces : List Char
  first : List Char
  further : List Char

namespace Fold

/-- No white space. -/
def none : Fold := ⟨false, [], [], []⟩

/-- Puts the folded white space in front of a text that is kept with its latest character first. -/
def join (f : Fold) (text : List Char) : List Char :=
  if f.broken then
    if f.first == ['\n'] then (if f.further.isEmpty then ' ' :: text else f.further ++ text)
    else f.further ++ f.first ++ text
  else f.spaces ++ text

/-- Reads the white space at a place. In a plain scalar a tab must not stand in the indentation of a later line;
`margin` is the least column where it may. -/
def read (margin : Nat) : Nat → Cursor → Fold → Option (Fold × Cursor)
  | 0, p, f => some (f, p)
  | fuel + 1, p, f =>
    match p.rest with
    | [] => some (f, p)
    | c :: _ =>
      if isSpace c then
        if f.broken && p.column < margin && c == '\t' then Option.none
        else read margin fuel p.advance (if f.broken then f else { f with spaces := c :: f.spaces })
      else if isBreak c then
        read margin fuel p.skipBreak
          (if f.broken then { f with further := p.breakChars ++ f.further }
          else { f with broken := true, spaces := [], first := p.breakChars })
      else some (f, p)

end Fold

/-- Characters that end a plain scalar inside a flow collection. -/
def isFlowStop (c : Char) : Bool := c == ',' || c == '[' || c == ']' || c == '{' || c == '}'

/-- A plain scalar ends before this text. -/
def plainStops (inFlow : Bool) : List Char → Bool
  | [] => true
  | c :: rest => isSpace c || isBreak c || (c == ':' && endsWord rest) || (inFlow && isFlowStop c)

/-- A colon before a flow character is refused inside a flow collection. -/
def badColon (inFlow : Bool) : List Char → Bool
  | ':' :: c :: _ => inFlow && (isFlowStop c || c == '?')
  | _ => false

/-- The characters of a plain scalar up to white space or its end, put in front of those read before. -/
def plainRun (inFlow : Bool) : Nat → Cursor → List Char → Option (List Char × Cursor)
  | 0, p, text => some (text, p)
  | fuel + 1, p, text =>
    if badColon inFlow p.rest then none
    else if plainStops inFlow p.rest then some (text, p)
    else
      match p.rest with
      | c :: _ => plainRun inFlow fuel p.advance (c :: text)
      | [] => some (text, p)

/-- The rest of a plain scalar: its text so far, the white space before this place, and the margin below which a later
line does not belong to it. The answer tells whether white space with a line break followed the scalar. -/
def plainFrom (inFlow : Bool) (margin : Nat) :
    Nat → Cursor → Fold → List Char → Option (List Char × Bool × Cursor)
  | 0, p, f, text => some (text, f.broken, p)
  | fuel + 1, p, f, text =>
    if p.atDocumentMarker || p.rest.head? == some '#' then some (text, f.broken, p)
    else if badColon inFlow p.rest then none
    else if plainStops inFlow p.rest && !(endsWord p.rest && !p.rest.isEmpty) then some (text, f.broken, p)
    else do
      let (text, f, p) ←
        if plainStops inFlow p.rest then some (text, f, p)
        else do
          let (text, p) ← plainRun inFlow (p.rest.length + 1) p (f.join text)
          some (text, Fold.none, p)
      match p.rest with
      | [] => some (text, f.broken, p)
      | c :: _ =>
        if isSpace c || isBreak c then
          let (f, p) ← Fold.read margin (p.rest.length + 1) p f
          if !inFlow && p.column < margin then some (text, f.broken, p)
          else plainFrom inFlow margin fuel p f text
        else some (text, f.broken, p)

/-- A plain scalar in a block of the given indentation, and whether a line break followed it. -/
def plainScalar (inFlow : Bool) (indent : Int) (p : Cursor) : Option (String × Bool × Cursor) := do
  let (text, broken, p) ← plainFrom inFlow (indent + 1).toNat (p.rest.length + 1) p Fold.none []
  some (String.ofList text.reverse, broken, p)

/-- The value of a hexadecimal digit. -/
def hexDigit? (c : Char) : Option Nat :=
  if c.isDigit then some (c.toNat - '0'.toNat)
  else if 'a' ≤ c && c ≤ 'f' then some (c.toNat - 'a'.toNat + 10)
  else if 'A' ≤ c && c ≤ 'F' then some (c.toNat - 'A'.toNat + 10)
  else none

/-- The value of exactly `n` hexadecimal digits. -/
def hexDigits? (n : Nat) (cs : List Char) : Option Nat :=
  if (cs.take n).length = n then
    (cs.take n).foldlM (fun value c => (hexDigit? c).map fun d => value * 16 + d) 0
  else none

/-- The character with a code point, unless it is a surrogate or out of range. -/
def charOf? (n : Nat) : Option Char :=
  if n.isValidChar then some (Char.ofNat n) else none

/-- An escape after its backslash: the character meant and the number of characters of the escape. -/
def escape? : List Char → Option (Char × Nat)
  | [] => none
  | c :: cs =>
    match c with
    | '0' => some (Char.ofNat 0, 1)
    | 'a' => some (Char.ofNat 7, 1)
    | 'b' => some (Char.ofNat 8, 1)
    | 't' => some ('\t', 1)
    | '\t' => some ('\t', 1)
    | 'n' => some ('\n', 1)
    | 'v' => some (Char.ofNat 0xB, 1)
    | 'f' => some (Char.ofNat 0xC, 1)
    | 'r' => some ('\r', 1)
    | 'e' => some (Char.ofNat 0x1B, 1)
    | ' ' => some (' ', 1)
    | '"' => some ('"', 1)
    | '/' => some ('/', 1)
    | '\\' => some ('\\', 1)
    | 'N' => some (Char.ofNat 0x85, 1)
    | '_' => some (Char.ofNat 0xA0, 1)
    | 'L' => some (Char.ofNat 0x2028, 1)
    | 'P' => some (Char.ofNat 0x2029, 1)
    | 'x' => ((hexDigits? 2 cs).bind charOf?).map fun c => (c, 3)
    | 'u' => ((hexDigits? 4 cs).bind charOf?).map fun c => (c, 5)
    | 'U' => ((hexDigits? 8 cs).bind charOf?).map fun c => (c, 9)
    | _ => none

/-- The characters of a quoted scalar up to white space or the closing quote. The last part of the answer is set when an
escaped line break ended them. -/
def quotedRun (single : Bool) : Nat → Cursor → List Char → Option (List Char × Bool × Cursor)
  | 0, p, text => some (text, false, p)
  | fuel + 1, p, text =>
    match p.rest with
    | [] => some (text, false, p)
    | c :: rest =>
      if isSpace c || isBreak c then some (text, false, p)
      else if single then
        if c == '\'' then
          if rest.head? == some '\'' then quotedRun single fuel (p.advanceBy 2) ('\'' :: text)
          else some (text, false, p)
        else quotedRun single fuel p.advance (c :: text)
      else if c == '"' then some (text, false, p)
      else if c == '\\' then
        if !rest.isEmpty && endsLine rest then some (text, true, p.advance.skipBreak)
        else do
          let (meant, size) ← escape? rest
          quotedRun single fuel (p.advanceBy (size + 1)) (meant :: text)
      else quotedRun single fuel p.advance (c :: text)

/-- The rest of a quoted scalar after its opening quote. -/
def quotedFrom (single : Bool) : Nat → Cursor → List Char → Option (List Char × Cursor)
  | 0, _, _ => none
  | fuel + 1, p, text =>
    if p.atDocumentMarker || p.rest.isEmpty then none
    else do
      let (text, escaped, p) ← quotedRun single (p.rest.length + 1) p text
      if p.rest.head? == some (if single then '\'' else '"') then some (text, p.advance)
      else
        let (f, p) ← Fold.read 0 (p.rest.length + 1) p { Fold.none with broken := escaped }
        quotedFrom single fuel p (f.join text)

/-- A scalar in single or double quotes. -/
def quotedScalar (single : Bool) (p : Cursor) : Option (String × Cursor) := do
  let (text, p) ← quotedFrom single (p.rest.length + 1) p.advance []
  some (String.ofList text.reverse, p)

/-- What becomes of the line breaks at the end of a block scalar. -/
inductive Chomping where
  | strip
  | clip
  | keep
  deriving Repr, DecidableEq

/-- The chomping mark and the indentation digit after the mark of a block scalar, in either order. -/
def blockHeader (p : Cursor) : Option (Chomping × Nat × Cursor) :=
  let mark (c : Char) : Option Chomping :=
    if c == '+' then some .keep else if c == '-' then some .strip else none
  let digit (p : Cursor) : Option (Nat × Cursor) :=
    match p.rest with
    | c :: _ =>
      if c == '0' then none
      else if c.isDigit then some (c.toNat - '0'.toNat, p.advance)
      else some (0, p)
    | [] => some (0, p)
  match p.rest with
  | [] => some (.clip, 0, p)
  | c :: _ =>
    match mark c with
    | some chomping => (digit p.advance).map fun (n, p) => (chomping, n, p)
    | none => do
      let (n, p) ← digit p
      if n == 0 then some (.clip, 0, p)
      else
        match p.rest.head?.bind mark with
        | some chomping => some (chomping, n, p.advance)
        | none => some (.clip, n, p)

/-- Blank lines and the indentation before a line of a block scalar, whose indentation may not be settled yet (zero).
The answer holds the indentation found so far, the widest one seen, and the breaks, the latest first. -/
def blockBreaks : Nat → Cursor → (indent widest : Nat) → List Char → Option (Nat × List Char × Cursor)
  | 0, p, _, widest, breaks => some (widest, breaks, p)
  | fuel + 1, p, indent, widest, breaks =>
    let room := if indent == 0 then p.rest.length else indent - p.column
    let p := p.advanceBy ((p.run (· == ' ')).length.min room)
    let widest := widest.max p.column
    if (indent == 0 || p.column < indent) && p.rest.head? == some '\t' then none
    else if !p.rest.isEmpty && endsLine p.rest then
      blockBreaks fuel p.skipBreak indent widest (p.breakChars ++ breaks)
    else some (widest, breaks, p)

/-- The breaks before a line, and the indentation, which the widest of the leading lines settles if no digit does. -/
def blockIndent (parent : Int) (indent : Nat) (p : Cursor) : Option (Nat × List Char × Cursor) := do
  let (widest, breaks, p) ← blockBreaks (p.rest.length + 1) p indent 0 []
  if indent == 0 then some ((widest.max (parent + 1).toNat).max 1, breaks, p) else some (indent, breaks, p)

/-- The lines of a block scalar. `lead` is the break that ended the line before, `breaks` those of the blank lines after
it, and `afterBlank` tells whether that line began with a blank. -/
def blockLines (literal : Bool) (parent : Int) (indent : Nat) :
    Nat → Cursor → (text lead breaks : List Char) → (afterBlank : Bool) →
    Option (List Char × List Char × List Char × Cursor)
  | 0, p, text, lead, breaks, _ => some (text, lead, breaks, p)
  | fuel + 1, p, text, lead, breaks, afterBlank =>
    if p.column == indent && !p.rest.isEmpty then do
      let startsBlank := (p.rest.head?.map isSpace).getD false
      let text :=
        if !literal && lead == ['\n'] && !afterBlank && !startsBlank then
          (if breaks.isEmpty then ' ' :: text else text)
        else lead ++ text
      let line := p.run fun c => !isBreak c
      let text := line.reverse ++ breaks ++ text
      let p := p.skipLine
      let (_, further, next) ← blockIndent parent indent p.skipBreak
      blockLines literal parent indent fuel next text p.breakChars further startsBlank
    else some (text, lead, breaks, p)

/-- A block scalar in a block of the given indentation. -/
def blockScalar (literal : Bool) (parent : Int) (p : Cursor) : Option (String × Cursor) := do
  let (chomping, digit, p) ← blockHeader p.advance
  let p := p.skipWhile isSpace
  let p := if p.rest.head? == some '#' then p.skipLine else p
  if !endsLine p.rest then none
  else
    let p := p.skipBreak
    let asked := if digit == 0 then 0 else if 0 ≤ parent then parent.toNat + digit else digit
    let (indent, breaks, p) ← blockIndent parent asked p
    let (text, lead, breaks, p) ← blockLines literal parent indent (p.rest.length + 1) p [] [] breaks false
    let text :=
      match chomping with
      | .strip => text
      | .clip => lead ++ text
      | .keep => breaks ++ lead ++ text
    some (String.ofList text.reverse, p)

end ContractBindings.Yaml
