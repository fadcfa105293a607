import ContractBindings.Yaml.Token

/-!
# Directives, anchors and tags

The tokens that are made of names and URIs. An escape in a URI stands for one octet; the octets of one character follow
each other.
-/

namespace ContractBindings.Yaml

/-- A character of a URI outside escapes. Inside angle brackets commas and square brackets may stand, too. -/
def isUriChar (verbatim : Bool) (c : Char) : Bool :=
  isNameChar c || [';', '/', '?', ':', '@', '&', '=', '+', '$', '.', '!', '~', '*', '\'', '(', ')'].contains c
    || (verbatim && (c == ',' || c == '[' || c == ']'))

/-- An octet escaped by a percent sign. -/
def escapedOctet? : List Char → Option Nat
  | '%' :: a :: b :: _ => do
    let high ← hex a
    let low ← hex b
    some (high * 16 + low)
  | _ => none
where
  /-- The value of a hexadecimal digit. -/
  hex (c : Char) : Option Nat :=
    if c.isDigit then some (c.toNat - '0'.toNat)
    else if 'a' ≤ c && c ≤ 'f' then some (c.toNat - 'a'.toNat + 10)
    else if 'A' ≤ c && c ≤ 'F' then some (c.toNat - 'A'.toNat + 10)
    else none

/-- The number of octets that the first octet of a character announces. -/
def octetCount? (octet : Nat) : Option Nat :=
  if octet < 0x80 then some 1
  else if octet < 0xC0 then none
  else if octet < 0xE0 then some 2
  else if octet < 0xF0 then some 3
  else if octet < 0xF8 then some 4
  else none

/-- The continuation octets of an escaped character after the value of those before. -/
def furtherOctets : Nat → Nat → Cursor → Option (Nat × Cursor)
  | 0, value, p => some (value, p)
  | n + 1, value, p => do
    let octet ← escapedOctet? p.rest
    if octet / 64 == 2 then furtherOctets n (value * 64 + octet % 64) (p.advanceBy 3) else none

/-- An escaped character. -/
def escapedChar? (p : Cursor) : Option (Char × Cursor) := do
  let first ← escapedOctet? p.rest
  let count ← octetCount? first
  let lead := if count == 1 then first else first % Nat.pow 2 (7 - count)
  let (value, p) ← furtherOctets (count - 1) lead (p.advanceBy 3)
  if value.isValidChar then some (Char.ofNat value, p) else none

/-- The characters of a URI, in front of those read before. -/
def uriRun (verbatim : Bool) : Nat → Cursor → List Char → Option (List Char × Cursor)
  | 0, p, text => some (text, p)
  | fuel + 1, p, text =>
    match p.rest with
    | [] => some (text, p)
    | c :: _ =>
      if c == '%' then do
        let (meant, p) ← escapedChar? p
        uriRun verbatim fuel p (meant :: text)
      else if isUriChar verbatim c then uriRun verbatim fuel p.advance (c :: text)
      else some (text, p)

/-- A URI after a part already read, at least one character in all. -/
def uri (verbatim : Bool) (lead : List Char) (p : Cursor) : Option (String × Cursor) := do
  let (text, p) ← uriRun verbatim (p.rest.length + 1) p []
  if lead.isEmpty && text.isEmpty then none else some (String.ofList (lead.drop 1 ++ text.reverse), p)

/-- A tag handle: an exclamation mark, perhaps a name, and perhaps a second mark. -/
def tagHandle (p : Cursor) : Option (List Char × Cursor) :=
  if p.rest.head? == some '!' then
    let name := p.advance.run isNameChar
    let p := p.advance.skipWhile isNameChar
    if p.rest.head? == some '!' then some ('!' :: name ++ ['!'], p.advance) else some ('!' :: name, p)
  else none

/-- The tag at an exclamation mark. -/
def scanTag (inFlow : Bool) (p : Cursor) : Option (Token × Cursor) := do
  let (token, p) ←
    if (p.rest.drop 1).head? == some '<' then do
      let (suffix, p) ← uri true [] (p.advanceBy 2)
      if p.rest.head? == some '>' then some (Token.tag "" suffix, p.advance) else none
    else do
      let (handle, p) ← tagHandle p
      if handle.length ≥ 2 && handle.getLast? == some '!' then do
        let (suffix, p) ← uri false [] p
        some (Token.tag (String.ofList handle) suffix, p)
      else do
        let (suffix, p) ← uri false handle p
        some (if suffix == "" then Token.tag "" "!" else Token.tag "!" suffix, p)
  if endsWord p.rest || (inFlow && p.rest.head? == some ',') then some (token, p) else none

/-- The name after an anchor or alias mark. -/
def scanAnchorName (p : Cursor) : Option (String × Cursor) :=
  let name := p.advance.run isNameChar
  let p := p.advance.skipWhile isNameChar
  let ended := endsWord p.rest ||
    ((p.rest.head?.map fun c => ['?', ':', ',', ']', '}', '%', '@', '`'].contains c).getD false)
  if name.isEmpty || !ended then none else some (String.ofList name, p)

/-- A number of a version directive, at most nine digits. -/
def versionNumber (p : Cursor) : Option (Nat × Cursor) :=
  let digits := p.run Char.isDigit
  if digits.isEmpty || digits.length > 9 then none
  else some (digits.foldl (fun n c => n * 10 + (c.toNat - '0'.toNat)) 0, p.skipWhile Char.isDigit)

/-- The directive at a percent sign, with the rest of its line. -/
def scanDirective (p : Cursor) : Option (Token × Cursor) := do
  let name := p.advance.run isNameChar
  let p := p.advance.skipWhile isNameChar
  if name.isEmpty || !endsWord p.rest then none
  else do
    let (token, p) ←
      if name == ['Y', 'A', 'M', 'L'] then do
        let (major, p) ← versionNumber (p.skipWhile isSpace)
        if p.rest.head? == some '.' then do
          let (minor, p) ← versionNumber p.advance
          some (Token.versionDirective major minor, p)
        else none
      else if name == ['T', 'A', 'G'] then do
        let (handle, p) ← tagHandle (p.skipWhile isSpace)
        if handle.length ≥ 2 && handle.getLast? != some '!' then none
        else if !(p.rest.head?.map isSpace).getD false then none
        else do
          let (lead, p) ← uri true [] (p.skipWhile isSpace)
          if endsWord p.rest then some (Token.tagDirective (String.ofList handle) lead, p) else none
      else none
    let p := p.skipWhile isSpace
    let p := if p.rest.head? == some '#' then p.skipLine else p
    if endsLine p.rest then some (token, p.skipBreak) else none

end ContractBindings.Yaml
