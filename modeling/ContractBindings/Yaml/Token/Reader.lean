import ContractBindings.Yaml.Token.Scalar
import ContractBindings.Yaml.Token.Tag

/-!
# From text to tokens

One pass over the text. Block structure comes from columns: a token at a deeper column opens a block collection, one at
a shallower column closes blocks. An implicit key is recognised only at its colon: the place where it might have begun
is kept for every flow level, and the key mark is put into the tokens there.
-/

namespace ContractBindings.Yaml

/-- The place where an implicit key may have begun. -/
structure KeyPlace where
  /-- The place is still open. -/
  possible : Bool
  /-- Nothing but a key may stand there. -/
  required : Bool
  /-- The number of tokens before it. -/
  position : Nat
  index : Nat
  line : Nat
  column : Nat
  deriving Repr, Inhabited

/-- No key can have begun. -/
def KeyPlace.closed : KeyPlace := ⟨false, false, 0, 0, 0, 0⟩

/-- A place in the text with the tokens before it, the latest first, and the open blocks. -/
structure Scan where
  place : Cursor
  tokens : List Token
  indent : Int
  outer : List Int
  /-- Possible keys of the open flow levels, innermost first, with the block level last. -/
  keys : List KeyPlace
  keyAllowed : Bool
  deriving Repr, Inhabited

namespace Scan

/-- The start of a text. -/
def start (cs : List Char) : Scan := ⟨Cursor.start cs, [], -1, [], [KeyPlace.closed], true⟩

/-- The place is inside a flow collection. -/
def inFlow (s : Scan) : Bool := s.keys.length > 1

/-- Adds a token. -/
def emit (s : Scan) (t : Token) : Scan := { s with tokens := t :: s.tokens }

/-- Puts a token in after the first `position` tokens. -/
def insert (s : Scan) (position : Nat) (t : Token) : Scan :=
  let later := s.tokens.length - position
  { s with tokens := s.tokens.take later ++ t :: s.tokens.drop later }

/-- Closes the blocks that are indented deeper than a column. -/
def closeBlocks (column : Int) : Nat → Scan → Scan
  | 0, s => s
  | fuel + 1, s =>
    if s.indent > column then
      closeBlocks column fuel
        { s.emit .blockEnd with indent := s.outer.headD (-1), outer := s.outer.tail }
    else s

/-- Closes deeper blocks, outside flow collections. -/
def unroll (s : Scan) (column : Int) : Scan :=
  if s.inFlow then s else closeBlocks column (s.outer.length + 1) s

/-- Opens a block at a column, if it lies deeper than the current one; its token goes after the first `position`
tokens. -/
def roll (s : Scan) (column : Nat) (position : Nat) (t : Token) : Scan :=
  if s.inFlow then s
  else if s.indent < column then { s.insert position t with indent := column, outer := s.indent :: s.outer }
  else s

/-- The possible key of the current level. -/
def currentKey (s : Scan) : KeyPlace := s.keys.headD KeyPlace.closed

/-- Replaces the possible key of the current level. -/
def setKey (s : Scan) (k : KeyPlace) : Scan := { s with keys := k :: s.keys.tail }

/-- Gives up the possible key of the current level; an error if a key is required there. -/
def dropKey (s : Scan) : Option Scan :=
  if s.currentKey.possible && s.currentKey.required then none else some (s.setKey KeyPlace.closed)

/-- Notes that a key may begin here, where that is allowed. -/
def noteKey (s : Scan) : Option Scan :=
  if s.keyAllowed then do
    let required := !s.inFlow && s.indent == (s.place.column : Int)
    let s ← s.dropKey
    some (s.setKey ⟨true, required, s.tokens.length, s.place.index, s.place.line, s.place.column⟩)
  else some s

/-- A key stays on its line and within 1024 characters; an error if one that is required does not. -/
def expireKeys (s : Scan) : Option Scan := do
  let keys ← s.keys.mapM fun k =>
    if k.possible && (k.line < s.place.line || k.index + 1024 < s.place.index) then
      (if k.required then none else some { k with possible := false })
    else some k
  some { s with keys := keys }

/-- Passes blanks, comments and line breaks before the next token. -/
def skipToToken : Nat → Scan → Scan
  | 0, s => s
  | fuel + 1, s =>
    let p := s.place
    let p := if p.index == 0 && p.rest.head? == some (Char.ofNat 0xFEFF) then p.advance else p
    let p := p.skipWhile fun c => c == ' ' || ((s.inFlow || !s.keyAllowed) && c == '\t')
    let p := if p.rest.head? == some '#' then p.skipLine else p
    if !p.rest.isEmpty && endsLine p.rest then
      skipToToken fuel { s with place := p.skipBreak, keyAllowed := s.keyAllowed || !s.inFlow }
    else { s with place := p }

/-- Passes `n` characters. -/
def pass (s : Scan) (n : Nat) : Scan := { s with place := s.place.advanceBy n }

/-- The end of the text closes all blocks. -/
def finish (s : Scan) : Option (List Token) := do
  let s ← (s.unroll (-1)).dropKey
  some s.tokens.reverse

/-- A document marker. -/
def documentMarker (s : Scan) (t : Token) : Option Scan := do
  let s ← (s.unroll (-1)).dropKey
  some ({ s with keyAllowed := false }.emit t |>.pass 3)

/-- A directive. -/
def directive (s : Scan) : Option Scan := do
  let s ← (s.unroll (-1)).dropKey
  let (t, p) ← scanDirective s.place
  some { s.emit t with place := p, keyAllowed := false }

/-- The start of a flow collection. -/
def openFlow (s : Scan) (t : Token) : Option Scan := do
  let s ← s.noteKey
  some ({ s with keys := KeyPlace.closed :: s.keys, keyAllowed := true }.emit t |>.pass 1)

/-- The end of a flow collection. -/
def closeFlow (s : Scan) (t : Token) : Option Scan := do
  let s ← s.dropKey
  let keys := if s.inFlow then s.keys.tail else s.keys
  some ({ s with keys := keys, keyAllowed := false }.emit t |>.pass 1)

/-- A comma of a flow collection. -/
def flowEntry (s : Scan) : Option Scan := do
  let s ← s.dropKey
  some ({ s with keyAllowed := true }.emit .flowEntry |>.pass 1)

/-- An entry of a block sequence. -/
def blockEntry (s : Scan) : Option Scan := do
  if !s.inFlow && !s.keyAllowed then none
  else do
    let s ← (s.roll s.place.column s.tokens.length .blockSequenceStart).dropKey
    some ({ s with keyAllowed := true }.emit .blockEntry |>.pass 1)

/-- The mark of an explicit key. -/
def explicitKey (s : Scan) : Option Scan := do
  if !s.inFlow && !s.keyAllowed then none
  else do
    let s ← (s.roll s.place.column s.tokens.length .blockMappingStart).dropKey
    some ({ s with keyAllowed := !s.inFlow }.emit .key |>.pass 1)

/-- The mark of a value: it ends the possible key, or an explicit one. -/
def value (s : Scan) : Option Scan :=
  let k := s.currentKey
  if k.possible then
    let s := (s.insert k.position .key).roll k.column k.position .blockMappingStart
    some ({ s.setKey { k with possible := false } with keyAllowed := false }.emit .value |>.pass 1)
  else if !s.inFlow && !s.keyAllowed then none
  else
    let s := s.roll s.place.column s.tokens.length .blockMappingStart
    some ({ s with keyAllowed := !s.inFlow }.emit .value |>.pass 1)

/-- An anchor or an alias. -/
def anchor (s : Scan) (make : String → Token) : Option Scan := do
  let s ← s.noteKey
  let (name, p) ← scanAnchorName s.place
  some { s.emit (make name) with place := p, keyAllowed := false }

/-- A tag. -/
def tag (s : Scan) : Option Scan := do
  let s ← s.noteKey
  let (t, p) ← scanTag s.inFlow s.place
  some { s.emit t with place := p, keyAllowed := false }

/-- A block scalar. -/
def block (s : Scan) (literal : Bool) : Option Scan := do
  let s ← s.dropKey
  let (text, p) ← blockScalar literal s.indent s.place
  some { s.emit (.scalar text (if literal then .literal else .folded)) with place := p, keyAllowed := true }

/-- A quoted scalar. -/
def quoted (s : Scan) (single : Bool) : Option Scan := do
  let s ← s.noteKey
  let (text, p) ← quotedScalar single s.place
  some { s.emit (.scalar text .quoted) with place := p, keyAllowed := false }

/-- A plain scalar. After a line break a new key may begin. -/
def plain (s : Scan) : Option Scan := do
  let s ← s.noteKey
  let (text, broken, p) ← plainScalar s.inFlow s.indent s.place
  some { s.emit (.scalar text .plain) with place := p, keyAllowed := broken }

/-- A character with which a plain scalar cannot begin. -/
def isIndicator (c : Char) : Bool :=
  ['-', '?', ':', ',', '[', ']', '{', '}', '#', '&', '*', '!', '|', '>', '\'', '"', '%', '@', '`'].contains c

/-- The token that begins with a character that is no blank, given what follows it. -/
def token (s : Scan) (c : Char) (rest : List Char) : Option Scan :=
  if s.place.column == 0 && c == '%' then s.directive
  else if s.place.atMarker '-' then s.documentMarker .documentStart
  else if s.place.atMarker '.' then s.documentMarker .documentEnd
  else if c == '[' then s.openFlow .flowSequenceStart
  else if c == '{' then s.openFlow .flowMappingStart
  else if c == ']' then s.closeFlow .flowSequenceEnd
  else if c == '}' then s.closeFlow .flowMappingEnd
  else if c == ',' then s.flowEntry
  else if c == '-' && endsWord rest then s.blockEntry
  else if c == '?' && (s.inFlow || endsWord rest) then s.explicitKey
  else if c == ':' && (s.inFlow || endsWord rest) then s.value
  else if c == '*' then s.anchor .alias
  else if c == '&' then s.anchor .anchor
  else if c == '!' then s.tag
  else if c == '|' && !s.inFlow then s.block true
  else if c == '>' && !s.inFlow then s.block false
  else if c == '\'' then s.quoted true
  else if c == '"' then s.quoted false
  else if !isSpace c && (!isIndicator c || (c == '-' && !(rest.head?.map isSpace).getD false)
      || (!s.inFlow && (c == '?' || c == ':') && !endsWord rest)) then s.plain
  else none

/-- The tokens from a place to the end of the text. -/
def run : Nat → Scan → Option (List Token)
  | 0, _ => none
  | fuel + 1, s => do
    let s ← (skipToToken (s.place.rest.length + 1) s).expireKeys
    match s.place.rest with
    | [] => s.finish
    | c :: rest => do
      let s ← (s.unroll s.place.column).token c rest
      run fuel s

end Scan

/-- The tokens of a text, if it can be divided into tokens. A byte order mark at its start is no part of it. -/
def tokens? (text : String) : Option (List Token) :=
  let cs := if text.toList.head? == some (Char.ofNat 0xFEFF) then text.toList.tail else text.toList
  if cs.all isAllowed then Scan.run (cs.length + 2) (Scan.start cs) else none

end ContractBindings.Yaml
