import ContractBindings.Items.Token
import ContractBindings.Items.Token.Literal
import ContractBindings.Text.Blank
import ContractBindings.Text.Quoted

/-!
# Reading tokens

The tokens of a text, where it has any: every character belongs to a token, a comment or the blanks between them, and
brackets are balanced. A documentation comment is an attribute with the text of the comment.
-/

namespace ContractBindings.Items

/-- White space between tokens, with the two marks of writing direction. -/
def isBlankBetween (c : Char) : Bool := Text.isBlank c || c.toNat == 0x200E || c.toNat == 0x200F

/-- The characters up to the end of the line, and from there on. -/
def lineRest : List Char → List Char × List Char
  | [] => ([], [])
  | '\n' :: cs => ([], '\n' :: cs)
  | '\r' :: '\n' :: cs => ([], '\n' :: cs)
  | c :: cs => (c :: (lineRest cs).1, (lineRest cs).2)

/-- The characters of a comment between its marks, and the text after it. Comments nest. -/
def blockRest : Nat → List Char → Option (List Char × List Char)
  | depth, '/' :: '*' :: cs => (blockRest (depth + 1) cs).map fun (text, rest) => ('/' :: '*' :: text, rest)
  | 0, '*' :: '/' :: cs => some ([], cs)
  | depth + 1, '*' :: '/' :: cs => (blockRest depth cs).map fun (text, rest) => ('*' :: '/' :: text, rest)
  | depth, c :: cs => (blockRest depth cs).map fun (text, rest) => (c :: text, rest)
  | _, [] => none

/-- A carriage return without a line feed behind it. -/
def hasLoneReturn : List Char → Bool
  | [] => false
  | '\r' :: '\n' :: cs => hasLoneReturn cs
  | '\r' :: _ => true
  | _ :: cs => hasLoneReturn cs

/-- The attribute that documentation is. -/
def docTokens (inner : Bool) (text : List Char) : List Token :=
  [.mark '#' false] ++ (if inner then [.mark '!' false] else [])
    ++ [.opening .square, .word "doc", .mark '=' false, .literal (Text.literal (String.ofList text)), .closing .square]

/-- The documentation comment at the start of a text, as an attribute. It holds no lone carriage return. -/
def docAt? (cs : List Char) : Option (List Token × List Char) :=
  let accept (inner : Bool) (text rest : List Char) : Option (List Token × List Char) :=
    if hasLoneReturn text then none else some (docTokens inner text, rest)
  match cs with
  | '/' :: '/' :: '!' :: rest => accept true (lineRest rest).1 (lineRest rest).2
  | '/' :: '*' :: '!' :: rest => (blockRest 0 rest).bind fun (text, rest) => accept true text rest
  | '/' :: '/' :: '/' :: '/' :: _ => none
  | '/' :: '/' :: '/' :: rest => accept false (lineRest rest).1 (lineRest rest).2
  | '/' :: '*' :: '*' :: '*' :: _ => none
  | '/' :: '*' :: '*' :: rest =>
    (blockRest 0 ('*' :: rest)).bind fun (text, rest) => accept false (text.drop 1) rest
  | _ => none

/-- What follows the comment at the start of a text, if it is no documentation. -/
def afterComment? (cs : List Char) : Option (List Char) :=
  match cs with
  | '/' :: '/' :: '/' :: '/' :: rest => some (lineRest rest).2
  | '/' :: '/' :: '/' :: _ => none
  | '/' :: '/' :: '!' :: _ => none
  | '/' :: '/' :: rest => some (lineRest rest).2
  | '/' :: '*' :: '*' :: '/' :: rest => some rest
  | '/' :: '*' :: '*' :: '*' :: rest => (blockRest 0 ('*' :: '*' :: rest)).map (·.2)
  | '/' :: '*' :: '*' :: _ => none
  | '/' :: '*' :: '!' :: _ => none
  | '/' :: '*' :: rest => (blockRest 0 rest).map (·.2)
  | _ => none

/-- The text without the blanks and comments at its start. -/
def skipBetween : Nat → List Char → List Char
  | 0, cs => cs
  | fuel + 1, cs =>
    match cs with
    | [] => []
    | c :: rest =>
      if isBlankBetween c then skipBetween fuel rest
      else
        match afterComment? cs with
        | some rest => skipBetween fuel rest
        | none => cs

/-- The characters that are marks. -/
def markChars : List Char :=
  ['~', '!', '@', '#', '$', '%', '^', '&', '*', '-', '=', '+', '|', ';', ':', ',', '<', '.', '>', '/', '?']

/-- A mark stands at the start of a text, which is no comment; the quote of a lifetime counts as one. -/
def startsMark : List Char → Bool
  | '/' :: '/' :: _ => false
  | '/' :: '*' :: _ => false
  | c :: _ => c == '\'' || markChars.contains c
  | [] => false

/-- Words that have no raw form. -/
def neverRaw : List String := ["_", "super", "self", "Self", "crate"]

/-- A word at the start of a text, plain or raw. -/
def wordToken? (cs : List Char) : Option (String × List Char) :=
  match cs with
  | 'r' :: '#' :: rest => do
    let (word, rest) ← wordAt? rest
    let word := String.ofList word
    if neverRaw.contains word then none else some ("r#" ++ word, rest)
  | _ => (wordAt? cs).map fun (word, rest) => (String.ofList word, rest)

/-- The name of a lifetime, after its quote. -/
def lifetime? (cs : List Char) : Option (Token × List Char) := do
  let (name, rest) ← wordToken? cs
  match rest with
  | '\'' :: _ => none
  | '#' :: _ => if name.startsWith "r#" then some (.lifetime name, rest) else none
  | _ => some (.lifetime name, rest)

/-- The beginnings of texts that no word begins with. -/
def textBeginnings : List (List Char) :=
  [['r', '"'], ['r', '#', '"'], ['r', '#', '#'], ['b', '"'], ['b', '\''], ['b', 'r', '"'], ['b', 'r', '#'], ['c', '"'],
   ['c', 'r', '"'], ['c', 'r', '#']]

/-- The token at the start of a text, which is no comment. -/
def tokenAt? (cs : List Char) : Option (Token × List Char) :=
  match cs with
  | [] => none
  | c :: rest =>
    match Bracket.opened? c, Bracket.closed? c with
    | some b, _ => some (.opening b, rest)
    | none, some b => some (.closing b, rest)
    | none, none =>
      match afterLiteral cs with
      | some rest => some (.literal (String.ofList (cs.take (cs.length - rest.length))), rest)
      | none =>
        if c == '\'' then lifetime? rest
        else if markChars.contains c then if startsMark cs then some (.mark c (startsMark rest), rest) else none
        else if textBeginnings.any fun text => (after? text cs).isSome then none
        else (wordToken? cs).map fun (word, rest) => (.word word, rest)

/-- The tokens of a text, where each step takes at least one character. -/
def tokensFrom : Nat → List Char → Option (List Token)
  | 0, _ => none
  | fuel + 1, cs =>
    match skipBetween (cs.length + 1) cs with
    | [] => some []
    | cs =>
      match (docAt? cs).orElse fun _ => (tokenAt? cs).map fun (token, rest) => ([token], rest) with
      | some (tokens, rest) => (tokensFrom fuel rest).map (tokens ++ ·)
      | none => none

/-- The text without a mark of byte order at its start. -/
def dropByteOrder : List Char → List Char
  | c :: cs => if c.toNat == 0xFEFF then cs else c :: cs
  | [] => []

/-- The trees of the tokens of a text; a mark of byte order may stand in front. -/
def trees? (text : String) : Option (List Tree) :=
  let cs := dropByteOrder text.toList
  (tokensFrom (cs.length + 1) cs).bind (Tree.ofTokens? [] [])

end ContractBindings.Items
