import ContractBindings.Items.Phrase.Basic
import ContractBindings.Items.Phrase.Tokens
import ContractBindings.Text.Quoted

/-!
# Attributes

Attributes in front of what they belong to, or inside of it, with the layout of each and the gap after it. Documentation
is laid out as comments where its text allows that.
-/

namespace ContractBindings.Items

open Layout

/-! ## Plain paths -/

/-- The keywords that may stand in a plain path. -/
def pathWords : List String := ["super", "self", "Self", "crate"]

/-- The segments of a path without arguments. -/
def plainSegments : Nat → Reader (List String)
  | 0 => failure
  | fuel + 1 => do
    let word ← Reader.identOr pathWords
    if ← Reader.mark? "::" then return word :: (← plainSegments fuel) else return [word]

/-- A path without arguments. -/
def plainPath : Reader PathPhrase := do
  let isAbsolute ← Reader.mark? "::"
  let segments ← plainSegments (← get).length
  let text := (if isAbsolute then "::" else "") ++ "::".intercalate segments
  let name := match segments with
    | [word] => if isAbsolute then none else some word
    | _ => none
  return ⟨[.text text], name, true, segments.length == 1 && !isAbsolute, false, true⟩

/-! ## Documentation -/

/-- The text without the blanks at its end. -/
def dropSpaceEnd (cs : List Char) : List Char := (cs.reverse.dropWhile (· == ' ')).reverse

/-- The marks of comments are balanced: `depth` comments are open before. -/
def commentsBalance : Nat → List Char → Bool
  | depth, '/' :: '*' :: cs => commentsBalance (depth + 1) cs
  | 0, '*' :: '/' :: _ => false
  | depth + 1, '*' :: '/' :: cs => commentsBalance depth cs
  | depth, _ :: cs => commentsBalance depth cs
  | depth, [] => depth == 0

/-- The lines of a text between line feeds. -/
def feedLines : List Char → List (List Char)
  | [] => [[]]
  | '\n' :: cs => [] :: feedLines cs
  | c :: cs =>
    match feedLines cs with
    | line :: rest => (c :: line) :: rest
    | [] => [[c]]

/-- The lines without the blanks at their ends; the last one keeps them. -/
def trimInterior : List (List Char) → List (List Char)
  | [] => []
  | [line] => [line]
  | line :: rest => dropSpaceEnd line :: trimInterior rest

/-- A comment of one line, or of several lines in marks. The text may not begin with some characters; as one line it may
begin with those of `inLine`. -/
def comment? (line block : String) (barred inLine : List Char) (cs : List Char) : Option (List Doc) :=
  let begins (chars : List Char) : Bool := cs.head?.any chars.contains
  if !cs.contains '\n' && (!begins barred || begins inLine) then
    some [.text (line ++ String.ofList (dropSpaceEnd cs)), .gap .hard]
  else if commentsBalance 0 cs && cs.getLast? != some '/' && !begins barred then
    some [.text (block ++ String.ofList (['\n'].intercalate (trimInterior (feedLines cs))) ++ "*/"), .gap .hard]
  else none

/-- The comment that an attribute with a text is laid out as. -/
def attributeComment? (isInner : Bool) (name text : String) : Option (List Doc) :=
  let cs := text.toList
  match name with
  | "doc" => if isInner then comment? "//!" "/*!" [] [] cs else comment? "///" "/**" ['*', '/'] ['*'] cs
  | "comment" => comment? "//" "/*" ['*', '!'] ['*', '!'] cs
  | _ => none

/-! ## Attributes -/

/-- The content of an attribute. -/
structure AttributePhrase where
  doc : List Doc
  /-- A word with a text as its value. -/
  comment : Option (String × String)

/-- The value of an attribute: a literal, or an expression that begins with no attribute. -/
def attributeValue (r : Readers) (name : Option String) : Reader (List Doc × Option (String × String)) := do
  match ← get with
  | [.literal text] =>
    Reader.skip 1
    return ([.text text], name.bind fun name => (textValue? text).map (name, ·))
  | trees =>
    Reader.ensure (!(atMark "#" trees && atGroup .square (trees.drop 1)))
    return ((← r.expr true).layout false, none)

/-- The content of an attribute: a path, alone, with tokens in brackets, or with a value. -/
def attributeContent (r : Readers) : Reader AttributePhrase := do
  let path : PathPhrase ←
    if ← Reader.word? "unsafe" then pure ⟨[.text "unsafe"], none, true, true, false, true⟩ else plainPath
  match ← get with
  | .group bracket content :: _ =>
    Reader.skip 1
    return ⟨path.doc ++ (attributeTree .word true (.group bracket content)).1, none⟩
  | trees =>
    if atMark "=" trees then
      Reader.skip 1
      let (value, comment) ← attributeValue r path.name
      return ⟨path.doc ++ [.text " = "] ++ value, comment⟩
    else return ⟨path.doc, none⟩

/-- The layout of an attribute, with the gap after it. -/
def AttributePhrase.layout (isInner : Bool) (a : AttributePhrase) : List Doc :=
  match a.comment.bind fun (name, text) => attributeComment? isInner name text with
  | some doc => doc
  | none => [.text (if isInner then "#![" else "#[")] ++ a.doc ++ [.text "]", .gap .space]

/-- An attribute in front of what it belongs to. -/
def outerAttribute (r : Readers) : Reader (List Doc) := do
  Reader.mark "#"
  return (← Reader.inside .square (attributeContent r)).layout false

/-- An attribute inside of what it belongs to. -/
def innerAttribute (r : Readers) : Reader (List Doc) := do
  Reader.mark "#"
  Reader.mark "!"
  return (← Reader.inside .square (attributeContent r)).layout true

/-- The attributes in front of something. -/
def outerAttributes (r : Readers) : Reader (List Doc) :=
  List.flatten <$> Reader.itemsUntil (fun trees => !atMark "#" trees) (outerAttribute r)

/-- The attributes inside of something. -/
def innerAttributes (r : Readers) : Reader (List Doc) :=
  List.flatten <$>
    Reader.itemsUntil (fun trees => !(atMark "#" trees && atMark "!" (trees.drop 1))) (innerAttribute r)

/-- A block with attributes inside. -/
def blockWithAttributes (r : Readers) : Reader BlockPhrase :=
  Reader.inside .curly do return ⟨← innerAttributes r, ← r.statements⟩

/-! ## Visibility -/

/-- The scope in parentheses after the word for public items, if it is one. -/
def scope? (trees : List Tree) : Option String :=
  match trees with
  | [.word text] => if ["crate", "self", "super"].contains text then some text else none
  | _ => none

/-- The text of the visibility in front of an item or a field. Parentheses that hold no scope belong to what follows. -/
def visibility : Reader String := do
  if ← Reader.word? "pub" then
    match ← get with
    | .group .round content :: _ =>
      match scope? content with
      | some text =>
        Reader.skip 1
        return "pub(" ++ text ++ ") "
      | none =>
        if atWord "in" content then
          let path ← Reader.inside .round do
            Reader.word "in"
            plainPath
          let text := match path.doc with
            | [.text text] => text
            | _ => ""
          return if (scope? [.word text]).isSome then "pub(" ++ text ++ ") " else "pub(in " ++ text ++ ") "
        else return "pub "
    | _ => return "pub "
  else return ""

end ContractBindings.Items
