import ContractBindings.Items.Phrase.Macro
import ContractBindings.Items.Phrase.Member

/-!
# Items

The items of a file, a module or a block, behind their attributes; the names that a file imports are a tree of paths. Each
item ends its line.
-/

namespace ContractBindings.Items

open Layout

/-! ## Imports -/

/-- Imported names. -/
structure ImportPhrase where
  doc : List Doc
  /-- The names end in a group. -/
  endsInGroup : Bool

/-- Imported names in a group. A group in a group ends a line. -/
def importGroup (items : List ImportPhrase) : List Doc :=
  let rec inner : List ImportPhrase → List Doc
    | [] => []
    | [item] => item.doc
    | item :: rest => item.doc ++ [.text ",", .gap (if item.endsInGroup then .hard else .space)] ++ inner rest
  [.text "\x7b"] ++ nested (outdented ([.gap .zero] ++ aligned (inner items) ++ [.gap .lastComma])) ++ [.text "\x7d"]

/-- Imported names; the flag allows paths in a group that begin with two colons. -/
def importTree : Nat → Bool → Reader ImportPhrase
  | 0, _ => failure
  | fuel + 1, rooted => do
    if ← Reader.mark? "*" then return ⟨[.text "*"], false⟩
    else if ← Reader.peek (atGroup .curly) then
      let items ← Reader.inside .curly (Reader.commaList do
        let isAbsolute ← if rooted then Reader.mark? "::" else pure false
        let tree ← importTree fuel (rooted && !isAbsolute)
        return ⟨(if isAbsolute then [.text "::"] else []) ++ tree.doc, tree.endsInGroup⟩)
      return ⟨importGroup items, true⟩
    else
      let name ← Reader.identOr ["self", "super", "crate", "try"]
      if ← Reader.mark? "::" then
        let tree ← importTree fuel false
        return ⟨[.text (name ++ "::")] ++ tree.doc, tree.endsInGroup⟩
      else if ← Reader.word? "as" then
        let newName ← Reader.identOr ["_"]
        return ⟨[.text (name ++ " as " ++ newName)], false⟩
      else return ⟨[.text name], false⟩

/-- The item that imports names, behind its attributes and words. -/
def importItem (words : String) : Reader (List Doc) := do
  Reader.word "use"
  let isAbsolute ← Reader.mark? "::"
  let tree ← importTree (Tree.sizeOfAll (← get) + 1) (!isAbsolute)
  Reader.mark ";"
  return [.text (words ++ "use " ++ if isAbsolute then "::" else "")] ++ tree.doc ++ [.text ";"]

/-! ## Records and enumerations -/

/-- What follows the name of a record: fields with names in braces, without names in parentheses, or none. -/
def recordItem (r : Readers) (words : String) : Reader (List Doc) := do
  Reader.word "struct"
  let name ← Reader.ident
  let parameters ← generics r
  let head := [.text (words ++ "struct " ++ name)] ++ parameters.doc
  let first ← conditions? r
  let trees ← get
  if first.isNone && atGroup .round trees then
    let fields ← positionalFields r
    let conditions ← conditions? r
    Reader.mark ";"
    return nested (head ++ positionalDoc fields ++ conditionLines true conditions)
  else if atGroup .curly trees then
    return bodied (head ++ conditionLines false first) (commaLines (← namedFields r))
  else
    Reader.mark ";"
    return nested (head ++ conditionLines true first)

/-- A record whose fields share their place. -/
def unionItem (r : Readers) (words : String) : Reader (List Doc) := do
  Reader.word "union"
  let name ← Reader.ident
  let parameters ← generics r
  let conditions ← conditions? r
  let fields ← namedFields r
  return bodied ([.text (words ++ "union " ++ name)] ++ parameters.doc ++ conditionLines false conditions)
    (commaLines fields)

/-- An enumeration. -/
def enumerationItem (r : Readers) (words : String) : Reader (List Doc) := do
  Reader.word "enum"
  let name ← Reader.ident
  let parameters ← generics r
  let conditions ← conditions? r
  let variants ← Reader.inside .curly (Reader.commaList (variant r))
  return bodied ([.text (words ++ "enum " ++ name)] ++ parameters.doc ++ conditionLines false conditions)
    (commaLines variants)

/-! ## Traits and implementations -/

/-- The lines of members, with the attributes in front of them. -/
def memberLines (r : Readers) (read : Readers → Reader (List Doc)) : Reader (List Doc) :=
  Reader.inside .curly do
    let attributes ← innerAttributes r
    return attributes ++ (← Reader.itemsUntil List.isEmpty (read r)).flatten

/-- The bounds of a trait end here. -/
def endsTraitBounds (trees : List Tree) : Bool := atWord "where" trees || atGroup .curly trees

/-- The bounds of a trait that stands for others end here. -/
def endsAliasBounds (trees : List Tree) : Bool := atWord "where" trees || atMark ";" trees

/-- A trait behind some words; the flag allows one that stands for bounds. -/
def traitItem (r : Readers) (words : String) (aliases : Bool) : Reader (List Doc) := do
  Reader.word "trait"
  let name ← Reader.ident
  let parameters ← generics r
  let head := [.text (words ++ "trait " ++ name)] ++ parameters.doc
  if aliases && (← Reader.mark? "=") then
    let bounds ← plusList r endsAliasBounds false
    let conditions ← conditions? r
    Reader.mark ";"
    return nested (head ++ [.text " = ", .gap .closed] ++ spaced "+ " bounds ++ conditionLines true conditions)
  else
    let bounds := (← Reader.after? ":" (plusList r endsTraitBounds true)).getD []
    let conditions ← conditions? r
    let lines ← memberLines r traitMember
    return bodied (head ++ (if bounds.isEmpty then [] else [.text ": "] ++ joined " + " bounds)
      ++ conditionLines false conditions) lines

/-- The words in front of what is implemented for constants, too. -/
def constantImpl : Reader Unit := do
  if ← Reader.peek fun trees => atMark "?" trees && atWord "const" (trees.drop 1) then Reader.skip 1
  let _ ← Reader.word? "const"

/-- An implementation behind some words. Only an implementation of a trait can be negative. -/
def implItem (r : Readers) (words : String) : Reader (List Doc) := do
  Reader.word "impl"
  let parameters ← (·.getD ⟨[], false⟩) <$> Reader.readIf atParameters (generics r)
  constantImpl
  let isNegative ← Reader.peek fun trees => atMark "!" trees && !atGroup .curly (trees.drop 1)
  if isNegative then Reader.skip 1
  let first ← r.type true
  let type ← Reader.readIf (atWord "for") do
    Reader.word "for"
    r.type true
  Reader.ensure (!(isNegative && type.isNone))
  let conditions ← conditions? r
  let lines ← memberLines r implMember
  let target := match type with
    | some type => [.text (if isNegative then "!" else "")] ++ first.doc ++ [.gap .space, .text "for "] ++ type.doc
    | none => first.doc
  return bodied (box (-indent) false (nested ([.text (words ++ "impl")] ++ parameters.doc) ++ [.text " "] ++ target)
    ++ conditionLines false conditions) lines

/-! ## Modules and other items -/

/-- A module behind some words. -/
def moduleItem (r : Readers) (words : String) : Reader (List Doc) := do
  Reader.word "mod"
  let name ← Reader.identOr ["try"]
  let head := words ++ "mod " ++ name
  if ← Reader.mark? ";" then return nested [.text (head ++ ";")]
  else
    let lines ← Reader.inside .curly do
      let attributes ← innerAttributes r
      let items ← Reader.itemsUntil List.isEmpty do r.item (← outerAttributes r)
      return attributes ++ items.flatten
    return bodied [.text (head ++ " ")] lines

/-- A foreign module behind some words. -/
def foreignItem (r : Readers) (words : String) : Reader (List Doc) := do
  let convention ← convention
  return bodied [.text (words ++ convention)] (← memberLines r foreignMember)

/-- The item that names another crate. -/
def crateItem (words : String) : Reader (List Doc) := do
  Reader.word "extern"
  Reader.word "crate"
  let name ← Reader.identOr ["self"]
  let newName ← Reader.readIf (atWord "as") do
    Reader.word "as"
    Reader.identOr ["_"]
  Reader.mark ";"
  return [.text (words ++ "extern crate " ++ name ++ newName.elim "" (" as " ++ ·) ++ ";")]

/-- A type that stands for another one. -/
def aliasItem (r : Readers) (words : String) : Reader (List Doc) := do
  let t ← typeItem r words true false
  return nested (t.head ++ conditionsInLine false t.conditions
    ++ (t.type.elim [] fun type => [.text "= ", .gap .closed] ++ box (-indent) false type.doc) ++ [.text ";"])

/-- A macro of the second kind. -/
def macroDefinition (words : String) : Reader (List Doc) := do
  Reader.word "macro"
  let name ← Reader.ident
  let _ ← Reader.readIf (atGroup .round) (Reader.group .round)
  let _ ← Reader.group .curly
  return [.text (words ++ "macro " ++ name)]

/-- An item that is unsafe, behind its word. -/
def unsafeItem (r : Readers) (words : String) : Reader (List Doc) := do
  Reader.word "unsafe"
  let trees ← get
  if atWord "trait" trees then traitItem r (words ++ "unsafe ") false
  else if atWord "auto" trees && atWord "trait" (trees.drop 1) then
    Reader.skip 1
    traitItem r (words ++ "unsafe auto ") false
  else if atWord "impl" trees then implItem r (words ++ "unsafe ")
  else if atWord "extern" trees then
    Reader.ensure (words == "")
    foreignItem r "unsafe "
  else moduleItem r (words ++ "unsafe ")

/-- An item behind the words that say where it can be seen. -/
def itemBehind (r : Readers) (words : String) : Reader (List Doc) := do
  let trees ← get
  let next := trees.drop 1
  if atFunction false trees then functionDoc r words false
  else if atWord "extern" trees then
    if atWord "crate" next then crateItem words
    else
      Reader.ensure (words == "")
      foreignItem r ""
  else if atWord "use" trees then importItem words
  else if atWord "static" trees then staticItem r words false
  else if atWord "const" trees then constant r words
  else if atWord "unsafe" trees then unsafeItem r words
  else if atWord "mod" trees then moduleItem r words
  else if atWord "type" trees then aliasItem r words
  else if atWord "struct" trees then recordItem r words
  else if atWord "enum" trees then enumerationItem r words
  else if atWord "union" trees && atIdent next then unionItem r words
  else if atWord "trait" trees then traitItem r words true
  else if atWord "auto" trees && atWord "trait" next then
    Reader.skip 1
    traitItem r (words ++ "auto ") false
  else if atWord "impl" trees then implItem r words
  else if atWord "default" trees && !atMark "!" next then
    let words := words ++ (← modifiers ["default", "unsafe"])
    implItem r words
  else if atWord "macro" trees then macroDefinition words
  else
    Reader.ensure (words == "" && atPathStart trees)
    macroEnd (← macroItem)

/-- An item under attributes. -/
def readItem (r : Readers) (attributes : List Doc) : Reader (List Doc) := do
  let words ← visibility
  return attributes ++ (← itemBehind r words) ++ [.gap .hard]

end ContractBindings.Items
