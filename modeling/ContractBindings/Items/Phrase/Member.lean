import ContractBindings.Items.Phrase.Function

/-!
# Members

What records, enumerations, traits, implementations and foreign modules are made of: fields and variants, and functions,
constants, types and calls of macros as members, with the layout of each.
-/

namespace ContractBindings.Items

open Layout

/-! ## Fields and variants -/

/-- A record without a name stands as the type of a field. -/
def atNamelessRecord (trees : List Tree) : Bool :=
  atWord "struct" trees || (atWord "union" trees && atGroup .curly (trees.drop 1))

mutual

/-- The type of a field without a name, which may be a record. -/
def namelessFieldType (r : Readers) : Nat → Reader (List Doc)
  | 0 => failure
  | fuel + 1 => do
    if ← Reader.peek atNamelessRecord then
      let word ← Reader.anyWord
      let fields ← Reader.inside .curly (Reader.commaList (namedField r fuel))
      return [.text (word ++ " \x7b ")] ++ joined ", " fields ++ [.text " \x7d"]
    else return (← r.type true).doc
  termination_by structural fuel => fuel

/-- A field with a name. -/
def namedField (r : Readers) : Nat → Reader (List Doc)
  | 0 => failure
  | fuel + 1 => do
    let attributes ← outerAttributes r
    let words ← visibility
    let name ← Reader.identOr ["_"]
    Reader.mark ":"
    let type ← if name == "_" then namelessFieldType r fuel else (·.doc) <$> r.type true
    return attributes ++ [.text (words ++ name ++ ": ")] ++ type
  termination_by structural fuel => fuel

end

/-- The fields with names of a record. -/
def namedFields (r : Readers) : Reader (List (List Doc)) := do
  let fuel := 2 * Tree.sizeOfAll (← get) + 2
  Reader.inside .curly (Reader.commaList (namedField r fuel))

/-- A field without a name. -/
def positionalField (r : Readers) : Reader (List Doc) := do
  let attributes ← outerAttributes r
  let words ← visibility
  return attributes ++ [.text words] ++ (← r.type true).doc

/-- The fields without names of a record. -/
def positionalFields (r : Readers) : Reader (List (List Doc)) :=
  Reader.inside .round (Reader.commaList (positionalField r))

/-- Fields in parentheses, inside of a group. -/
def positionalDoc (fields : List (List Doc)) : List Doc :=
  [.text "("] ++ outdented (.gap .zero :: separated .lastComma fields) ++ [.text ")"]

/-- Items that each take a line, with a comma behind. -/
def commaLines (items : List (List Doc)) : List Doc := items.flatMap (· ++ [.text ",", .gap .hard])

/-- A variant of an enumeration. Its visibility is not shown. -/
def variant (r : Readers) : Reader (List Doc) := do
  let attributes ← outerAttributes r
  let _ ← visibility
  let name ← Reader.ident
  let trees ← get
  let fields ← do
    if atGroup .curly trees then
      let inner := outdented (.gap .space :: separated .lastCommaSpace (← namedFields r))
      pure ([.text " \x7b"] ++ nested inner ++ [.text "\x7d"])
    else if atGroup .round trees then pure (nested (positionalDoc (← positionalFields r)))
    else pure []
  let value ← Reader.after? "=" (r.expr true)
  return attributes ++ [.text name] ++ fields ++ value.elim [] fun e => [.text " = "] ++ e.layout false

/-! ## Constants and types -/

/-- A constant behind some words. -/
def constant (r : Readers) (words : String) : Reader (List Doc) := do
  Reader.word "const"
  let name ← Reader.identOr ["_"]
  let parameters ← generics r
  Reader.mark ":"
  let type ← r.type true
  let value ← Reader.after? "=" (r.expr true)
  let conditions ← conditions? r
  Reader.mark ";"
  return box 0 true ([.text (words ++ "const " ++ name)] ++ parameters.doc ++ [.text ": "] ++ type.doc
    ++ (value.elim [] fun e => [.text " = ", .gap .closed] ++ e.layout false) ++ conditionsInLine true conditions)

/-- The name of a type as an item or member, with what may be said of it. -/
structure TypeItemPhrase where
  /-- The words, the name and the parameters. -/
  head : List Doc
  bounds : List (List Doc)
  type : Option TypePhrase
  conditions : Option (List (List Doc))

/-- The bounds of a type as an item or member end here. -/
def endsTypeBounds (trees : List Tree) : Bool := atWord "where" trees || atMark "=" trees || atMark ";" trees

/-- Bounds with plus signs between them, as long as the trees do not stop them. -/
def plusList (r : Readers) (stop : List Tree → Bool) (constants : Bool) : Reader (List (List Doc)) :=
  Reader.listUntil stop "+" ((·.doc) <$> r.bound false constants)

/-- A type as an item or member behind some words; the flags allow conditions before and after what it stands for. -/
def typeItem (r : Readers) (words : String) (before after : Bool) : Reader TypeItemPhrase := do
  Reader.word "type"
  let name ← Reader.ident
  let parameters ← generics r
  let bounds ← Reader.after? ":" (plusList r endsTypeBounds true)
  let first ← if before then conditions? r else pure none
  let type ← Reader.after? "=" (r.type true)
  let conditions ← if after && first.isNone then conditions? r else pure first
  Reader.mark ";"
  return ⟨[.text (words ++ "type " ++ name)] ++ parameters.doc, bounds.getD [], type, conditions⟩

/-- The layout of a type as a member. -/
def TypeItemPhrase.memberDoc (t : TypeItemPhrase) : List Doc :=
  let bounds := if t.bounds.isEmpty then [] else [.text ": "] ++ spaced "+ " t.bounds
  nested (t.head ++ bounds
    ++ (t.type.elim [] fun type => [.text " = ", .gap .closed] ++ box (-indent) false type.doc)
    ++ conditionsInLine true t.conditions)

/-! ## Members -/

/-- A call of a macro behind its path. Only one in curly brackets needs no semicolon. -/
def macroEnd (call : MacroPhrase) : Reader (List Doc) := do
  if call.bracket = .curly then return call.doc
  Reader.mark ";"
  return call.doc ++ [.text ";"]

/-- A call of a macro as a member. -/
def macroMember : Reader (List Doc) := do
  let path ← plainPath
  Reader.mark "!"
  macroEnd (← macroCall path)

/-- A member of a trait or of an implementation behind some words. -/
def memberBehind (r : Readers) (words : String) : Reader (List Doc) := do
  let trees ← get
  if atFunction false trees then functionDoc r words false
  else if atWord "const" trees then constant r words
  else if atWord "type" trees then return (← typeItem r words false true).memberDoc
  else
    Reader.ensure (words == "" && atPathStart trees)
    macroMember

/-- A member of a trait. -/
def traitMember (r : Readers) : Reader (List Doc) := do
  let attributes ← outerAttributes r
  let words := (← visibility) ++ (← modifiers ["default"])
  return attributes ++ (← memberBehind r words) ++ [.gap .hard]

/-- A member of an implementation. The word for members that others replace can be the name of a macro, too. -/
def implMember (r : Readers) : Reader (List Doc) := do
  let attributes ← outerAttributes r
  let words ← visibility
  let isMacro ← Reader.peek fun trees => atMark "!" (trees.drop 1)
  let words := words ++ (← modifiers (if isMacro then [] else ["default"]))
  return attributes ++ (← memberBehind r words) ++ [.gap .hard]

/-- The words in front of a static item of a foreign module. -/
def staticWords : Reader String := do
  if ← Reader.peek (atWord "unsafe") then modifiers ["unsafe"] else modifiers ["safe"]

/-- A static item behind some words, with its type and its value, of which one may be missing. The flag requires a
type. -/
def staticItem (r : Readers) (words : String) (typed : Bool) : Reader (List Doc) := do
  Reader.word "static"
  let mutability ← modifiers ["mut"]
  let name ← Reader.ident
  let type ← Reader.after? ":" (r.type true)
  let value ← Reader.after? "=" (r.expr true)
  Reader.ensure (type.isSome || (!typed && value.isSome))
  Reader.mark ";"
  return box 0 true ([.text (words ++ "static " ++ mutability ++ name)]
    ++ (type.elim [] fun type => [.text ": "] ++ type.doc)
    ++ (value.elim [] fun e => [.text " = ", .gap .closed] ++ e.layout false) ++ [.text ";"])

/-- A member of a foreign module. -/
def foreignMember (r : Readers) : Reader (List Doc) := do
  let attributes ← outerAttributes r
  let words ← visibility
  let trees ← get
  let doc ← do
    if atFunction true trees then functionDoc r words true
    else if atWord "static" trees
        || ((atWord "unsafe" trees || atWord "safe" trees) && atWord "static" (trees.drop 1)) then
      staticItem r (words ++ (← staticWords)) true
    else if atWord "type" trees then pure (← typeItem r words true true).memberDoc
    else
      Reader.ensure (words == "" && atPathStart trees)
      macroMember
  return attributes ++ doc ++ [.gap .hard]

end ContractBindings.Items
