import ContractBindings.Items.Phrase.Macro

/-!
# Types

Paths with arguments, bounds, the parameters of declarations, and types.
-/

namespace ContractBindings.Items

open Layout

/-! ## Literals and constant arguments -/

/-- A literal, possibly a number with a sign. -/
def literalText : Reader String
  | .literal text :: rest => some (text, rest)
  | .word text :: rest => if text == "true" || text == "false" then some (text, rest) else none
  | .mark '-' joint :: .literal text :: rest =>
    if atLiteral [.mark '-' joint, .literal text] then some ("-" ++ text, rest) else none
  | _ => none

/-- The trees begin with a text literal. -/
def atText : List Tree → Bool
  | .literal text :: _ => LiteralKind.ofText text == .text
  | _ => false

/-- A block as an expression, possibly with attributes inside. -/
def blockDoc (b : BlockPhrase) : List Doc := nested b.small

/-- A constant as an argument: a literal, an identifier or a block. -/
def constantArgument (r : Readers) : Reader (List Doc) := do
  let trees ← get
  if atLiteral trees then return [.text (← literalText)]
  else if atIdent trees then return [.text (← Reader.ident)]
  else return blockDoc (← blockWithAttributes r)

/-! ## Bounds -/

/-- The type after an arrow. -/
def returnType (r : Readers) (plus : Bool) : Reader (Option TypePhrase) := Reader.after? "->" (r.type plus)

/-- The layout of the type after an arrow. -/
def returnDoc (type : Option TypePhrase) : List Doc := type.elim [] fun type => [.text " -> "] ++ type.doc

/-- The types in parentheses behind the path of a trait, with the type after the arrow. -/
def callArguments (r : Readers) : Reader (List Doc) := do
  let inputs ← Reader.inside .round (Reader.commaList (r.type true))
  let output ← returnType r false
  return nested ([.text "("] ++ outdented (.gap .zero :: separated .lastComma (inputs.map (·.doc))) ++ [.text ")"]
    ++ returnDoc output)

/-- The bound that stands for what a type captures. -/
def captures : Reader (List Doc) := do
  Reader.word "use"
  Reader.mark "<"
  let names ← Reader.listUntil (atMark ">") "," do
    if ← Reader.peek atLifetime then Reader.lifetime else Reader.identOr ["Self"]
  Reader.mark ">"
  return [.text ("use<" ++ ", ".intercalate names ++ ">")]

/-- A parameter behind its attributes, with whether it is a lifetime. -/
def genericParameter (r : Readers) : Reader (Bool × List Doc) := do
  let attributes ← outerAttributes r
  let trees ← get
  if atLifetime trees then
    let name ← Reader.lifetime
    let bounds ← Reader.after? ":"
      (Reader.listWhile (fun trees => atMark "," trees || atMark ">" trees) "+" Reader.lifetime)
    let bounds := bounds.getD []
    return (true, attributes ++ [.text (name ++ (if bounds.isEmpty then "" else ": ") ++ " + ".intercalate bounds)])
  else if atWord "const" trees then
    Reader.word "const"
    let name ← Reader.ident
    Reader.mark ":"
    let type ← r.type true
    let value ← Reader.after? "=" (constantArgument r)
    return (false, attributes ++ [.text ("const " ++ name ++ ": ")] ++ type.doc
      ++ value.elim [] fun value => [.text " = "] ++ value)
  else
    let name ← Reader.ident
    let bounds ← Reader.after? ":"
      (Reader.listWhile (fun trees => [",", ">", "="].any (atMark · trees)) "+" (r.bound false true))
    let type ← Reader.after? "=" (r.type true)
    let bounds := bounds.getD []
    return (false, attributes ++ [.text name]
      ++ box indent false ((if bounds.isEmpty then [] else [.text ": "] ++ spaced "+ " (bounds.map (·.doc)))
        ++ type.elim [] fun type => [.gap .space, .text "= "] ++ type.doc))

/-- The lifetimes that what follows holds for. -/
def boundLifetimes (r : Readers) : Reader (List Doc) := do
  Reader.word "for"
  Reader.mark "<"
  let params ← Reader.listUntil (atMark ">") "," (genericParameter r)
  Reader.mark ">"
  return [.text "for<"] ++ joined ", " (params.map (·.2)) ++ [.text "> "]

/-- The lifetimes that what follows holds for, if the word for them stands there. -/
def boundLifetimes? (r : Readers) : Reader (Option (List Doc)) := Reader.readIf (atWord "for") (boundLifetimes r)

/-! ## Paths -/

/-- An argument in angle brackets, with whether it is a lifetime. -/
def pathArgument (r : Readers) : Reader (Bool × List Doc) := do
  let trees ← get
  if atLifetime trees && !atMark "+" (trees.drop 1) then return (true, [.text (← Reader.lifetime)])
  else if atLiteral trees || atGroup .curly trees then return (false, ← constantArgument r)
  else
    let type ← r.type true
    match type.form with
    | .path true =>
      if ← Reader.mark? "=" then
        let value ← do
          if ← Reader.peek fun trees => atLiteral trees || atGroup .curly trees then constantArgument r
          else (·.doc) <$> r.type true
        return (false, type.doc ++ [.text " = "] ++ value)
      else if ← Reader.mark? ":" then
        let bounds ← Reader.listWhile (fun trees => atMark "," trees || atMark ">" trees) "+" (r.bound false true)
        return (false, type.doc
          ++ box indent false (if bounds.isEmpty then [] else [.text ": "] ++ spaced "+ " (bounds.map (·.doc))))
      else return (false, type.doc)
    | _ => return (false, type.doc)

/-- The arguments in angle brackets, lifetimes in front. -/
def pathArguments (r : Readers) : Reader (List (List Doc)) := do
  Reader.mark "<"
  let arguments ← Reader.listUntil (atMark ">") "," (pathArgument r)
  Reader.mark ">"
  return (arguments.filter (·.1) ++ arguments.filter (!·.1)).map (·.2)

/-- A segment of a path. -/
structure SegmentPhrase where
  name : String
  /-- The arguments in angle brackets, if these are there. -/
  arguments : Option (List (List Doc))

/-- The layout of a segment. In an expression two colons stand in front of its arguments. -/
def SegmentPhrase.doc (inExpr : Bool) (s : SegmentPhrase) : List Doc :=
  match s.arguments with
  | none => [.text s.name]
  | some [] => [.text s.name]
  | some arguments => [.text s.name] ++ listed (if inExpr then "::<" else "<") ">" arguments

/-- A segment of a path. -/
def pathSegment (r : Readers) (inExpr : Bool) : Reader SegmentPhrase := do
  if ← Reader.peek fun trees => ["super", "self", "crate", "try"].any fun word => atWord word trees then
    return ⟨← Reader.anyWord, none⟩
  let name ← Reader.identOr ["Self"]
  let trees ← get
  if (!inExpr && atMarkBut "<" ["<="] trees) || (atMark "::" trees && atMark "<" (trees.drop 2)) then
    let _ ← Reader.mark? "::"
    return ⟨name, some (← pathArguments r)⟩
  else return ⟨name, none⟩

/-- A path without a type in front of it. -/
def path (r : Readers) (inExpr : Bool) : Reader PathPhrase := do
  let isAbsolute ← Reader.mark? "::"
  let first ← pathSegment r inExpr
  let more ← Reader.itemsUntil (fun trees => !(atMark "::" trees && !atGroup .round (trees.drop 2))) do
    Reader.mark "::"
    pathSegment r inExpr
  let segments := first :: more
  let isSingle := more.isEmpty && !isAbsolute
  return ⟨(if isAbsolute then [.text "::"] else []) ++ joined "::" (segments.map (·.doc inExpr)),
    if isSingle && first.arguments.isNone then some first.name else none,
    segments.all (·.arguments.isNone), isSingle, false,
    ((segments.getLast?.bind (·.arguments)).getD []).isEmpty⟩

/-- A path that may begin with a type in angle brackets. -/
def qualifiedPath (r : Readers) (inExpr : Bool) : Reader PathPhrase := do
  if ← Reader.peek (atMark "<") then
    Reader.mark "<"
    let type ← r.type true
    let trait_ ← Reader.readIf (atWord "as") do
      Reader.word "as"
      path r false
    Reader.mark ">"
    Reader.mark "::"
    let first ← pathSegment r inExpr
    let more ← Reader.itemsUntil (fun trees => !atMark "::" trees) do
      Reader.mark "::"
      pathSegment r inExpr
    return ⟨[.text "<"] ++ type.doc ++ (trait_.elim [] fun path => [.text " as "] ++ path.doc) ++ [.text ">::"]
      ++ joined "::" ((first :: more).map (·.doc inExpr)), none, false, false, true, false⟩
  else path r inExpr

/-! ## Traits as bounds -/

/-- A trait as a bound. -/
def traitBound (r : Readers) (constants : Bool) : Reader (List Doc) := do
  let lifetimes ← boundLifetimes? r
  let marker ← do
    if ← Reader.peek (atGroup .square) then
      Reader.inside .square (Reader.word "const")
      Reader.ensure constants
      pure "[const] "
    else if ← Reader.word? "const" then
      Reader.ensure constants
      pure "const "
    else pure ""
  let isMaybe ← Reader.mark? "?"
  let lifetimes ← if lifetimes.isNone && isMaybe then boundLifetimes? r else pure lifetimes
  let path ← path r false
  let arguments ← Reader.readIf
    (fun trees => path.isOpen && (atGroup .round trees || (atMark "::" trees && atGroup .round (trees.drop 2)))) do
      let _ ← Reader.mark? "::"
      callArguments r
  Reader.ensure (!(lifetimes.isSome && isMaybe))
  return lifetimes.getD [] ++ [.text (marker ++ (if isMaybe then "?" else ""))] ++ path.doc ++ arguments.getD []

/-- A bound; the flags allow captures and constant traits. -/
def readBound (r : Readers) (capturing constants : Bool) : Reader BoundPhrase := do
  let trees ← get
  if atLifetime trees then
    let doc := [Doc.text (← Reader.lifetime)]
    return ⟨doc, .lifetime, doc⟩
  else if atWord "use" trees then
    let doc ← captures
    Reader.ensure capturing
    return ⟨doc, .captures, doc⟩
  else if atGroup .round trees then
    let bare ← Reader.inside .round (traitBound r constants)
    return ⟨[.text "("] ++ bare ++ [.text ")"], .trait_, bare⟩
  else
    let bare ← traitBound r constants
    return ⟨bare, .trait_, bare⟩

/-- A bound follows a plus sign. -/
def atBound (constants : Bool) (trees : List Tree) : Bool :=
  atAnyWord trees || atMark "::" trees || atMark "?" trees || atLifetime trees || atGroup .round trees
    || (constants && (atGroup .square trees || atWord "const" trees))

/-- Bounds with plus signs between them; a sign may follow the last. The flag says that it does. -/
def boundsFrom (r : Readers) (plus capturing constants : Bool) : Nat → Reader (List BoundPhrase × Bool)
  | 0 => failure
  | fuel + 1 => do
    let bound ← r.bound capturing constants
    if plus && (← Reader.mark? "+") then
      if ← Reader.peek (atBound constants) then
        let (more, marked) ← boundsFrom r plus capturing constants fuel
        return (bound :: more, marked)
      else return ([bound], true)
    else return ([bound], false)

/-- Bounds of which at least one is a trait, with whether a plus sign follows the last. -/
def traitBounds (r : Readers) (plus capturing constants : Bool) : Reader (List BoundPhrase × Bool) := do
  let (bounds, marked) ← boundsFrom r plus capturing constants ((← get).length + 1)
  Reader.ensure (bounds.any (·.kind = .trait_))
  return (bounds, marked)

/-- The bounds after a first one, each behind a plus sign. -/
def moreBounds (r : Readers) : Reader (List BoundPhrase) :=
  Reader.itemsUntil (fun trees => !atMark "+" trees) do
    Reader.mark "+"
    r.bound false false

/-! ## Types -/

/-- An object with bounds. -/
def objectType (bounds : List BoundPhrase) (form : TypeForm) : TypePhrase :=
  { doc := [.text "dyn "] ++ joined " + " (bounds.map (·.doc)), form := form }

/-- A type that begins with a lifetime, which several bounds may follow in any case. -/
def lifetimeType (r : Readers) : Reader TypePhrase := do
  let (bounds, marked) ← traitBounds r true false false
  return objectType bounds (.bounds (match bounds, marked with
    | [bound], false => some bound.bare
    | _, _ => none))

/-- The types after the first one of several in parentheses. -/
def tupleType (r : Readers) (first : TypePhrase) : Reader TypePhrase := do
  Reader.mark ","
  let more ← Reader.commaList (r.type true)
  let items := (first :: more).map (·.doc)
  let inner := match items with
    | [item] => item ++ [.text ",", .gap .zero]
    | items => separated .lastComma items
  return { doc := [.text "("] ++ nested (outdented (.gap .zero :: inner)) ++ [.text ")"] }

/-- What the parentheses at the start of a type hold. -/
inductive Parenthesised where
  /-- The whole type. -/
  | whole (type : TypePhrase)
  /-- A bound that others may follow in any case. -/
  | bound (doc : List Doc)
  /-- A type by itself. -/
  | single (type : TypePhrase)

/-- Reads what parentheses at the start of a type hold. -/
def parenthesised (r : Readers) : Reader Parenthesised := do
  let trees ← get
  if trees.isEmpty then return .whole { doc := [.text "()"] }
  else if atLifetime trees then
    let type ← lifetimeType r
    return .whole { doc := [.text "("] ++ type.doc ++ [.text ")"] }
  else if atMark "?" trees then return .bound (← traitBound r false)
  else
    let first ← r.type true
    if ← Reader.peek (atMark ",") then return .whole (← tupleType r first) else return .single first

/-- A type that begins with parentheses. -/
def parenthesisedType (r : Readers) (plus : Bool) : Reader TypePhrase := do
  let around (doc : List Doc) : List Doc := [.text "("] ++ doc ++ [.text ")"]
  match ← Reader.inside .round (parenthesised r) with
  | .whole type => return type
  | .bound doc =>
    let more ← moreBounds r
    return objectType (⟨around doc, .trait_, doc⟩ :: more) (.bounds (if more.isEmpty then some doc else none))
  | .single first =>
    let bare := match first.form with
      | .path _ => some first.doc
      | .bounds only => only
      | .other => none
    match bare with
    | some bare =>
      if plus && (← Reader.peek (atMark "+")) then
        return objectType (⟨around bare, .trait_, bare⟩ :: (← moreBounds r)) (.bounds none)
      else return { doc := around first.doc }
    | none => return { doc := around first.doc }

/-- The name in front of the type of an input of a function type, which may be the word for the value itself in the
first place. -/
def inputName (isFirst : Bool) : Reader String := do
  let trees ← get
  if (atIdent trees || atWord "_" trees || (isFirst && atWord "self" trees)) && atMarkBut ":" ["::"] (trees.drop 1) then
    let name ← Reader.anyWord
    Reader.skip 1
    return name ++ ": "
  else return ""

/-- An input of a function type. -/
def functionInput (r : Readers) (isFirst : Bool) : Reader (List Doc) := do
  let trees ← get
  if isFirst && atWord "mut" trees && atWord "self" (trees.drop 1) then
    Reader.skip 1
    let name ← inputName true
    if name == "" then
      Reader.word "self"
      return [.text "mut self"]
    else return [.text ("mut " ++ name)] ++ (← r.type true).doc
  else
    let name ← inputName isFirst
    return [.text name] ++ (← r.type true).doc

/-- Any further inputs of a function type stand at the start. -/
def atFurtherInputs (trees : List Tree) : Bool :=
  atMark "..." trees
    || ((atIdent trees || atWord "_" trees) && atMark ":" (trees.drop 1) && atMark "..." (trees.drop 2))

/-- The inputs of a function type, with the one that stands for any further ones. -/
def functionInputs (r : Readers) : Nat → Bool → Reader (List (List Doc) × Option (List Doc))
  | 0, _ => failure
  | fuel + 1, isFirst => do
    if (← get).isEmpty then return ([], none)
    let attributes ← outerAttributes r
    if ← Reader.peek atFurtherInputs then
      let name ← do
        if ← Reader.peek (atMark "...") then pure ""
        else
          let name ← Reader.anyWord
          Reader.mark ":"
          pure (name ++ ": ")
      Reader.mark "..."
      let _ ← Reader.mark? ","
      return ([], some (attributes ++ [.text (name ++ "...")]))
    let input ← functionInput r isFirst
    if (← get).isEmpty then return ([attributes ++ input], none)
    Reader.mark ","
    let (more, further) ← functionInputs r fuel false
    return ((attributes ++ input) :: more, further)

/-- Items between parentheses, and behind them one that no comma follows. -/
def inputsDoc (inputs : List (List Doc)) (further : Option (List Doc)) : List Doc :=
  match further with
  | none => separated .lastComma inputs
  | some last => (inputs.flatMap fun input => input ++ [.text ",", .gap .space]) ++ last ++ [.gap .zero]

/-- The calling convention of a function, behind its word. -/
def convention : Reader String := do
  Reader.word "extern"
  if ← Reader.peek atText then return "extern " ++ (← literalText) ++ " " else return "extern "

/-- The calling convention of a function, if it has one. -/
def convention? : Reader String := do
  return (← Reader.readIf (atWord "extern") convention).getD ""

/-- The type of a function. -/
def functionType (r : Readers) (lifetimes : List Doc) : Reader TypePhrase := do
  let isUnsafe ← Reader.word? "unsafe"
  let convention ← convention?
  Reader.word "fn"
  let (inputs, further) ← Reader.inside .round do functionInputs r ((← get).length + 1) true
  let output ← returnType r false
  let head := (if isUnsafe then "unsafe " else "") ++ convention ++ "fn("
  return {
    doc := lifetimes ++ [.text head] ++ nested (outdented (.gap .zero :: inputsDoc inputs further)) ++ [.text ")"]
      ++ returnDoc output
    endsInBrace := output.any (·.endsInBrace) }

/-- A type that begins with a path; `lifetimes` stand in front of it. -/
def pathType (r : Readers) (plus : Bool) (lifetimes : Option (List Doc)) : Reader TypePhrase := do
  let path ← qualifiedPath r false
  if path.isQualified then return { doc := path.doc }
  let trees ← get
  if atMarkBut "!" ["!="] trees && path.isPlain then
    Reader.skip 1
    let call ← macroCall path
    return { doc := call.doc, endsInBrace := call.bracket = .curly }
  else if lifetimes.isSome || (plus && atMark "+" trees) then
    let bare := lifetimes.getD [] ++ path.doc
    let first : BoundPhrase := ⟨bare, .trait_, bare⟩
    if plus && (← Reader.mark? "+") then
      if ← Reader.peek (atBound false) then
        let (more, _) ← boundsFrom r true false false trees.length
        return objectType (first :: more) (.bounds none)
      else return objectType [first] (.bounds none)
    else return objectType [first] (.bounds (some bare))
  else return { doc := path.doc, form := .path path.isSingle }

/-- A type in square brackets. -/
def squareType (r : Readers) : Reader TypePhrase :=
  Reader.inside .square do
    let item ← r.type true
    if ← Reader.mark? ";" then
      let length ← r.expr true
      return { doc := [.text "["] ++ item.doc ++ [.text "; "] ++ length.layout false ++ [.text "]"] }
    else return { doc := [.text "["] ++ item.doc ++ [.text "]"] }

/-- The type that a pointer or a reference leads to. -/
def pointedType (r : Readers) : Reader TypePhrase := do
  if ← Reader.mark? "*" then
    let word ← do
      if ← Reader.word? "const" then pure "const "
      else
        Reader.word "mut"
        pure "mut "
    let target ← r.type false
    return { doc := [.text ("*" ++ word)] ++ target.doc, endsInBrace := target.endsInBrace }
  else
    Reader.mark "&"
    let lifetime ← Reader.lifetime?
    let isMutable ← Reader.word? "mut"
    let target ← r.type false
    let head := "&" ++ (lifetime.elim "" (· ++ " ")) ++ (if isMutable then "mut " else "")
    return { doc := [.text head] ++ target.doc, endsInBrace := target.endsInBrace }

/-- A type; the flag allows several bounds. -/
def readType (r : Readers) (plus : Bool) : Reader TypePhrase := do
  let lifetimes ← boundLifetimes? r
  let trees ← get
  if atWord "fn" trees || atWord "unsafe" trees || atWord "extern" trees then functionType r (lifetimes.getD [])
  else if atIdent trees || (["super", "self", "Self", "crate"].any fun word => atWord word trees) then
    pathType r plus lifetimes
  else if lifetimes.isSome then failure
  else if atGroup .round trees then parenthesisedType r plus
  else if atMark "::" trees || atMark "<" trees then pathType r plus none
  else if atWord "dyn" trees then
    Reader.skip 1
    let _ ← Reader.mark? "*"
    return objectType (← traitBounds r plus false false).1 .other
  else if atGroup .square trees then squareType r
  else if atMark "*" trees || atMark "&" trees then pointedType r
  else if atMarkBut "!" ["!="] trees then
    Reader.skip 1
    return { doc := [.text "!"] }
  else if atWord "impl" trees then
    Reader.skip 1
    let (bounds, _) ← traitBounds r plus true true
    return { doc := [.text "impl "] ++ joined " + " (bounds.map (·.doc)) }
  else if atWord "_" trees then
    Reader.skip 1
    return { doc := [.text "_"] }
  else if atLifetime trees then lifetimeType r
  else failure

/-! ## Parameters of declarations -/

/-- The parameters after the name of a declaration. -/
def generics (r : Readers) : Reader GenericsPhrase := do
  if ← Reader.mark? "<" then
    let params ← Reader.listUntil (atMark ">") "," do
      let attributes ← outerAttributes r
      let (isLifetime, doc) ← do
        if ← Reader.word? "_" then pure (false, [Doc.text "_"]) else genericParameter r
      return (isLifetime, attributes ++ doc)
    Reader.mark ">"
    let ordered := (params.filter (·.1) ++ params.filter (!·.1)).map (·.2)
    let doc := if ordered.isEmpty then []
      else [.text "<"] ++ box 0 true (outdented (.gap .zero :: separated .lastComma ordered)) ++ [.text ">"]
    return ⟨doc, true⟩
  else return ⟨[], false⟩

/-- The conditions on parameters end here. -/
def endsConditions (trees : List Tree) : Bool :=
  trees.isEmpty || atGroup .curly trees || atMark "," trees || atMark ";" trees || atMarkBut ":" ["::"] trees
    || atMark "=" trees

/-- A condition on a lifetime or on a type. -/
def condition (r : Readers) : Reader (List Doc) := do
  let trees ← get
  if atLifetime trees && atMark ":" (trees.drop 1) then
    let name ← Reader.lifetime
    Reader.mark ":"
    let bounds ← Reader.listWhile (fun trees => endsConditions trees || atMark ":" trees) "+" Reader.lifetime
    return [.text (name ++ ":")]
      ++ box indent false ((if bounds.isEmpty then [] else [.text " "]) ++ spaced "+ " (bounds.map fun b => [.text b]))
  else
    let lifetimes ← boundLifetimes? r
    let type ← r.type true
    Reader.mark ":"
    let bounds ← Reader.listWhile endsConditions "+" (r.bound false true)
    return lifetimes.getD [] ++ type.doc ++ [.text ":"]
      ++ box (if bounds.length == 1 then 0 else indent) false
        ((if bounds.isEmpty then [] else [.text " "]) ++ spaced "+ " (bounds.map (·.doc)))

/-- The conditions on parameters, if the word for them stands there. -/
def conditions? (r : Readers) : Reader (Option (List (List Doc))) :=
  Reader.readIf (atWord "where") do
    Reader.word "where"
    Reader.listWhile endsConditions "," (condition r)

/-- The layout of conditions, each on a line of its own. -/
def conditionLines (semicolon : Bool) (conditions : Option (List (List Doc))) : List Doc :=
  let rec lines : List (List Doc) → List Doc
    | [] => []
    | [last] => last ++ if semicolon then [.text ";"] else [.text ",", .gap (Gap.hard.shifted (-indent))]
    | item :: rest => item ++ [.text ",", .gap .hard] ++ lines rest
  match conditions.getD [] with
  | [] => [.text (if semicolon then ";" else " ")]
  | conditions => [.gap (Gap.hard.shifted (-indent)), .text "where", .gap .hard] ++ lines conditions

/-- The layout of conditions that may stand on the line of what they belong to. -/
def conditionsInLine (semicolon : Bool) (conditions : Option (List (List Doc))) : List Doc :=
  let rec items : List (List Doc) → List Doc
    | [] => []
    | [last] => last ++ if semicolon then [.text ";"] else [.gap (Gap.lastCommaSpace.shifted (-indent))]
    | item :: rest => item ++ [.text ",", .gap .space] ++ items rest
  match conditions.getD [] with
  | [] => [.text (if semicolon then ";" else " ")]
  | conditions => [.gap (Gap.space.shifted (-indent)), .text "where", .gap .space] ++ items conditions

end ContractBindings.Items
