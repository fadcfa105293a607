import ContractBindings.Items.Phrase.Operator

/-!
# Operands

What stands between operators: marks in front, a literal, a path, brackets, a block or a word with what belongs to it,
and the members, calls and other endings behind. A block or a choice at the start of a statement ends it, unless a
member or a question mark follows.
-/

namespace ContractBindings.Items

open Layout

/-- An expression can begin here. -/
def atExpr (trees : List Tree) : Bool :=
  atAnyWord trees || atGroup .round trees || atGroup .square trees || atGroup .curly trees || atLiteral trees
    || atMarkBut "!" ["!="] trees || atMarkBut "-" ["-=", "->"] trees || atMarkBut "*" ["*="] trees
    || atMarkBut "|" ["|="] trees || atMarkBut "&" ["&="] trees || atMark ".." trees
    || atMarkBut "<" ["<=", "<<="] trees || atMark "::" trees || atLifetime trees || atMark "#" trees

/-- Parameters of a declaration begin here rather than a type in angle brackets. -/
def atParameters (trees : List Tree) : Bool :=
  let next := trees.drop 1
  let after := trees.drop 2
  atMark "<" trees
    && (atMark ">" next || atMark "#" next || atWord "const" next
      || ((atLifetime next || atIdent next)
        && (atMark ">" after || atMark "," after || atMarkBut ":" ["::"] after || atMark "=" after)))

/-- The arguments of a call in parentheses. -/
def callArgumentList (r : Readers) : Reader (List ExprPhrase) := Reader.inside .round (Reader.commaList (r.expr true))

/-- The positions that the digits of a fraction stand for: members of members. -/
def positions? (text : String) : Option (List Nat) :=
  (text.splitOn ".").mapM fun part => position? part.toList

/-- A member behind its point: a method with its arguments, a field, or what waits for a value. -/
def memberEnding (r : Readers) (base : ExprPhrase) : Reader ExprPhrase := do
  if ← Reader.word? "await" then return memberExpr base "await"
  let m ← member
  let arguments ← Reader.readIf (fun trees => m.isNamed && atMark "::" trees) do
    Reader.mark "::"
    pathArguments r
  if arguments.isSome || (m.isNamed && (← Reader.peek (atGroup .round))) then
    let items ← callArgumentList r
    let doc := match arguments with
      | some (argument :: more) => listed "::<" ">" (argument :: more)
      | _ => []
    return methodExpr base m.text doc items
  else return memberExpr base m.text

/-- What follows a point behind an operand. Digits with a point among them are two members. -/
def pointEnding (r : Readers) (base : ExprPhrase) : Reader ExprPhrase := do
  match ← get with
  | .literal text :: _ =>
    if LiteralKind.ofText text = .fraction then
      Reader.skip 1
      let endsInPoint := text.toList.getLast? == some '.'
      let digits := if endsInPoint then String.ofList (text.toList.dropLast) else text
      match positions? digits with
      | some positions =>
        let base := positions.foldl (fun base n => memberExpr base (toString n)) base
        if endsInPoint then memberEnding r base else return base
      | none => failure
    else memberEnding r base
  | _ => memberEnding r base

/-- The members, calls and other endings of an operand. -/
def endingsFrom (r : Readers) : Nat → ExprPhrase → Reader ExprPhrase
  | 0, base => pure base
  | fuel + 1, base => do
    let trees ← get
    if atGroup .round trees then
      let items ← callArgumentList r
      endingsFrom r fuel (callExpr base items)
    else if atMarkBut "." [".."] trees && !base.isRange then
      Reader.skip 1
      let base ← pointEnding r base
      endingsFrom r fuel base
    else if atGroup .square trees then
      let index ← Reader.inside .square (r.expr true)
      endingsFrom r fuel (endedExpr base ([.text "["] ++ index.layout false ++ [.text "]"]) true)
    else if atMark "?" trees && !base.isRange then
      Reader.skip 1
      endingsFrom r fuel (endedExpr base [.text "?"] base.needsLine)
    else return base

/-- The members, calls and other endings of an operand. -/
def endings (r : Readers) (base : ExprPhrase) : Reader ExprPhrase := do endingsFrom r ((← get).length + 1) base

/-- A field of a record in braces. -/
def recordField (r : Readers) : Reader (List Doc) := do
  let attributes ← outerAttributes r
  let m ← member
  if (← Reader.peek (atMark ":")) || !m.isNamed then
    Reader.mark ":"
    return attributes ++ [.text (m.text ++ ": ")] ++ aligned ((← r.expr true).layout false)
  else return attributes ++ [.text m.text]

/-- The fields of a record up to the end, with the record that gives all others. -/
def recordFields (r : Readers) : Nat → Reader (List (List Doc) × Option (List Doc))
  | 0 => failure
  | fuel + 1 => do
    if (← get).isEmpty then return ([], none)
    if ← Reader.mark? ".." then
      if (← get).isEmpty then return ([], some [.text ".."])
      return ([], some ([.text ".."] ++ (← r.expr true).layout false))
    let field ← recordField r
    if (← get).isEmpty then return ([field], none)
    Reader.mark ","
    let (more, rest) ← recordFields r fuel
    return (field :: more, rest)

/-- An operand that begins with a path: a macro, a record or the path alone. -/
def pathOperand (r : Readers) (structs : Bool) : Reader ExprPhrase := do
  let path ← qualifiedPath r true
  let trees ← get
  if !path.isQualified && path.isPlain && atMarkBut "!" ["!="] trees then
    Reader.skip 1
    return macroExpr (← macroCall path)
  else if structs && atGroup .curly trees then
    let (fields, rest) ← Reader.inside .curly do recordFields r ((← get).length + 1)
    return recordExpr path fields rest
  else return pathExpr path

/-- An operand in parentheses, or several. -/
def roundOperand (r : Readers) : Reader ExprPhrase := do
  match ← Reader.inside .round (Reader.markedListUntil List.isEmpty "," (r.expr true)) with
  | ([e], false) => return roundExpr e
  | (items, _) => return tupleExpr items

/-- An operand in square brackets. -/
def squareOperand (r : Readers) : Reader ExprPhrase :=
  Reader.inside .square do
    if (← get).isEmpty then return arrayExpr []
    let first ← r.expr true
    if ← Reader.mark? ";" then return repeatExpr first (← r.expr true)
    if (← get).isEmpty then return arrayExpr [first]
    Reader.mark ","
    return arrayExpr (first :: (← Reader.commaList (r.expr true)))

/-- An input of a closure. -/
def closureInput (r : Readers) : Reader (List Doc) := do
  let attributes ← outerAttributes r
  let pattern ← r.pattern
  let type ← Reader.after? ":" (r.type true)
  return attributes ++ pattern.doc ++ type.elim [] fun type => [.text ": "] ++ type.doc

/-- A closure. -/
def closureOperand (r : Readers) (structs : Bool) : Reader ExprPhrase := do
  let lifetimes ← boundLifetimes? r
  let isConst ← Reader.word? "const"
  let isStatic ← Reader.word? "static"
  let isAsync ← Reader.word? "async"
  let isMove ← Reader.word? "move"
  Reader.mark "|"
  let inputs ← Reader.listUntil (atMark "|") "," (closureInput r)
  Reader.mark "|"
  let words := [(isConst, "const "), (isStatic, "static "), (isAsync, "async "), (isMove, "move ")]
  let head := lifetimes.getD [] ++ [.text (String.join (words.map fun (isThere, text) => if isThere then text else ""))]
  if ← Reader.mark? "->" then
    let type ← r.type true
    let b ← r.block
    return { layout := fun _ => typedClosureDoc head inputs type b, isBlockLike := true, isInline := true,
             isStatement := true, endsInBrace := true }
  else
    let result ← r.expr structs
    return { layout := fun _ => closureDoc head inputs result, isBlockLike := true, isInline := true,
             isStatement := true, endsInBrace := result.endsInBrace }

/-- The value behind a word that leaves a block, if one follows. -/
def leavingOperand (r : Readers) (words : String) (hasValue : Bool) : Reader ExprPhrase := do
  if hasValue then
    let e ← r.expr true
    return { ledExpr (words ++ " ") e with takesSemicolon := true }
  else return { wordExpr words with takesSemicolon := true }

/-- The end of a block, with the label of the block. -/
def breakOperand (r : Readers) (structs : Bool) : Reader ExprPhrase := do
  Reader.word "break"
  Reader.ensure (!(← Reader.peek fun trees => atLifetime trees && atMark ":" (trees.drop 1)))
  let label ← Reader.lifetime?
  let trees ← get
  leavingOperand r ("break" ++ label.elim "" (" " ++ ·)) (atExpr trees && (structs || !atGroup .curly trees))

/-- A condition that matches a pattern. -/
def letOperand (r : Readers) (structs : Bool) : Reader ExprPhrase := do
  Reader.word "let"
  let pattern ← patterns r
  Reader.mark "="
  let e ← r.operations (← r.operand [] structs) structs .compare
  return {
    layout := fun _ => [.text "let "] ++ pattern.doc ++ [.text " = ", .gap .closed] ++ e.layout false
    needsLine := e.needsLine
    isStatement := true
    endsInBrace := e.endsInBrace }

/-- The cases of a choice, from the word for a condition on. -/
def choiceCases (r : Readers) : Nat → Reader (List (ExprPhrase × BlockPhrase) × Option BlockPhrase)
  | 0 => failure
  | fuel + 1 => do
    Reader.word "if"
    let condition ← r.expr false
    let b ← r.block
    if ← Reader.word? "else" then
      if ← Reader.peek (atWord "if") then
        let (cases, otherwise) ← choiceCases r fuel
        return ((condition, b) :: cases, otherwise)
      else return ([(condition, b)], some (← r.block))
    else return ([(condition, b)], none)

/-- A choice by conditions. -/
def choiceOperand (r : Readers) : Reader ExprPhrase := do
  let (cases, otherwise) ← choiceCases r (← get).length
  return choiceExpr cases otherwise

/-- A label with its colon. -/
def label? : Reader String := do
  match ← Reader.lifetime? with
  | some name =>
    Reader.mark ":"
    return name ++ ": "
  | none => return ""

/-- The layout of a loop: its head, and its block with a line for each statement. -/
def loopExpr (doc : List Doc) (dropsSemicolon : Bool) : ExprPhrase :=
  { layout := fun _ => doc, isComplete := true, isStatement := true, endsInBrace := true,
    dropsSemicolon := dropsSemicolon }

/-- A loop behind its label. -/
def loopOperand (r : Readers) (label : String) : Reader ExprPhrase := do
  if ← Reader.word? "while" then
    let condition ← r.expr false
    let b ← blockWithAttributes r
    return loopExpr ([.text (label ++ "while ")] ++ headCondition condition ++ [.text "\x7b", .gap .closed]
      ++ nested (body .hard b.lines) ++ [.text "\x7d"]) true
  else if ← Reader.word? "for" then
    let pattern ← patterns r
    Reader.word "in"
    let e ← r.expr false
    let b ← blockWithAttributes r
    return loopExpr (aligned ([.text (label ++ "for ")] ++ pattern.doc ++ [.text " in ", .gap .closed]
      ++ headCondition e ++ [.text "\x7b", .gap .closed] ++ nested (body .hard b.lines) ++ [.text "\x7d"])) true
  else
    Reader.word "loop"
    let b ← blockWithAttributes r
    return loopExpr ([.text (label ++ "loop ")] ++ b.braced) false

/-- A block or loop with a label. -/
def labelledOperand (r : Readers) : Reader ExprPhrase := do
  let label ← label?
  if ← Reader.peek (atGroup .curly) then return plainBlockExpr label (← blockWithAttributes r) else loopOperand r label

/-- An arm of a choice by patterns. -/
def arm (r : Readers) : Reader (List Doc) := do
  let attributes ← outerAttributes r
  let pattern ← patterns r
  let guard ← Reader.readIf (atWord "if") do
    Reader.word "if"
    r.expr true
  Reader.mark "=>"
  let result ← r.leading []
  let marked ← Reader.mark? ","
  Reader.ensure (marked || result.isComplete || (← get).isEmpty)
  return attributes ++ aligned (pattern.doc ++ (guard.elim [] fun e => [.text " if "] ++ e.layout false)
    ++ [.text " => "] ++ result.armDoc)

/-- A choice by patterns. -/
def matchOperand (r : Readers) : Reader ExprPhrase := do
  Reader.word "match"
  let e ← r.expr false
  let (attributes, arms) ← Reader.inside .curly do
    let attributes ← innerAttributes r
    return (attributes, ← Reader.itemsUntil List.isEmpty (arm r))
  return matchExpr e attributes arms

/-- A block or a choice; nothing if there is none. -/
def completeOperand? (r : Readers) : Reader (Option ExprPhrase) := do
  let trees ← get
  let next := trees.drop 1
  if atWord "if" trees then some <$> choiceOperand r
  else if atWord "while" trees || atWord "loop" trees || (atWord "for" trees && !atParameters next) then
    some <$> loopOperand r ""
  else if atWord "match" trees then some <$> matchOperand r
  else if atWord "try" trees && atGroup .curly next then
    Reader.skip 1
    return some (blockExpr "try " (← r.block) true true)
  else if atWord "unsafe" trees then
    Reader.skip 1
    return some (blockExpr "unsafe " (← blockWithAttributes r) true true)
  else if atWord "const" trees && atGroup .curly next then
    Reader.skip 1
    return some (blockExpr "const " (← blockWithAttributes r) true true)
  else if atGroup .curly trees then return some (plainBlockExpr "" (← blockWithAttributes r))
  else if atLifetime trees then some <$> labelledOperand r
  else return none

/-- A block that gives its value later. -/
def asyncOperand (r : Readers) : Reader ExprPhrase := do
  Reader.word "async"
  let moves ← Reader.word? "move"
  return blockExpr (if moves then "async move " else "async ") (← r.block) false true

/-- A closure begins here. -/
def atClosure (trees : List Tree) : Bool :=
  let next := trees.drop 1
  atMark "|" trees || atWord "move" trees || (atWord "for" trees && atParameters next)
    || (atWord "const" trees && !atGroup .curly next) || atWord "static" trees
    || (atWord "async" trees && (atMark "|" next || atWord "move" next))

/-- A path begins here. -/
def atPath (trees : List Tree) : Bool :=
  let next := trees.drop 1
  atPathStart trees || atMark "<" trees || atWord "Self" trees
    || (atWord "try" trees && (atMark "!" next || atMark "::" next))

/-- A form that only a compiler knows. -/
def builtinOperand : Reader ExprPhrase := do
  Reader.word "builtin"
  Reader.mark "#"
  let _ ← Reader.ident
  let _ ← Reader.group .round
  return wordExpr ""

/-- A value behind a word, unless a mark ends the expression. -/
def yieldOperand (r : Readers) : Reader ExprPhrase := do
  Reader.word "yield"
  let trees ← get
  leavingOperand r "yield" !(trees.isEmpty || atMark "," trees || atMark ";" trees)

/-- A range without a lower end. -/
def rangeOperand (r : Readers) (structs : Bool) : Reader ExprPhrase := do
  let limits ← rangeLimits
  return rangeExpr none limits (← upperEnd r structs limits)

/-- An operand that is neither a block nor a choice, without endings. -/
def plainOperand (r : Readers) (structs : Bool) : Reader ExprPhrase := do
  let trees ← get
  if atGroup .round trees then roundOperand r
  else if atWord "break" trees then breakOperand r structs
  else if ← Reader.word? "continue" then
    leavingOperand r ("continue" ++ (← Reader.lifetime?).elim "" (" " ++ ·)) false
  else if ← Reader.word? "return" then leavingOperand r "return" (atExpr (← get))
  else if ← Reader.word? "become" then r.expr true
  else if atGroup .square trees then squareOperand r
  else if atWord "let" trees then letOperand r structs
  else if atWord "yield" trees then yieldOperand r
  else if atMark ".." trees then rangeOperand r structs
  else
    Reader.word "_"
    return wordExpr "_"

/-- An operand without endings; the flag allows records in braces. -/
def bareOperand (r : Readers) (structs : Bool) : Reader ExprPhrase := do
  let trees ← get
  let next := trees.drop 1
  if atLiteral trees then return literalExpr (← literalText)
  else if atWord "async" trees && (atGroup .curly next || (atWord "move" next && atGroup .curly (next.drop 1))) then
    asyncOperand r
  else if atClosure trees then closureOperand r structs
  else if atWord "builtin" trees && atMark "#" next then builtinOperand
  else if atPath trees then pathOperand r structs
  else
    match ← completeOperand? r with
    | some e => return e
    | none => plainOperand r structs

/-- A reference to a value, possibly a raw one. -/
def referenceOperand (r : Readers) (structs : Bool) : Reader ExprPhrase := do
  Reader.mark "&"
  let trees ← get
  let isRaw := atWord "raw" trees && (atWord "mut" (trees.drop 1) || atWord "const" (trees.drop 1))
  if isRaw then Reader.skip 1
  let isMutable ← Reader.word? "mut"
  if isRaw && !isMutable then Reader.word "const"
  let words := if isMutable then "mut " else if isRaw then "const " else ""
  return ledExpr ("&" ++ (if isRaw then "raw " else "") ++ words) (← r.operand [] structs)

/-- An operand behind its attributes. -/
def readOperand (r : Readers) (leading : List Doc) (structs : Bool) : Reader ExprPhrase := do
  let attributes ← outerAttributes r
  let trees ← get
  let e ←
    if atMark "&" trees then referenceOperand r structs
    else
      match ["*", "!", "-"].find? (atMark · trees) with
      | some sign => do
        Reader.mark sign
        pure (ledExpr sign (← r.operand [] structs))
      | none => do
        let e ← endings r (← bareOperand r structs)
        Reader.ensure (attributes.isEmpty || !e.isRange)
        pure e
  return e.under (leading ++ attributes)

/-- An expression that a statement or an arm holds. A block or a choice ends it, unless a member or a question mark
follows. -/
def readLeading (r : Readers) (leading : List Doc) : Reader ExprPhrase := do
  let attributes := leading ++ (← outerAttributes r)
  match ← completeOperand? r with
  | some e =>
    if ← Reader.peek fun trees => atMarkBut "." [".."] trees || atMark "?" trees then
      r.operations ((← endings r e).under attributes) true .any
    else return e.under attributes
  | none => r.operations (← r.operand attributes true) true .any

end ContractBindings.Items
