import ContractBindings.Items.Phrase.Operand

/-!
# Statements

What a block holds: bindings, items, calls of macros and expressions, with the semicolons between them.
-/

namespace ContractBindings.Items

open Layout

/-- A call of a macro in curly brackets stands here, which is a statement by itself. -/
def atMacroStatement (trees : List Tree) : Bool :=
  let after := trees.drop 2
  atMark "!" trees && atGroup .curly (trees.drop 1) && !(atMarkBut "." [".."] after || atMark "?" after)

/-- An exclamation mark and a name stand here, behind the path of a macro. -/
def atNamedMacro (trees : List Tree) : Bool :=
  atMark "!" trees && (atIdent (trees.drop 1) || atWord "try" (trees.drop 1))

/-- The words that begin an item and no expression. -/
def itemWords : List String := ["pub", "extern", "use", "fn", "mod", "type", "struct", "enum", "trait", "impl", "macro"]

/-- A function begins here, behind the word for one that answers later. -/
def atFunctionWords (trees : List Tree) : Bool := ["unsafe", "extern", "fn"].any (atWord · trees)

/-- A static item begins here rather than a closure. -/
def atStaticItem (trees : List Tree) : Bool :=
  let next := trees.drop 1
  atWord "static" trees && (atWord "mut" next || atIdent next)

/-- A constant item or function begins here rather than an expression. -/
def atConstantItem (trees : List Tree) : Bool :=
  let next := trees.drop 1
  atWord "const" trees
    && !(atGroup .curly next || atWord "static" next || (atWord "async" next && !atFunctionWords (next.drop 1))
      || atWord "move" next || atMark "|" next)

/-- An item begins here rather than an expression. -/
def atItem (trees : List Tree) : Bool :=
  let next := trees.drop 1
  itemWords.any (atWord · trees) || (atWord "crate" trees && !atMark "::" next) || atStaticItem trees
    || atConstantItem trees || (atWord "unsafe" trees && !atGroup .curly next)
    || (atWord "async" trees && atFunctionWords next) || (atWord "union" trees && atIdent next)
    || (atWord "auto" trees && atWord "trait" next)
    || (atWord "default" trees && (atWord "unsafe" next || atWord "impl" next))

/-- A binding of the names in a pattern. -/
def bindingStatement (r : Readers) (attributes : List Doc) : Reader StatementPhrase := do
  Reader.word "let"
  let pattern ← r.pattern
  let type ← Reader.after? ":" (r.type true)
  let value ← Reader.after? "=" do
    let e ← r.expr true
    let otherwise ← Reader.readIf (fun trees => !e.endsInBrace && atWord "else" trees) do
      Reader.word "else"
      r.block
    return (e, otherwise)
  Reader.mark ";"
  let head := [.text "let "] ++ pattern.doc ++ type.elim [] fun type => [.text ": "] ++ type.doc
  let doc := match value with
    | none => aligned head
    | some (e, none) => aligned (head ++ [.text " = ", .gap .closed] ++ e.layout false)
    | some (e, some otherwise) =>
      aligned (head ++ [.text " = ", .gap .closed] ++ e.layout false ++ [.gap .space, .text "else "])
        ++ [.gap .closed] ++ nested otherwise.small
  return { lines := attributes ++ doc ++ [.text ";", .gap .hard] }

/-- A call of a macro as a statement, with whether a semicolon follows. -/
def macroStatement (doc : List Doc) (marked : Bool) : StatementPhrase :=
  { lines := doc ++ (if marked then [.text ";"] else []) ++ [.gap .hard] }

/-- An expression as a statement, with whether a semicolon follows. -/
def expressionStatement (e : ExprPhrase) (marked : Bool) : StatementPhrase :=
  if e.isMacro.any (· || marked) then macroStatement (e.layout true) marked
  else
    let semicolon := if marked then !e.dropsSemicolon else e.takesSemicolon
    { lines := aligned (e.layout true ++ if semicolon then [.text ";"] else []) ++ [.gap .hard]
      single := if marked then none else some e
      wantsSemicolon := !marked && e.wantsSemicolon }

/-- A statement. -/
def statement (r : Readers) : Reader StatementPhrase := do
  let attributes ← outerAttributes r
  let trees ← get
  match plainPath trees with
  | some (path, rest) =>
    if atMacroStatement rest then
      set (rest.drop 1)
      let call ← macroCall path
      return macroStatement (attributes ++ call.doc) (← Reader.mark? ";")
    else if atNamedMacro rest then return { lines := ← r.item attributes }
  | none => pure ()
  if atWord "let" trees then bindingStatement r attributes
  else if atItem trees then return { lines := ← r.item attributes }
  else
    let e ← r.leading attributes
    return expressionStatement e (← Reader.mark? ";")

/-- The statements of a block, up to its end. A semicolon alone is a statement without lines. -/
def statementsFrom (r : Readers) : Nat → Reader (List StatementPhrase)
  | 0 => failure
  | fuel + 1 => do
    if (← get).isEmpty then return []
    if ← Reader.mark? ";" then return { lines := [] } :: (← statementsFrom r fuel)
    let s ← statement r
    Reader.ensure (!s.wantsSemicolon || (← get).isEmpty)
    return s :: (← statementsFrom r fuel)

/-- The statements of a block, up to its end. -/
def readStatements (r : Readers) : Reader (List StatementPhrase) := do statementsFrom r ((← get).length + 1)

end ContractBindings.Items
