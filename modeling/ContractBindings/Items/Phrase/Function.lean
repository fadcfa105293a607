import ContractBindings.Items.Phrase.Statement

/-!
# Functions

The head of a function with its inputs, and bodies in braces.
-/

namespace ContractBindings.Items

open Layout

/-- A head, and lines between braces behind it. -/
def bodied (head lines : List Doc) : List Doc :=
  nested (head ++ [.text "\x7b"] ++ body .hard lines) ++ [.text "\x7d"]

/-- The value itself as an input. -/
def receiver (r : Readers) : Reader (List Doc) := do
  let isReference ← Reader.mark? "&"
  let lifetime ← if isReference then Reader.lifetime? else pure none
  let isMutable ← Reader.word? "mut"
  Reader.word "self"
  let type ← if isReference then pure none else Reader.after? ":" (r.type true)
  let head := (if isReference then "&" else "") ++ lifetime.elim "" (· ++ " ") ++ (if isMutable then "mut " else "")
  return [.text (head ++ "self")] ++ type.elim [] fun type => [.text ": "] ++ type.doc

/-- An input behind its attributes: a pattern with a type, or a type alone. Three points as the type stand for any
further inputs; the flag says so. -/
def namedInput (r : Readers) : Reader (List Doc × Bool) := do
  let trees ← get
  if atIdent trees && atMark "<" (trees.drop 1) then return ([.text "_: "] ++ (← r.type true).doc, false)
  else
    let pattern ← r.pattern
    Reader.mark ":"
    let head := pattern.doc ++ [.text ": "]
    if ← Reader.mark? "..." then return (head ++ [.text "..."], true) else return (head ++ (← r.type true).doc, false)

/-- An input behind its attributes, with the flag that it stands for any further ones. Only the first can be the value
itself. -/
def functionArgument (r : Readers) (isFirst : Bool) : Reader (List Doc × Bool) := do
  if ← Reader.mark? "..." then return ([.text "..."], true)
  match ← Reader.attempt? (receiver r) with
  | some doc =>
    Reader.ensure isFirst
    return (doc, false)
  | none => namedInput r

/-- The inputs of a function up to the end, with the one that stands for any further ones. -/
def argumentsFrom (r : Readers) : Nat → Bool → Reader (List (List Doc) × Option (List Doc))
  | 0, _ => failure
  | fuel + 1, isFirst => do
    if (← get).isEmpty then return ([], none)
    let attributes ← outerAttributes r
    let (input, isFurther) ← functionArgument r isFirst
    let input := attributes ++ input
    if isFurther then
      let _ ← Reader.mark? ","
      return ([], some input)
    if (← get).isEmpty then return ([input], none)
    Reader.mark ","
    let (more, further) ← argumentsFrom r fuel false
    return (input :: more, further)

/-- The head of a function. -/
structure SignaturePhrase where
  /-- The layout up to the conditions. -/
  doc : List Doc
  conditions : Option (List (List Doc))

/-- Some words, each if it stands there, with the blanks after them. -/
def modifiers : List String → Reader String
  | [] => pure ""
  | word :: rest => do
    let isThere ← Reader.word? word
    return (if isThere then word ++ " " else "") ++ (← modifiers rest)

/-- The words in front of a function; the flag allows the word for safe ones. -/
def functionWords (safe : Bool) : Reader String := do
  let words ← modifiers ["const", "async"]
  let safety ← if safe && (← Reader.peek (atWord "safe")) then modifiers ["safe"] else modifiers ["unsafe"]
  return words ++ safety ++ (← convention?)

/-- A function begins here. -/
def atFunction (safe : Bool) (trees : List Tree) : Bool :=
  match functionWords safe trees with
  | some (_, rest) => atWord "fn" rest
  | none => false

/-- The head of a function; the flag allows the word for safe ones. -/
def signature (r : Readers) (safe : Bool) : Reader SignaturePhrase := do
  let words ← functionWords safe
  Reader.word "fn"
  let name ← Reader.ident
  let parameters ← generics r
  let (inputs, further) ← Reader.inside .round do argumentsFrom r ((← get).length + 1) true
  let output ← returnType r true
  let conditions ← conditions? r
  return ⟨[.text (words ++ "fn " ++ name)] ++ parameters.doc ++ [.text "(", .gap .closed]
    ++ box 0 true (outdented (.gap .zero :: inputsDoc inputs further)) ++ [.text ")"]
    ++ box (-indent) true (returnDoc output), conditions⟩

/-- A function behind some words: its head, and a body or a semicolon. -/
def functionDoc (r : Readers) (words : String) (safe : Bool) : Reader (List Doc) := do
  let s ← signature r safe
  let head := [.text words] ++ s.doc
  if ← Reader.mark? ";" then return nested (head ++ conditionLines true s.conditions)
  else
    let b ← blockWithAttributes r
    return bodied (head ++ conditionLines false s.conditions) b.lines

end ContractBindings.Items
