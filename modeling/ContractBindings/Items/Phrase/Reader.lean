import ContractBindings.Items.Token

/-!
# Readers of token trees

A reader takes what it reads off the start of some trees. What it does not take is left for the next reader; a reader
that does not fit takes nothing at all. The trees in brackets are read by a reader of their own, which takes all of
them.
-/

namespace ContractBindings.Items

/-- Reads something at the start of trees, and leaves the trees after it. -/
abbrev Reader := StateT (List Tree) Option

/-- The words that are no identifiers. -/
def keywords : List String :=
  ["abstract", "as", "async", "await", "become", "box", "break", "const", "continue", "crate", "do", "dyn", "else",
   "enum", "extern", "false", "final", "fn", "for", "if", "impl", "in", "let", "loop", "macro", "match", "mod", "move",
   "mut", "override", "priv", "pub", "ref", "return", "Self", "self", "static", "struct", "super", "trait", "true",
   "try", "type", "typeof", "unsafe", "unsized", "use", "virtual", "where", "while", "yield", "_"]

/-! ## What stands at the start of trees -/

/-- Some characters as marks, each but the last joint to the next. -/
def atMarkChars : List Char → List Tree → Bool
  | [], _ => true
  | [c], .mark d _ :: _ => c == d
  | c :: more, .mark d joint :: rest => c == d && joint && atMarkChars more rest
  | _, _ => false

/-- The marks of a text. -/
def atMark (text : String) (trees : List Tree) : Bool := atMarkChars text.toList trees

/-- A word. -/
def atWord (text : String) : List Tree → Bool
  | .word other :: _ => text == other
  | _ => false

/-- Any word, also a keyword. -/
def atAnyWord : List Tree → Bool
  | .word _ :: _ => true
  | _ => false

/-- An identifier. -/
def atIdent : List Tree → Bool
  | .word text :: _ => !keywords.contains text
  | _ => false

/-- A lifetime. -/
def atLifetime : List Tree → Bool
  | .lifetime _ :: _ => true
  | _ => false

/-- Trees in brackets. -/
def atGroup (bracket : Bracket) : List Tree → Bool
  | .group other _ :: _ => bracket == other
  | _ => false

/-- A literal without a sign, or a truth value. -/
def atPlainLiteral : List Tree → Bool
  | .literal _ :: _ => true
  | .word text :: _ => text == "true" || text == "false"
  | _ => false

/-- A mark that is none of some longer ones. -/
def atMarkBut (text : String) (longer : List String) (trees : List Tree) : Bool :=
  atMark text trees && longer.all fun other => !atMark other trees

/-- What a word in front of a path without arguments can be. -/
def atPathStart (trees : List Tree) : Bool :=
  atIdent trees || atMark "::" trees || ["self", "super", "crate"].any fun word => atWord word trees

namespace Reader

/-! ## Single trees -/

/-- Whether something stands at the start. -/
def peek (p : List Tree → Bool) : Reader Bool := fun trees => some (p trees, trees)

/-- Fails unless a condition holds. -/
def ensure (condition : Bool) : Reader Unit := if condition then pure () else failure

/-- Passes over some trees. -/
def skip (n : Nat) : Reader Unit := fun trees => some ((), trees.drop n)

/-- Reads the marks of a text. -/
def mark (text : String) : Reader Unit := fun trees =>
  if atMark text trees then some ((), trees.drop text.length) else none

/-- Reads the marks of a text if they stand there. -/
def mark? (text : String) : Reader Bool := fun trees =>
  if atMark text trees then some (true, trees.drop text.length) else some (false, trees)

/-- Reads a word. -/
def word (text : String) : Reader Unit := fun trees =>
  if atWord text trees then some ((), trees.drop 1) else none

/-- Reads a word if it stands there. -/
def word? (text : String) : Reader Bool := fun trees =>
  if atWord text trees then some (true, trees.drop 1) else some (false, trees)

/-- Reads any word. -/
def anyWord : Reader String
  | .word text :: rest => some (text, rest)
  | _ => none

/-- Reads an identifier. -/
def ident : Reader String := fun trees => if atIdent trees then anyWord trees else none

/-- Reads an identifier or one of some keywords. -/
def identOr (words : List String) : Reader String := fun trees =>
  if words.any (atWord · trees) then anyWord trees else ident trees

/-- Reads a lifetime: its text, with the quote. -/
def lifetime : Reader String
  | .lifetime name :: rest => some ("'" ++ name, rest)
  | _ => none

/-- Reads a lifetime if one stands there. -/
def lifetime? : Reader (Option String)
  | .lifetime name :: rest => some (some ("'" ++ name), rest)
  | trees => some (none, trees)

/-- Reads trees in brackets. -/
def group (bracket : Bracket) : Reader (List Tree)
  | .group other content :: rest => if bracket == other then some (content, rest) else none
  | _ => none

/-- Reads trees in any brackets. -/
def anyGroup : Reader (Bracket × List Tree)
  | .group bracket content :: rest => some ((bracket, content), rest)
  | _ => none

/-! ## Combinations -/

/-- What a reader reads, if it takes all of some trees. -/
def wholly? (read : Reader α) (trees : List Tree) : Option α :=
  match read trees with
  | some (value, []) => some value
  | _ => none

/-- Reads trees in brackets by a reader that takes all of them. -/
def inside (bracket : Bracket) (read : Reader α) : Reader α := do
  let content ← group bracket
  match wholly? read content with
  | some value => pure value
  | none => failure

/-- Reads something if it fits. -/
def attempt? (read : Reader α) : Reader (Option α) := fun trees =>
  match read trees with
  | some (value, rest) => some (some value, rest)
  | none => some (none, trees)

/-- Reads something if a condition holds of the trees. -/
def readIf (p : List Tree → Bool) (read : Reader α) : Reader (Option α) := do
  if ← peek p then some <$> read else pure none

/-- Reads something after a mark, if the mark stands there. -/
def after? (text : String) (read : Reader α) : Reader (Option α) := do
  if ← mark? text then some <$> read else pure none

/-- Reads items until the trees stop them; each takes at least one tree. -/
def itemsUntilFrom (stop : List Tree → Bool) (read : Reader α) : Nat → Reader (List α)
  | 0 => failure
  | fuel + 1 => do
    if ← peek stop then return []
    let item ← read
    return item :: (← itemsUntilFrom stop read fuel)

/-- Reads items until the trees stop them. -/
def itemsUntil (stop : List Tree → Bool) (read : Reader α) : Reader (List α) := fun trees =>
  itemsUntilFrom stop read (trees.length + 1) trees

/-- Reads items with a mark between them until the trees stop them; the mark may follow the last item. The flag says
that it does. -/
def listUntilFrom (stop : List Tree → Bool) (text : String) (read : Reader α) : Nat → Bool → Reader (List α × Bool)
  | 0, _ => failure
  | fuel + 1, marked => do
    if ← peek stop then return ([], marked)
    let item ← read
    if ← peek stop then return ([item], false)
    mark text
    let (more, marked) ← listUntilFrom stop text read fuel true
    return (item :: more, marked)

/-- Reads items with a mark between them until the trees stop them, with the flag that the mark follows the last. -/
def markedListUntil (stop : List Tree → Bool) (text : String) (read : Reader α) : Reader (List α × Bool) := fun trees =>
  listUntilFrom stop text read (trees.length + 1) false trees

/-- Reads items with a mark between them until the trees stop them. -/
def listUntil (stop : List Tree → Bool) (text : String) (read : Reader α) : Reader (List α) :=
  (·.1) <$> markedListUntil stop text read

/-- Reads items with commas between them up to the end. -/
def commaList (read : Reader α) : Reader (List α) := listUntil List.isEmpty "," read

/-- Reads items as long as a mark follows, unless the trees stop them. -/
def listWhileFrom (stop : List Tree → Bool) (text : String) (read : Reader α) : Nat → Reader (List α)
  | 0 => failure
  | fuel + 1 => do
    if ← peek stop then return []
    let item ← read
    if ← mark? text then return item :: (← listWhileFrom stop text read fuel) else return [item]

/-- Reads items as long as a mark follows, unless the trees stop them. -/
def listWhile (stop : List Tree → Bool) (text : String) (read : Reader α) : Reader (List α) := fun trees =>
  listWhileFrom stop text read (trees.length + 1) trees

end Reader

end ContractBindings.Items
