import ContractBindings.Items.Phrase.Type

/-!
# Patterns

What stands on the left of an assignment, in front of the result of an arm, and for the inputs of functions.
-/

namespace ContractBindings.Items

open Layout

/-- The ends of ranges: with two points the upper end may be missing. -/
inductive RangeLimits where
  | halfOpen
  | closed
  deriving DecidableEq

/-- The marks between the ends of a range. -/
def RangeLimits.text : RangeLimits → String
  | .halfOpen => ".."
  | .closed => "..="

/-- The marks between the ends of a range. -/
def rangeLimits : Reader RangeLimits := do
  if ← Reader.mark? "..=" then return .closed
  Reader.ensure (!(← Reader.peek (atMark "...")))
  Reader.mark ".."
  return .halfOpen

/-- The marks between the ends of a range of a pattern, where three points are a closed range. -/
def patternLimits : Reader RangeLimits := do
  if ← Reader.mark? "..=" then return .closed
  if ← Reader.mark? "..." then return .closed
  Reader.mark ".."
  return .halfOpen

/-- A block of constants. -/
def constantBlock (r : Readers) : Reader (List Doc) := do
  Reader.word "const"
  return [.text "const "] ++ blockDoc (← blockWithAttributes r)

/-- No end of a range stands here. -/
def endsRange (trees : List Tree) : Bool :=
  trees.isEmpty || atMark "|" trees || atMark "=" trees || atMarkBut ":" ["::"] trees || atMark "," trees
    || atMark ";" trees || atWord "if" trees

/-- The end of a range, or the value that a pattern stands for. -/
def rangeEnd (r : Readers) : Reader (Option PatternPhrase) := do
  let trees ← get
  if endsRange trees then return none
  else if atLiteral trees then return some { doc := [.text (← literalText)], kind := .simple }
  else if atPathStart trees || atWord "Self" trees || atMark "<" trees then
    return some { doc := (← qualifiedPath r true).doc }
  else if atWord "const" trees then return some { doc := ← constantBlock r }
  else failure

/-- The range that begins with an end. -/
def rangeFrom (r : Readers) (start : List Doc) : Reader PatternPhrase := do
  let limits ← patternLimits
  let upper ← rangeEnd r
  Reader.ensure (!(limits = .closed && upper.isNone))
  return {
    doc := start ++ [.text limits.text] ++ upper.elim [] (·.doc)
    kind := if upper.isNone then .openRange else .other }

/-- Alternatives of patterns. -/
def patterns (r : Readers) : Reader PatternPhrase := do
  let led ← Reader.mark? "|"
  let first ← r.pattern
  let more ← Reader.itemsUntil (fun trees => !atMarkBut "|" ["||", "|="] trees) do
    Reader.mark "|"
    r.pattern
  if led || !more.isEmpty then
    let cases := first :: more
    return { doc := box 0 (cases.any (·.kind ≠ .simple)) (spaced "| " (cases.map (·.doc))) }
  else return first

/-- A member that is a name, or a position. -/
structure Member where
  text : String
  isNamed : Bool

/-- A member. -/
def member : Reader Member := do
  match ← get with
  | .literal text :: _ =>
    Reader.skip 1
    match position? text.toList with
    | some n => return ⟨toString n, false⟩
    | none => failure
  | _ => return ⟨← Reader.ident, true⟩

/-- A field of a pattern. -/
def fieldPattern (r : Readers) : Reader (List Doc) := do
  let isBox ← Reader.word? "box"
  let isRef ← Reader.word? "ref"
  let isMutable ← Reader.word? "mut"
  let bare := !(isBox || isRef || isMutable)
  let m ← if bare then member else (⟨·, true⟩) <$> Reader.ident
  if (bare && (← Reader.peek (atMark ":"))) || !m.isNamed then
    Reader.mark ":"
    return [.text (m.text ++ ": ")] ++ (← patterns r).doc
  else
    let words := (if isBox then "box " else "") ++ (if isRef then "ref " else "") ++ (if isMutable then "mut " else "")
    return [.text (words ++ m.text)]

/-- The fields of a pattern up to the end, with the mark for all others. -/
def fieldPatterns (r : Readers) : Nat → Reader (List (List Doc) × Option (List Doc))
  | 0 => failure
  | fuel + 1 => do
    if (← get).isEmpty then return ([], none)
    let attributes ← outerAttributes r
    if ← Reader.mark? ".." then return ([], some (attributes ++ [.text ".."]))
    let field ← fieldPattern r
    if (← get).isEmpty then return ([attributes ++ field], none)
    Reader.mark ","
    let (more, rest) ← fieldPatterns r fuel
    return ((attributes ++ field) :: more, rest)

/-- Items in spaced braces, with what stands for the rest. -/
def spacedItems (items : List (List Doc)) (rest : Option (List Doc)) : List Doc :=
  match rest with
  | none => separated .lastCommaSpace items
  | some rest => (items.flatMap fun item => item ++ [.text ",", .gap .space]) ++ rest ++ [.gap .space]

/-- A pattern that begins with a path. -/
def pathPattern (r : Readers) : Reader PatternPhrase := do
  let path ← qualifiedPath r true
  let trees ← get
  if atMarkBut "!" ["!="] trees && path.isPlain && !path.isQualified then
    Reader.skip 1
    return { doc := (← macroCall path).doc }
  else if atGroup .curly trees then
    let (fields, rest) ← Reader.inside .curly do fieldPatterns r ((← get).length + 1)
    let inner := body .space (spacedItems fields rest)
    return { doc := nested (path.doc ++ [.text " \x7b"] ++ inner) ++ [.text "\x7d"] }
  else if atGroup .round trees then
    let items ← Reader.inside .round (Reader.commaList (patterns r))
    return { doc := path.doc ++ listed "(" ")" (items.map (·.doc)) }
  else if atMark ".." trees then rangeFrom r path.doc
  else return { doc := path.doc }

/-- A pattern in parentheses, or several. -/
def roundPattern (r : Readers) : Reader PatternPhrase := do
  let (items, marked) ← Reader.inside .round (Reader.markedListUntil List.isEmpty "," (patterns r))
  match items with
  | [item] =>
    if !marked && item.kind ≠ .rest then return { doc := [.text "("] ++ item.doc ++ [.text ")"] }
    else
      let inner := [.gap .zero] ++ item.doc ++ (if marked then [.text ","] else []) ++ [.gap .zero]
      return { doc := [.text "("] ++ nested (outdented inner) ++ [.text ")"] }
  | items => return { doc := listed "(" ")" (items.map (·.doc)) }

/-- A name that a value is bound to. -/
def namePattern (r : Readers) : Reader PatternPhrase := do
  let isRef ← Reader.word? "ref"
  let isMutable ← Reader.word? "mut"
  let name ← Reader.identOr ["self"]
  let inner ← Reader.after? "@" r.pattern
  return { doc := [.text ((if isRef then "ref " else "") ++ (if isMutable then "mut " else "") ++ name)]
    ++ inner.elim [] fun inner => [.text " @ "] ++ inner.doc }

/-- A path follows, and not a name alone. -/
def atPathPattern (trees : List Tree) : Bool :=
  let next := trees.drop 1
  (atIdent trees
      && (atMark "::" next || atMark "!" next || atGroup .curly next || atGroup .round next || atMark ".." next))
    || (atWord "self" trees && atMark "::" next) || atMark "::" trees || atMark "<" trees || atWord "Self" trees
    || atWord "super" trees || atWord "crate" trees

/-- A pattern without alternatives. -/
def readPattern (r : Readers) : Reader PatternPhrase := do
  let trees ← get
  if atPathPattern trees then pathPattern r
  else if atWord "_" trees then
    Reader.skip 1
    return { doc := [.text "_"], kind := .simple }
  else if atWord "box" trees then
    Reader.skip 1
    return { doc := [.text "box "] ++ (← r.pattern).doc }
  else if atMark "-" trees || atPlainLiteral trees || atWord "const" trees then
    match ← rangeEnd r with
    | some start => if ← Reader.peek (atMark "..") then rangeFrom r start.doc else return start
    | none => failure
  else if atWord "ref" trees || atWord "mut" trees || atWord "self" trees || atIdent trees then namePattern r
  else if atMark "&" trees then
    Reader.skip 1
    let isMutable ← Reader.word? "mut"
    return { doc := [.text (if isMutable then "&mut " else "&")] ++ (← r.pattern).doc }
  else if atGroup .round trees then roundPattern r
  else if atGroup .square trees then
    let items ← Reader.inside .square (Reader.commaList (patterns r))
    Reader.ensure (items.all (·.kind ≠ .openRange))
    return { doc := listed "[" "]" (items.map (·.doc)) }
  else if atMarkBut ".." ["..."] trees then
    let limits ← rangeLimits
    match ← rangeEnd r with
    | some upper => return { doc := [.text limits.text] ++ upper.doc, kind := .openRange }
    | none =>
      Reader.ensure (limits = .halfOpen)
      return { doc := [.text ".."], kind := .rest }
  else failure

end ContractBindings.Items
