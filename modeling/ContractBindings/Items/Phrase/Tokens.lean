import ContractBindings.Items.Token
import ContractBindings.Layout

/-!
# The layout of bare tokens

The arguments of attributes and of macros are tokens without a grammar. Whether a blank stands between two of them is
decided from left to right, by what was written before.
-/

namespace ContractBindings.Items

open Layout

/-! ## Arguments of attributes -/

/-- What was written last in the arguments of an attribute. -/
inductive Written where
  | word
  | mark
  /-- A comma at the end of its brackets. -/
  | lastComma
  deriving DecidableEq

mutual

/-- The layout of one of the arguments of an attribute, and what was written last. -/
def attributeTree (before : Written) (isLast : Bool) : Tree → List Doc × Written
  | .word text => ((if before = .word then [.gap .space] else []) ++ [.text text], .word)
  | .literal text => ((if before = .word then [.gap .space] else []) ++ [.text text], .word)
  | .lifetime name => ([.text ("'" ++ name)], .word)
  | .mark c _ =>
    if c == ',' && isLast then ([.gap .lastComma], .lastComma)
    else
      let blank := if c == '=' then [.text " "] else if c == ',' then [.gap .space] else []
      ((if before = .word && c == '=' then [.text " "] else []) ++ [.text (String.singleton c)] ++ blank, .mark)
  | .group .round content =>
    let (inner, last) := attributeTrees .mark content
    let inner := .gap .zero :: inner ++ (if last = .lastComma then [] else [.gap .zero])
    ([.text "("] ++ nested (outdented inner) ++ [.text ")"], .mark)
  | .group bracket content =>
    ([.text bracket.opening] ++ (attributeTrees .mark content).1 ++ [.text bracket.closing], .mark)

/-- The layout of arguments of an attribute, and what was written last. -/
def attributeTrees (before : Written) : List Tree → List Doc × Written
  | [] => ([], before)
  | tree :: rest =>
    let (doc, written) := attributeTree before rest.isEmpty tree
    let (more, last) := attributeTrees written rest
    (doc ++ more, last)

end

/-! ## Arguments of macros -/

/-- What was written last in the arguments of a macro. -/
inductive MacroState where
  | start
  | dollar
  | dollarWord
  | dollarWordColon
  | dollarGroup
  | dollarGroupMark
  | pound
  | poundBang
  | point
  | colon
  | colons
  | word
  | wordBang
  | brackets
  | other
  deriving DecidableEq

/-- The words of the language that are set apart from what follows them. -/
def spacedWords : List String :=
  ["as", "async", "await", "box", "break", "const", "continue", "dyn", "else", "enum", "extern", "fn", "for", "if",
   "impl", "in", "let", "loop", "macro", "match", "mod", "move", "mut", "pub", "ref", "return", "static", "struct",
   "trait", "type", "unsafe", "use", "where", "while", "yield"]

/-- Whether a blank stands in front of a word, and what was written last after it. Patterns name what they match. -/
def MacroState.afterWord (pattern : Bool) (text : String) : MacroState → Bool × MacroState
  | .dollarWordColon => (false, .other)
  | .dollarGroup => (false, .dollarGroupMark)
  | state =>
    if state = .dollar && pattern then (false, .dollarWord)
    else if spacedWords.contains text then (true, .other)
    else (state != .point && state != .colons, .word)

/-- Whether a blank stands in front of a literal, and what was written last after it. -/
def MacroState.afterLiteral : MacroState → Bool × MacroState
  | .dollarGroup => (false, .dollarGroupMark)
  | state => (state != .point, .word)

/-- Whether a blank stands in front of a mark, and what was written last after it. -/
def MacroState.afterMark (pattern : Bool) (c : Char) (joint : Bool) (state : MacroState) : Bool × MacroState :=
  if state = .dollarWord && c == ':' && !joint then (false, .dollarWordColon)
  else if state = .dollarGroup then
    if (c == '+' || c == '*' || c == '?') && !joint then (false, .other)
    else if joint then (false, .dollarGroup)
    else (false, .dollarGroupMark)
  else if state = .dollarGroupMark && (c == '+' || c == '*') then (false, .other)
  else if state = .pound && c == '!' then (false, .poundBang)
  else if state = .word && c == '!' && !joint then (false, .wordBang)
  else if state = .colon && c == ':' then (false, .colons)
  else if c == ',' || c == ';' then (false, .other)
  else if c == '.' && !pattern then (state != .word && state != .brackets, .point)
  else if c == ':' && joint then (state != .word, .colon)
  else if c == '$' then (true, .dollar)
  else if c == '#' then (true, .pound)
  else (true, .other)

/-- Whether a blank stands in front of brackets, and what was written last after them. -/
def MacroState.afterGroup (bracket : Bracket) (state : MacroState) : Bool × MacroState :=
  match bracket with
  | .curly => (true, .other)
  | .round =>
    if state = .dollar then (false, .dollarGroup)
    else if state = .word then (false, .brackets)
    else if state = .wordBang then (false, .other)
    else (true, .brackets)
  | .square =>
    if state = .pound || state = .poundBang then (false, .other)
    else if state = .word then (false, .brackets)
    else if state = .wordBang then (false, .other)
    else (true, .brackets)

/-- The gap in front of an argument that is not joined to the one before. -/
def gapBefore (joined blank : Bool) : List Doc := if !joined && blank then [.gap .space] else []

mutual

/-- The layout of the content of brackets among the arguments of a macro. -/
def macroTree (pattern : Bool) : Tree → List Doc
  | .word text => [.text text]
  | .literal text => [.text text]
  | .lifetime name => [.text ("'" ++ name)]
  | .mark c _ => [.text (String.singleton c)]
  | .group bracket content =>
    let gap := if bracket = .curly && !content.isEmpty then [Doc.gap .space] else []
    [.text bracket.opening] ++ gap ++ macroTrees pattern .start true content ++ gap ++ [.text bracket.closing]

/-- The layout of arguments of a macro; `joined` says that nothing stands in front of the first one. -/
def macroTrees (pattern : Bool) (state : MacroState) (joined : Bool) : List Tree → List Doc
  | [] => []
  | tree :: rest =>
    let (blank, next) := match tree with
      | .word text => state.afterWord pattern text
      | .literal _ => state.afterLiteral
      | .lifetime name =>
        let (blank, next) := state.afterMark pattern '\'' true
        (blank, (next.afterWord pattern name).2)
      | .mark c joint => state.afterMark pattern c joint
      | .group bracket _ => state.afterGroup bracket
    let isPoint := match tree with
      | .mark '.' _ => true
      | _ => false
    let gap := if !joined && !blank && isPoint then [Doc.gap .zero] else gapBefore joined blank
    let joins := match tree with
      | .mark '$' _ => true
      | .mark _ joint => joint
      | _ => false
    gap ++ macroTree pattern tree ++ macroTrees pattern next joins rest

end

end ContractBindings.Items
