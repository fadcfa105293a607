import ContractBindings.Items.Phrase.Reader
import ContractBindings.Items.Token.Value
import ContractBindings.Layout

/-!
# Phrases

A phrase is what a reader makes of token trees: how they are laid out, and what the phrases around it ask of it. The
readers of types, expressions, patterns, statements and items call each other; `Readers` holds those that others call,
so that each can be defined by itself, and the knot is tied once, over a bound for the nesting of calls.
-/

namespace ContractBindings.Items

open Layout

/-- A number with a sign stands at the start, or any other literal. -/
def atLiteral (trees : List Tree) : Bool :=
  atPlainLiteral trees || match trees with
    | .mark '-' _ :: .literal text :: _ =>
      match LiteralKind.ofText text with
      | .integer => true
      | .fraction => true
      | _ => false
    | _ => false

/-! ## Kinds of phrases -/

/-- A path. -/
structure PathPhrase where
  doc : List Doc
  /-- The word that the path is, if it is a word alone. -/
  name : Option String
  /-- No segment has arguments. -/
  isPlain : Bool
  /-- The path is one segment, which may have arguments. -/
  isSingle : Bool
  /-- The path begins with a type in angle brackets. -/
  isQualified : Bool
  /-- The last segment has no arguments yet. -/
  isOpen : Bool

/-- What types are by their form. -/
inductive TypeForm where
  /-- A path without a type in front of it. -/
  | path (isSingle : Bool)
  /-- Bounds without the word for objects; a trait that is the only bound, without parentheses around it. -/
  | bounds (only : Option (List Doc))
  | other

/-- A type. -/
structure TypePhrase where
  doc : List Doc
  form : TypeForm := .other
  /-- The type ends in a curly bracket. -/
  endsInBrace : Bool := false

/-- The kinds of bounds. -/
inductive BoundKind where
  | trait_
  | lifetime
  | captures
  deriving DecidableEq

/-- A bound of a type. -/
structure BoundPhrase where
  doc : List Doc
  kind : BoundKind
  /-- The bound without parentheses around it. -/
  bare : List Doc

/-- The parameters of a declaration. -/
structure GenericsPhrase where
  doc : List Doc
  /-- Angle brackets are there, possibly empty ones. -/
  isPresent : Bool

/-- The kinds of patterns. -/
inductive PatternKind where
  /-- A literal or an underscore. -/
  | simple
  /-- All that is left: two points. -/
  | rest
  /-- A range without one of its ends. -/
  | openRange
  | other
  deriving DecidableEq

/-- A pattern. -/
structure PatternPhrase where
  doc : List Doc
  kind : PatternKind := .other

/-- The binding strength of operators, weakest first. -/
inductive Precedence where
  | any
  | assign
  | range
  | or
  | and
  | letting
  | compare
  | bitOr
  | bitXor
  | bitAnd
  | shift
  | sum
  | product
  | cast
  deriving DecidableEq

/-- The place of a strength among all. -/
def Precedence.rank : Precedence → Nat
  | .any => 0
  | .assign => 1
  | .range => 2
  | .or => 3
  | .and => 4
  | .letting => 5
  | .compare => 6
  | .bitOr => 7
  | .bitXor => 8
  | .bitAnd => 9
  | .shift => 10
  | .sum => 11
  | .product => 12
  | .cast => 13

/-- An expression. -/
structure ExprPhrase where
  /-- The layout of the expression; the flag says that it begins a line. -/
  layout : Bool → List Doc
  /-- The layout at the head of members and calls that follow, where it differs from that of a group. -/
  head : Option (Bool → List Doc) := none
  /-- What an arm of a choice shows in place of the expression. -/
  arm : Option (Unit → List Doc) := none
  /-- A word of at most four bytes. -/
  isShortWord : Bool := false
  /-- A number, character or truth value. -/
  isSmall : Bool := false
  /-- A block or a choice, which ends a statement or an arm without a mark. -/
  isComplete : Bool := false
  /-- A call of a macro, with whether its arguments stand in curly brackets. -/
  isMacro : Option Bool := none
  /-- The expression ends in a curly bracket. -/
  endsInBrace : Bool := false
  /-- As the only argument it needs no gaps around it. -/
  isBlockLike : Bool := false
  /-- It follows the parameters of a closure without brackets. -/
  isInline : Bool := false
  /-- Where it breaks, the block after it begins a line. -/
  needsLine : Bool := false
  /-- It can stand as a statement. -/
  isStatement : Bool := false
  /-- As the last statement it takes a semicolon. -/
  takesSemicolon : Bool := false
  /-- As a statement it drops its semicolon. -/
  dropsSemicolon : Bool := false
  isRange : Bool := false
  isComparison : Bool := false

/-- As a statement the expression is to be followed by a semicolon. -/
def ExprPhrase.wantsSemicolon (e : ExprPhrase) : Bool :=
  match e.isMacro with
  | some curly => !curly
  | none => !e.isComplete

/-- The expression at the head of members and calls. -/
def ExprPhrase.headDoc (e : ExprPhrase) (beginning : Bool) : List Doc :=
  match e.head with
  | some head => head beginning
  | none => box (-indent) true (e.layout false)

/-- The expression after attributes. -/
def ExprPhrase.under (attributes : List Doc) (e : ExprPhrase) : ExprPhrase :=
  if attributes.isEmpty then e
  else
    { e with
      layout := fun beginning => attributes ++ e.layout beginning
      arm := none
      isShortWord := false
      isBlockLike := false
      isInline := false }

/-- A statement. -/
structure StatementPhrase where
  lines : List Doc
  /-- The expression that is the statement, without a semicolon. -/
  single : Option ExprPhrase := none
  /-- Another statement may only follow after a semicolon. -/
  wantsSemicolon : Bool := false

/-- The inside of a block. -/
structure BlockPhrase where
  /-- The attributes inside of the block. -/
  attributes : List Doc
  statements : List StatementPhrase

/-- The lines of statements. -/
def statementLines (statements : List StatementPhrase) : List Doc := statements.flatMap (·.lines)

/-- The lines of a block. -/
def BlockPhrase.lines (b : BlockPhrase) : List Doc := b.attributes ++ statementLines b.statements

/-- A block in braces that may stand on one line, inside of a group. -/
def BlockPhrase.small (b : BlockPhrase) : List Doc :=
  if b.attributes.isEmpty && b.statements.isEmpty then [.text "\x7b\x7d"]
  else
    let inner := match b.statements with
      | [⟨_, some e, _⟩] => aligned (e.layout true) ++ [.gap .space]
      | statements => statementLines statements
    [.text "\x7b"] ++ outdented (.gap .space :: b.attributes ++ inner) ++ [.text "\x7d"]

/-- A block in braces with one line for each statement, inside of a group of its own. -/
def BlockPhrase.braced (b : BlockPhrase) : List Doc :=
  [.text "\x7b"] ++ nested (body .hard b.lines) ++ [.text "\x7d"]

/-- The documents of items with a text between them. -/
def joined (text : String) : List (List Doc) → List Doc
  | [] => []
  | [item] => item
  | item :: rest => item ++ [.text text] ++ joined text rest

/-- The documents of items with a gap and a text between them. -/
def spaced (text : String) : List (List Doc) → List Doc
  | [] => []
  | [item] => item
  | item :: rest => item ++ [.gap .space, .text text] ++ spaced text rest

/-! ## Readers that call each other -/

/-- The readers that others call. -/
structure Readers where
  /-- A type; the flag allows several bounds. -/
  type : Bool → Reader TypePhrase
  /-- A bound of a type; the flags allow captures and constant traits. -/
  bound : Bool → Bool → Reader BoundPhrase
  /-- An expression without operators between operands, under attributes; the flag allows records in braces. -/
  operand : List Doc → Bool → Reader ExprPhrase
  /-- The operators after an operand that bind at least as strongly as given. -/
  operations : ExprPhrase → Bool → Precedence → Reader ExprPhrase
  /-- An expression that a statement or an arm holds, under attributes. -/
  leading : List Doc → Reader ExprPhrase
  /-- A pattern without alternatives. -/
  pattern : Reader PatternPhrase
  /-- Statements up to the end. -/
  statements : Reader (List StatementPhrase)
  /-- An item under attributes, with its lines. -/
  item : List Doc → Reader (List Doc)

/-- An expression; the flag allows records in braces. -/
def Readers.expr (r : Readers) (structs : Bool) : Reader ExprPhrase := do
  r.operations (← r.operand [] structs) structs .any

/-- A block without attributes inside. -/
def Readers.block (r : Readers) : Reader BlockPhrase := do
  return ⟨[], ← Reader.inside .curly r.statements⟩

end ContractBindings.Items
