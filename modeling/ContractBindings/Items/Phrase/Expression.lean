import ContractBindings.Items.Phrase.Pattern

/-!
# Expressions

The layout of each kind of expression, given its parts, and what the phrases around it ask of it.
-/

namespace ContractBindings.Items

open Layout

/-- The arguments of a call, without the parentheses. -/
def callItems : List ExprPhrase → List Doc
  | [e] =>
    if e.isBlockLike then e.layout false else nested (outdented (.gap .zero :: e.layout false ++ [.gap .lastComma]))
  | items => nested (outdented (.gap .zero :: separated .lastComma (items.map fun e => e.layout false)))

/-- A text that stands for itself. -/
def wordExpr (text : String) : ExprPhrase := { layout := fun _ => [.text text], isStatement := true }

/-- A literal. -/
def literalExpr (text : String) : ExprPhrase :=
  { wordExpr text with
    isSmall := (text == "true" || text == "false") || match LiteralKind.ofText text with
      | .character => true
      | .integer => true
      | _ => false }

/-- A path. -/
def pathExpr (path : PathPhrase) : ExprPhrase :=
  { layout := fun _ => path.doc, isStatement := true, isShortWord := path.name.any (·.utf8ByteSize ≤ 4) }

/-- A call of a macro. -/
def macroExpr (call : MacroPhrase) : ExprPhrase :=
  { layout := fun _ => call.doc, isStatement := true, isMacro := some (call.bracket = .curly),
    endsInBrace := call.bracket = .curly }

/-- An operand in front of an ending can stand as a statement where it does and does not end one by itself. -/
def headIsStatement (e : ExprPhrase) : Bool := e.wantsSemicolon && e.isStatement

/-- The gap in front of a member; a short word at the beginning of a line needs none. -/
def memberGap (beginning : Bool) (base : ExprPhrase) : List Doc :=
  if beginning && base.isShortWord then [] else [.gap .zero]

/-- A call. -/
def callExpr (function : ExprPhrase) (arguments : List ExprPhrase) : ExprPhrase :=
  let arguments := [Doc.text "("] ++ callItems arguments ++ [.text ")"]
  { layout := fun beginning => function.layout beginning ++ arguments
    head := some fun _ => function.headDoc false ++ arguments
    isInline := true
    needsLine := function.needsLine
    isStatement := headIsStatement function }

/-- A member, with its point. -/
def memberExpr (base : ExprPhrase) (text : String) : ExprPhrase :=
  let head (beginning : Bool) : List Doc := base.headDoc beginning ++ memberGap beginning base ++ [.text ("." ++ text)]
  { layout := fun beginning => nested (head beginning)
    head := some head
    needsLine := true
    isStatement := headIsStatement base }

/-- A call of a method. -/
def methodExpr (base : ExprPhrase) (name : String) (arguments : List Doc) (items : List ExprPhrase) : ExprPhrase :=
  let head (beginning unindented : Bool) : List Doc :=
    base.headDoc beginning ++ memberGap beginning base ++ [.text ("." ++ name)] ++ arguments
      ++ box (if unindented then -indent else 0) true ([.text "("] ++ callItems items ++ [.text ")"])
  { layout := fun beginning => nested (head beginning (beginning && base.isShortWord))
    head := some fun beginning => head beginning false
    needsLine := true
    isStatement := headIsStatement base }

/-- An operand with an ending that needs no gap. -/
def endedExpr (base : ExprPhrase) (ending : List Doc) (needsLine : Bool) : ExprPhrase :=
  { layout := fun beginning => base.layout beginning ++ ending
    head := some fun beginning => base.headDoc beginning ++ ending
    needsLine := needsLine
    isStatement := headIsStatement base }

/-- A mark or words in front of an expression. -/
def ledExpr (text : String) (e : ExprPhrase) : ExprPhrase :=
  { layout := fun _ => [.text text] ++ e.layout false
    isStatement := true
    needsLine := e.needsLine
    endsInBrace := e.endsInBrace }

/-- A left operand that breaks on its own, and what follows it on the same line or on the next one. -/
def operated (left : ExprPhrase) (right : List Doc) : List Doc :=
  box indent false (box (-indent) false (left.layout false) ++ [.gap .space] ++ right)

/-- A binary operator between operands. -/
def binaryExpr (left : ExprPhrase) (operator : String) (precedence : Precedence) (right : ExprPhrase) : ExprPhrase :=
  { layout := fun _ => operated left ([.text (operator ++ " ")] ++ right.layout false)
    needsLine := true
    isStatement := headIsStatement left
    takesSemicolon := precedence = .assign
    endsInBrace := right.endsInBrace
    isComparison := precedence = .compare }

/-- An assignment. -/
def assignExpr (left right : ExprPhrase) : ExprPhrase :=
  { layout := fun _ => aligned (left.layout false ++ [.text " = ", .gap .closed] ++ right.layout false)
    needsLine := true
    isStatement := headIsStatement left
    takesSemicolon := true
    endsInBrace := right.endsInBrace }

/-- A cast. -/
def castExpr (e : ExprPhrase) (type : TypePhrase) : ExprPhrase :=
  { layout := fun _ => operated e ([.text "as "] ++ type.doc)
    needsLine := true
    isStatement := headIsStatement e
    endsInBrace := type.endsInBrace }

/-- A range, each of whose ends may be missing. -/
def rangeExpr (start : Option ExprPhrase) (limits : RangeLimits) (upper : Option ExprPhrase) : ExprPhrase :=
  { layout := fun _ => (start.elim [] (·.layout false)) ++ [.text limits.text] ++ upper.elim [] (·.layout false)
    needsLine := upper.any (·.needsLine)
    isStatement := start.all headIsStatement
    endsInBrace := upper.any (·.endsInBrace)
    isRange := true }

/-- An expression in parentheses. -/
def roundExpr (e : ExprPhrase) : ExprPhrase :=
  { layout := fun _ => [.text "("] ++ e.layout false ++ [.text ")"], isStatement := true, needsLine := e.needsLine }

/-- Several values in parentheses. -/
def tupleExpr (items : List ExprPhrase) : ExprPhrase :=
  let inner := match items with
    | [e] => e.layout false ++ [.text ",", .gap .zero]
    | items => separated .lastComma (items.map fun e => e.layout false)
  { layout := fun _ => [.text "("] ++ nested (outdented (.gap .zero :: inner)) ++ [.text ")"]
    arm := if items.isEmpty then some fun _ => [.text "\x7b", .gap .closed, .text "\x7d"] else none
    isBlockLike := true
    isInline := true
    isStatement := true }

/-- Values in square brackets. -/
def arrayExpr (items : List ExprPhrase) : ExprPhrase :=
  let docs := items.map fun e => e.layout false
  let doc :=
    if items.isEmpty then [Doc.text "[]"]
    else if items.all (·.isSmall) then
      nested ([.text "[", .gap .zero]
        ++ aligned ((docs.take (docs.length - 1)).flatMap (· ++ [.text ",", .gap .space]) ++ docs.getLast?.getD [])
        ++ [.gap (Gap.lastComma.shifted (-indent)), .text "]"])
    else listed "[" "]" docs
  { layout := fun _ => doc, isBlockLike := true, isInline := true, isStatement := true }

/-- A value in square brackets that is repeated. -/
def repeatExpr (e length : ExprPhrase) : ExprPhrase :=
  { layout := fun _ => [.text "["] ++ e.layout false ++ [.text "; "] ++ length.layout false ++ [.text "]"]
    isStatement := true }

/-- The bytes that a record may take on one line. -/
def recordWidth : Nat := 34

/-- A record in braces: one wider than a limit breaks, with all that it is in. -/
def recordExpr (path : PathPhrase) (fields : List (List Doc)) (rest : Option (List Doc)) : ExprPhrase :=
  let items := outdented (.gap .space :: spacedItems fields rest)
  let content := path.doc ++ [.text " \x7b"] ++ items
  let doc :=
    if recordWidth < lengthOf content then box indent true (content ++ [.endless])
    else nested (path.doc ++ [.text " \x7b"] ++ if fields.isEmpty && rest.isNone then [] else items)
  { layout := fun _ => doc ++ [.text "\x7d"]
    isBlockLike := true
    isInline := true
    isStatement := true
    endsInBrace := true }

/-- What an arm shows for an expression: the expression, in brackets where it does not fit behind the arrow. -/
def ExprPhrase.armDoc (e : ExprPhrase) : List Doc :=
  match e.arm with
  | some arm => arm ()
  | none =>
    let opening := if e.isStatement then "\x7b" else "("
    let semicolon := if e.isStatement && e.takesSemicolon then ";" else ""
    let closing := if e.isStatement then "\x7d" else "),"
    let last : Gap := ⟨0, -indent, semicolon, closing, if e.isComplete then "" else ",", false⟩
    [.gap .closed] ++ nested ([.gap { Gap.zero with ending := opening }] ++ e.layout true ++ [.gap last])

/-- What an arm shows for a block: the only expression in it, else its lines. -/
def BlockPhrase.armDoc (label : String) (b : BlockPhrase) : List Doc :=
  let lines := [Doc.text (label ++ "\x7b"), .gap .closed] ++ nested (body .hard b.lines) ++ [.text "\x7d"]
  match b.statements with
  | [⟨_, some e, _⟩] => if label == "" && b.attributes.isEmpty then e.armDoc else lines
  | _ => lines

/-- A block behind some words, which complete a statement or not. -/
def blockExpr (head : String) (b : BlockPhrase) (isComplete isBlockLike : Bool) : ExprPhrase :=
  { layout := fun _ => [.text head] ++ blockDoc b
    isComplete := isComplete
    isBlockLike := isBlockLike
    isInline := isBlockLike
    isStatement := true
    endsInBrace := true }

/-- A block by itself, with its label. -/
def plainBlockExpr (label : String) (b : BlockPhrase) : ExprPhrase :=
  { blockExpr label b true true with arm := some fun _ => b.armDoc label }

/-- A condition or another expression in front of a block. -/
def headCondition (e : ExprPhrase) : List Doc :=
  box 0 true (e.layout false ++ [if e.needsLine then .gap .space else .text " "])

/-- The head of a case, up to its block. -/
def caseHead (condition : ExprPhrase) : List Doc := [.text "if "] ++ box (-indent) true (headCondition condition)

/-- Cases with a block each, and a block for all others. -/
def casesDoc (otherwise : Option BlockPhrase) : List (ExprPhrase × BlockPhrase) → List Doc
  | [] => otherwise.elim [] (·.small)
  | (condition, b) :: rest =>
    caseHead condition ++ b.small ++ (if rest.isEmpty && otherwise.isNone then [] else [.text " else "])
      ++ casesDoc otherwise rest

/-- The layout of a choice by conditions. A single case has a line for each statement. -/
def choiceDoc (cases : List (ExprPhrase × BlockPhrase)) (otherwise : Option BlockPhrase) : List Doc :=
  match cases, otherwise with
  | [(condition, b)], none =>
    caseHead condition ++ if b.statements.isEmpty then [.text "\x7b\x7d"]
      else [.text "\x7b"] ++ outdented (.gap .hard :: statementLines b.statements) ++ [.text "\x7d"]
  | cases, otherwise => casesDoc otherwise cases

/-- A choice by conditions. -/
def choiceExpr (cases : List (ExprPhrase × BlockPhrase)) (otherwise : Option BlockPhrase) : ExprPhrase :=
  { layout := fun _ => nested (choiceDoc cases otherwise)
    isComplete := true
    isStatement := true
    endsInBrace := true
    dropsSemicolon := otherwise.isNone }

/-- A choice by patterns. -/
def matchExpr (e : ExprPhrase) (attributes : List Doc) (arms : List (List Doc)) : ExprPhrase :=
  { layout := fun _ => aligned ([.text "match "] ++ headCondition e ++ [.text "\x7b", .gap .closed]
      ++ nested (body .hard (attributes ++ arms.flatMap (· ++ [.gap .hard]))) ++ [.text "\x7d"])
    isComplete := true
    isInline := true
    isStatement := true
    endsInBrace := true }

/-- A closure with an expression as its result. -/
def closureDoc (head : List Doc) (inputs : List (List Doc)) (result : ExprPhrase) : List Doc :=
  let docs := (inputs.take (inputs.length - 1)).flatMap (· ++ [.text ",", .gap .space]) ++ inputs.getLast?.getD []
  let parameters := nested ([.text "|"] ++ (if inputs.isEmpty then [] else [.gap .zero]) ++ docs
    ++ [.text "|", .gap (Gap.space.shifted (-indent))])
  let opening := if result.isStatement then "\x7b" else "("
  let semicolon := if result.isStatement && result.takesSemicolon then ";" else ""
  let closing := if result.isStatement then "\x7d" else ")"
  let content :=
    if result.isInline then result.layout false
    else nested ([.gap { Gap.zero with ending := opening }] ++ result.layout false
      ++ [.gap ⟨0, -indent, semicolon, closing, "", false⟩])
  aligned (head ++ parameters ++ [.gap .closed] ++ content)

/-- A closure with a type and a block as its result. -/
def typedClosureDoc (head : List Doc) (inputs : List (List Doc)) (type : TypePhrase) (b : BlockPhrase) : List Doc :=
  let docs := (inputs.take (inputs.length - 1)).flatMap (· ++ [.text ",", .gap .space]) ++ inputs.getLast?.getD []
  let parameters := nested ([.text "|"]
    ++ (if inputs.isEmpty then [] else [.gap .zero] ++ docs ++ [.gap (Gap.lastComma.shifted (-indent))]) ++ [.text "|"])
  aligned (head ++ parameters ++ [.text " -> "] ++ type.doc ++ [.text " ", .gap .closed] ++ blockDoc b)

end ContractBindings.Items
