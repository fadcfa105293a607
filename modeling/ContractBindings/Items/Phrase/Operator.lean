import ContractBindings.Items.Phrase.Expression

/-!
# Operators

Operators between operands, by their binding strength: the tokens after an operand are taken as long as they bind at
least as strongly as what stands in front of it.
-/

namespace ContractBindings.Items

open Layout

/-- The binary operators, longer ones in front of those they begin with. -/
def binaryOperators : List (String × Precedence) :=
  [("+=", .assign), ("-=", .assign), ("*=", .assign), ("/=", .assign), ("%=", .assign), ("^=", .assign),
   ("&=", .assign), ("|=", .assign), ("<<=", .assign), (">>=", .assign), ("&&", .and), ("||", .or), ("<<", .shift),
   (">>", .shift), ("==", .compare), ("<=", .compare), ("!=", .compare), (">=", .compare), ("+", .sum), ("-", .sum),
   ("*", .product), ("/", .product), ("%", .product), ("^", .bitXor), ("&", .bitAnd), ("|", .bitOr), ("<", .compare),
   (">", .compare)]

/-- The binary operator at the start. -/
def binaryOperator? (trees : List Tree) : Option (String × Precedence) :=
  binaryOperators.find? fun (text, _) => atMark text trees

/-- The binding strength of what follows an operand. -/
def nextPrecedence (trees : List Tree) : Precedence :=
  match binaryOperator? trees with
  | some (_, precedence) => precedence
  | none =>
    if atMarkBut "=" ["=>"] trees then .assign
    else if atMark ".." trees then .range
    else if atWord "as" trees then .cast
    else .any

/-- The operators after a right operand that bind more strongly than the one in front of it. -/
def rightOperandFrom (r : Readers) (structs : Bool) (precedence : Precedence) : Nat → ExprPhrase → Reader ExprPhrase
  | 0, right => pure right
  | fuel + 1, right => do
    let before ← get
    let next := nextPrecedence before
    if precedence.rank < next.rank || (next = precedence && precedence = .assign) then
      let right ← r.operations right structs next
      if (← get).length == before.length then return right else rightOperandFrom r structs precedence fuel right
    else return right

/-- The right operand of an operator. -/
def rightOperand (r : Readers) (structs : Bool) (precedence : Precedence) : Reader ExprPhrase := do
  let right ← r.operand [] structs
  rightOperandFrom r structs precedence (← get).length right

/-- The marks that no upper end of a range begins with. -/
def rangeEndings : List String :=
  [",", ";", "?", "=>", "=", "+", "/", "%", "^", ">", "<=", "!=", "-=", "*=", "&=", "|=", "<<="]

/-- The upper end of a range, which may be missing behind two points. -/
def upperEnd (r : Readers) (structs : Bool) (limits : RangeLimits) : Reader (Option ExprPhrase) := do
  let trees ← get
  if limits = .halfOpen
      && (trees.isEmpty || atMarkBut "." [".."] trees || (!structs && atGroup .curly trees) || atWord "as" trees
        || rangeEndings.any (atMark · trees)) then
    return none
  else return some (← rightOperand r structs .range)

/-- What may not follow the type of a cast. -/
def endsCast (trees : List Tree) : Bool :=
  !(atMarkBut "." [".."] trees || atMark "?" trees || atGroup .square trees || atGroup .round trees)

/-- The operators after an operand that bind at least as strongly as given. -/
def operationsFrom (r : Readers) (structs : Bool) (base : Precedence) : Nat → ExprPhrase → Reader ExprPhrase
  | 0, left => pure left
  | fuel + 1, left => do
    let trees ← get
    if left.isRange then return left
    match binaryOperator? trees with
    | some (text, precedence) =>
      if precedence.rank < base.rank then return left
      Reader.ensure (!(precedence = .compare && left.isComparison))
      Reader.skip text.length
      let right ← rightOperand r structs precedence
      operationsFrom r structs base fuel (binaryExpr left text precedence right)
    | none =>
      if base.rank ≤ Precedence.assign.rank && atMarkBut "=" ["=>"] trees then
        Reader.skip 1
        let right ← rightOperand r structs .assign
        operationsFrom r structs base fuel (assignExpr left right)
      else if base.rank ≤ Precedence.range.rank && atMark ".." trees then
        let limits ← rangeLimits
        let upper ← upperEnd r structs limits
        operationsFrom r structs base fuel (rangeExpr (some left) limits upper)
      else if atWord "as" trees then
        Reader.skip 1
        let type ← r.type false
        Reader.ensure (endsCast (← get))
        operationsFrom r structs base fuel (castExpr left type)
      else return left

/-- The operators after an operand. -/
def readOperations (r : Readers) (left : ExprPhrase) (structs : Bool) (base : Precedence) : Reader ExprPhrase := do
  operationsFrom r structs base ((← get).length + 1) left

end ContractBindings.Items
