import ContractBindings.Number.Notation

/-!
# Templates

A template is literal text with values, conditions and assignments between it. Its expressions are made of operands
with filters, comparisons, negations and the connectives `and` and `or`.
-/

namespace ContractBindings.Template

open Number (Binary64)

/-- A value of an expression. -/
inductive Value where
  | text (text : String)
  | integer (value : Int)
  | number (value : Binary64)
  | boolean (value : Bool)
  deriving Repr, Inhabited

namespace Value

/-- The text that a value is rendered to. -/
def rendered : Value → String
  | text s => s
  | integer i => toString i
  | number x => x.plain
  | boolean b => toString b

/-- A value holds as a condition unless it is empty, zero or false. -/
def isTruthy : Value → Bool
  | text s => s != ""
  | integer i => i != 0
  | number x => !x.sameNumber (.finite false 0 0)
  | boolean b => b

/-- The number that a value is. -/
def number? : Value → Option Binary64
  | integer i => some (Binary64.ofInt i)
  | number x => some x
  | _ => none

/-- Two values that are no numbers are the same. -/
def same : Value → Value → Bool
  | text a, text b => a == b
  | boolean a, boolean b => a == b
  | _, _ => false

end Value

/-- A part of a join. -/
inductive Part where
  /-- A variable, or a member of one: `name`, `name.member`, `name[0]`. -/
  | variable (path : String)
  | constant (value : Value)
  deriving Repr, Inhabited

/-- What stands between two expressions. -/
inductive Connective where
  | and
  | or
  | equal
  | different
  deriving Repr, DecidableEq, Inhabited

mutual

/-- An expression: an operand with its filters, possibly negated. -/
inductive Expr where
  | mk (negated : Bool) (operand : Operand) (filters : List Filter)

/-- What filters apply to. -/
inductive Operand where
  | variable (path : String)
  | constant (value : Value)
  /-- The texts of parts one after the other, one of which is no text by itself. -/
  | joined (parts : List Part)
  | combined (left : Expr) (connective : Connective) (right : Expr)

/-- A filter with its arguments by name. -/
inductive Filter where
  | mk (name : String) (arguments : List (String × Expr))

end

deriving instance Repr for Expr, Operand, Filter

instance : Inhabited Expr := ⟨.mk false (.constant default) []⟩

/-- The operand is a variable alone. -/
def Operand.isVariable : Operand → Bool
  | .variable _ => true
  | _ => false

/-- A piece of a template. -/
inductive Piece where
  | text (text : String)
  | value (e : Expr)
  | assign (name : String) (e : Expr)
  /-- The pieces under the first condition that holds, else the last pieces. -/
  | choice (cases : List (Expr × List Piece)) (otherwise : List Piece)
  deriving Inhabited

/-- Why a template has no rendering. -/
inductive Fault where
  /-- A variable that is used has no value. -/
  | undefined (path : String)
  /-- The template is no template, or it asks for what does not exist. -/
  | malformed
  deriving Repr, DecidableEq

end ContractBindings.Template
