import ContractBindings.Template.Reader
import ContractBindings.Text.CaseMapping

/-!
# Rendering templates

A template is rendered once, with values for its variables: values are never read as templates. A variable without
value is a fault, except that a condition which is a variable alone does not hold, that the negation of such a variable
does, and that the filter `default` in front of all others gives another value.
-/

namespace ContractBindings.Template

/-- The values of variables; a later assignment stands in front. -/
abbrev Scope := List (String × Value)

/-- The indexes in the brackets of a path, without texts in quotes and without counts. -/
def indexesOf : Nat → List Char → List (List Char)
  | 0, _ => []
  | fuel + 1, cs =>
    match cs with
    | '[' :: c :: rest =>
      if c == '"' || c == '\'' then indexesOf fuel rest
      else
        let (index, rest) := enclosed 0 (c :: rest)
        if (Number.unsigned? index).any (· < Nat.pow 2 64) then indexesOf fuel rest else index :: indexesOf fuel rest
    | _ :: rest => indexesOf fuel rest
    | [] => []
where
  /-- The text up to the bracket that closes one opened before it. -/
  enclosed : Nat → List Char → List Char × List Char
    | _, [] => ([], [])
    | 0, ']' :: rest => ([], rest)
    | depth, c :: rest =>
      let depth := if c == ']' then depth - 1 else if c == '[' then depth + 1 else depth
      let (text, rest) := enclosed depth rest
      (c :: text, rest)

namespace Scope

/-- The value of a variable. -/
def value? (scope : Scope) (path : String) : Option Value := if path.contains '.' then none else scope.lookup path

/-- The value of a path. Texts and numbers have no members, but an index that is a variable must have a value of
these kinds. -/
def value (scope : Scope) (path : String) : Except Fault Value :=
  if path.contains '[' then
    let isIndex (index : List Char) : Bool :=
      match scope.value? (String.ofList index) with
      | some (.boolean _) => false
      | some _ => true
      | none => false
    if (indexesOf path.length path.toList).all isIndex then .error (.undefined path) else .error .malformed
  else (scope.value? path).elim (.error (.undefined path)) .ok

end Scope

/-- The filters that leave a value as it is. -/
def neutralFilters : List String := ["default", "safe"]

/-- The filters that change a value. -/
def changingFilters : List String := ["upper", "lower", "length"]

/-- Applies a filter that changes the value. -/
def applyFilter (name : String) (value : Value) : Except Fault Value :=
  match name, value with
  | "upper", .text s => .ok (.text (Text.upper s))
  | "lower", .text s => .ok (.text (Text.lower s))
  | "length", .text s => .ok (.integer s.length)
  | _, _ => .error .malformed

/-- The text of a part of a join. -/
def Part.text (scope : Scope) : Part → Except Fault String
  | .constant value => .ok value.rendered
  | .variable path => do
    match ← scope.value path with
    | .boolean _ => .error .malformed
    | .number x => return x.variableText
    | value => return value.rendered

/-- The joined texts of parts. -/
def joinedText (scope : Scope) : List Part → Except Fault String
  | [] => .ok ""
  | part :: rest => do
    let text ← part.text scope
    return text ++ (← joinedText scope rest)

/-- Two values are equal, where they can be compared: a number is neither equal to nor different from what is none. -/
def equality? (left right : Value) : Option Bool :=
  match left.number?, right.number? with
  | some x, some y => some (x.sameNumber y)
  | none, none => some (left.same right)
  | _, _ => none

/-- What a comparison gives of values and whether it is equality; where values cannot be compared, a negation does not
hold either. -/
def compared (negated asked : Bool) (left right : Value) : Bool :=
  match equality? left right with
  | some equal => (equal == asked) != negated
  | none => false

/-- A value, negated if the flag is set. -/
def negatedIf (negated : Bool) (value : Value) : Value := if negated then .boolean (!value.isTruthy) else value

/-- What an expression stands for, from what is found for its operand: a variable without value has the value that a
filter gives in its stead, and its negation holds at once. Filters come before the negation. -/
def settled (negated : Bool) (found : Except Fault Value) (standIn : Option (Except Fault Value))
    (isVariable : Bool) (filtered : Value → Except Fault Value) : Except Fault Value :=
  match found with
  | .ok value => negatedIf negated <$> filtered value
  | .error fault =>
    match standIn with
    | some value => do return negatedIf negated (← filtered (← value))
    | none => if negated && isVariable then .ok (.boolean true) else .error fault

mutual

/-- The value of an expression. -/
def Expr.value (scope : Scope) : Expr → Except Fault Value
  | .mk negated operand filters =>
    settled negated (operand.value scope negated) (if operand.isVariable then Filter.standIn scope filters else none)
      operand.isVariable fun value => Filter.applyAll scope value filters

/-- The expression holds as a condition. A variable that has no value does not, its negation does; where a filter does
not apply to its value, neither holds. Filters of constants do not count. The negation of a join is that of a value that
is negated already. -/
def Expr.holds (scope : Scope) : Expr → Except Fault Bool
  | .mk negated operand filters =>
    let value := settled negated (operand.value scope negated)
      (if operand.isVariable then Filter.standIn scope filters else none)
      operand.isVariable fun value => Filter.applyAll scope value filters
    match operand with
    | .variable _ => .ok (match value with
      | .ok value => value.isTruthy
      | .error _ => false)
    | .constant value => .ok (value.isTruthy != negated)
    | .joined _ => do return (← value).isTruthy != negated
    | .combined .. => do return (← operand.value scope negated).isTruthy

/-- The value of an operand; that of combined expressions takes the negation in. -/
def Operand.value (scope : Scope) (negated : Bool) : Operand → Except Fault Value
  | .variable path => scope.value path
  | .constant value => .ok value
  | .joined parts => .text <$> joinedText scope parts
  | .combined left .and right => do
    let holds ← if ← left.holds scope then right.holds scope else pure false
    return .boolean (holds != negated)
  | .combined left .or right => do
    let holds ← if ← left.holds scope then pure true else right.holds scope
    return .boolean (holds != negated)
  | .combined left .equal right => do
    return .boolean (compared negated true (← left.value scope) (← right.value scope))
  | .combined left .different right => do
    return .boolean (compared negated false (← left.value scope) (← right.value scope))

/-- Applies filters in order. A filter that is known has arguments with values. -/
def Filter.applyAll (scope : Scope) (value : Value) : List Filter → Except Fault Value
  | [] => .ok value
  | .mk name arguments :: rest => do
    if neutralFilters.contains name then Filter.applyAll scope value rest
    else if changingFilters.contains name then
      Filter.check scope arguments
      Filter.applyAll scope (← applyFilter name value) rest
    else .error .malformed

/-- The arguments of a filter have values. -/
def Filter.check (scope : Scope) : List (String × Expr) → Except Fault Unit
  | [] => .ok ()
  | (_, e) :: rest => do
    let _ ← e.value scope
    Filter.check scope rest

/-- The value that a `default` filter in front of all others gives. -/
def Filter.standIn (scope : Scope) : List Filter → Option (Except Fault Value)
  | [] => none
  | .mk name arguments :: _ =>
    if name == "default" then some ((Filter.argument? scope "value" arguments).getD (.error .malformed)) else none

/-- The value of the argument with a name; of several the last one counts. -/
def Filter.argument? (scope : Scope) (name : String) : List (String × Expr) → Option (Except Fault Value)
  | [] => none
  | (key, e) :: rest =>
    (Filter.argument? scope name rest).orElse fun _ => if key == name then some (e.value scope) else none

end

mutual

/-- Renders a piece; an assignment changes the scope of what follows, also outside the condition it stands in. -/
def Piece.render (scope : Scope) : Piece → Except Fault (String × Scope)
  | .text written => .ok (written, scope)
  | .value e => do return ((← e.value scope).rendered, scope)
  | .assign name e => do return ("", (name, ← e.value scope) :: scope)
  | .choice cases otherwise => do
    match ← Piece.renderCases scope cases with
    | some found => return found
    | none => Piece.renderAll scope otherwise

/-- Renders pieces in order. -/
def Piece.renderAll (scope : Scope) : List Piece → Except Fault (String × Scope)
  | [] => .ok ("", scope)
  | piece :: rest => do
    let (written, scope) ← piece.render scope
    let (more, scope) ← Piece.renderAll scope rest
    return (written ++ more, scope)

/-- Renders the pieces under the first condition that holds. -/
def Piece.renderCases (scope : Scope) : List (Expr × List Piece) → Except Fault (Option (String × Scope))
  | [] => .ok none
  | (e, body) :: rest => do
    if ← e.holds scope then some <$> Piece.renderAll scope body else Piece.renderCases scope rest

end

/-- Renders a template text with texts for its variables. -/
def substitute (template : String) (values : List (String × String)) : Except Fault String :=
  match read? template with
  | none => .error .malformed
  | some pieces => (Piece.renderAll (values.map fun (name, value) => (name, .text value)) pieces).map (·.1)

end ContractBindings.Template
