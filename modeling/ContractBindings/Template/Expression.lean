import ContractBindings.Number.Reading
import ContractBindings.Template.Basic

/-!
# Reading expressions

The grammar of expressions as readers of characters: each takes what it reads off the start of a text and gives the
text after it, the first alternative that fits is taken, and no other is tried once it did. Blanks may stand between
the parts of an expression, but not inside names, paths and constants. `or` binds weaker than `and`, `and` weaker than
`not`, `not` weaker than one comparison. A word such as `true` or `not` is recognised wherever it begins, so that a
name which begins with the name of a truth value stands in joins only.
-/

namespace ContractBindings.Template

/-- The blanks between the parts of an expression. -/
def isGap (c : Char) : Bool := c == ' ' || c == '\t' || c == '\r' || c == '\n'

/-- The text without the blanks at its start. -/
def skipGap (cs : List Char) : List Char := cs.dropWhile isGap

/-- The text after a character that stands at its start, possibly behind blanks. -/
def afterMark (c : Char) (cs : List Char) : Option (List Char) :=
  match skipGap cs with
  | d :: rest => if c == d then some rest else none
  | [] => none

/-- The text after two equal or different characters that stand at its start, possibly behind blanks. -/
def afterPair (c d : Char) (cs : List Char) : Option (List Char) :=
  match skipGap cs with
  | a :: b :: rest => if a == c && b == d then some rest else none
  | _ => none

/-- The text after a word that stands at its start. -/
def afterWord : List Char → List Char → Option (List Char)
  | [], cs => some cs
  | c :: word, d :: cs => if c == d then afterWord word cs else none
  | _ :: _, [] => none

/-- The text after a word with a blank behind it. -/
def afterWordAndGap (word : List Char) (cs : List Char) : Option (List Char) :=
  match afterWord word cs with
  | some (c :: rest) => if isGap c then some rest else none
  | _ => none

/-! ## Names and constants -/

/-- A character of a name; a digit is none in front. -/
def isNameChar (c : Char) : Bool := c.isAlphanum || c == '_'

/-- A name. -/
def name? (cs : List Char) : Option (List Char × List Char) :=
  match cs with
  | [] => none
  | c :: _ =>
    if isNameChar c && !c.isDigit then some (cs.takeWhile isNameChar, cs.dropWhile isNameChar) else none

/-- Digits without a needless zero in front. -/
def digits? (cs : List Char) : Option (List Char × List Char) :=
  match cs with
  | '0' :: rest => some (['0'], rest)
  | c :: _ => if c.isDigit then some (cs.takeWhile Char.isDigit, cs.dropWhile Char.isDigit) else none
  | [] => none

/-- The minus sign at the start of a text, if it has one. -/
def sign (cs : List Char) : List Char × List Char :=
  match cs with
  | '-' :: rest => (['-'], rest)
  | _ => ([], cs)

/-- The characters of a whole number. -/
def integerText? (cs : List Char) : Option (List Char × List Char) :=
  (digits? (sign cs).2).map fun (digits, rest) => ((sign cs).1 ++ digits, rest)

/-- A whole number, which must not be too large. -/
def integer? (cs : List Char) : Option (Value × List Char) := do
  let (digits, rest) ← digits? (sign cs).2
  let magnitude : Int := Number.digitsValue digits
  let value := if (sign cs).1.isEmpty then magnitude else -magnitude
  if -Int.pow 2 63 ≤ value && value < Int.pow 2 63 then return (.integer value, rest) else none

/-- A number with a fraction. -/
def fraction? (cs : List Char) : Option (Value × List Char) := do
  let (text, rest) ← integerText? cs
  match rest with
  | '.' :: rest =>
    let fraction := rest.takeWhile Char.isDigit
    if fraction.isEmpty then none
    else return (.number (← Number.decimal? (String.ofList (text ++ '.' :: fraction))), rest.dropWhile Char.isDigit)
  | _ => none

/-- A text in one kind of quote, after the quote. -/
def quotedRest (quote : Char) : List Char → Option (List Char × List Char)
  | [] => none
  | c :: cs =>
    if c == quote then some ([], cs)
    else (quotedRest quote cs).map fun (text, rest) => (c :: text, rest)

/-- A text in quotes: it holds any character but its own quote. -/
def quoted? (cs : List Char) : Option (List Char × List Char) :=
  match cs with
  | c :: rest => if c == '"' || c == '\'' || c == '\x60' then quotedRest c rest else none
  | [] => none

/-- The characters of a text in quotes together with the quotes. -/
def quotedText? (cs : List Char) : Option (List Char × List Char) :=
  (quoted? cs).map fun (_, rest) => (cs.take (cs.length - rest.length), rest)

mutual

/-- The members after a name: points with names, and brackets with an index, a text or a path. -/
def members : Nat → List Char → List Char × List Char
  | 0, cs => ([], cs)
  | fuel + 1, cs =>
    match cs with
    | '.' :: rest =>
      let word := rest.takeWhile isNameChar
      if word.isEmpty then ([], cs)
      else
        let (more, rest) := members fuel (rest.dropWhile isNameChar)
        ('.' :: word ++ more, rest)
    | '[' :: rest =>
      match (integerText? rest).orElse fun _ => (quotedText? rest).orElse fun _ => pathFrom? fuel rest with
      | some (index, ']' :: rest) =>
        let (more, rest) := members fuel rest
        ('[' :: index ++ ']' :: more, rest)
      | _ => ([], cs)
    | _ => ([], cs)
  termination_by structural fuel => fuel

/-- A name with its members. -/
def pathFrom? : Nat → List Char → Option (List Char × List Char)
  | 0, _ => none
  | fuel + 1, cs => do
    let (name, rest) ← name? cs
    let (members, rest) := members fuel rest
    return (name ++ members, rest)
  termination_by structural fuel => fuel

end

/-- A path as it is written. -/
def path? (cs : List Char) : Option (String × List Char) :=
  (pathFrom? (2 * cs.length + 2) cs).map fun (path, rest) => (String.ofList path, rest)

/-- A truth value; a name may go on behind it. -/
def truthValue? (cs : List Char) : Option (Value × List Char) :=
  let read (word : String) (value : Bool) : Option (Value × List Char) :=
    (afterWord word.toList cs).map fun rest => (.boolean value, rest)
  (read "true" true).orElse fun _ => (read "false" false).orElse fun _ =>
    (read "True" true).orElse fun _ => read "False" false

/-! ## Joins -/

/-- A part of a join. -/
def part? (cs : List Char) : Option (Part × List Char) :=
  let constant (read : Option (Value × List Char)) : Option (Part × List Char) :=
    read.map fun (value, rest) => (.constant value, rest)
  (constant (fraction? cs)).orElse fun _ => (constant (integer? cs)).orElse fun _ =>
    (constant ((quoted? cs).map fun (text, rest) => (.text (String.ofList text), rest))).orElse fun _ =>
      (path? cs).map fun (path, rest) => (.variable path, rest)

/-- The parts joined to the first one. -/
def moreParts : Nat → List Char → List Part × List Char
  | 0, cs => ([], cs)
  | fuel + 1, cs =>
    match (afterMark '~' cs).bind fun rest => part? (skipGap rest) with
    | some (part, rest) =>
      let (more, rest) := moreParts fuel rest
      (part :: more, rest)
    | none => ([], cs)

/-- The text that parts are, if all of them are texts. -/
def wholeText? : List Part → Option String
  | [] => some ""
  | .constant (.text text) :: rest => (wholeText? rest).map (text ++ ·)
  | _ => none

/-- The join of parts; a join of texts is a text. -/
def Operand.join (parts : List Part) : Operand :=
  match wholeText? parts with
  | some text => .constant (.text text)
  | none => .joined parts

/-- At least two parts joined, or a text in quotes. -/
def textOperand? (cs : List Char) : Option (Operand × List Char) :=
  let alone : Option (Operand × List Char) :=
    (quoted? cs).map fun (text, rest) => (.constant (.text (String.ofList text)), rest)
  match part? cs with
  | some (first, rest) =>
    match moreParts rest.length rest with
    | ([], _) => alone
    | (more, rest) => some (.join (first :: more), rest)
  | none => alone

/-! ## Expressions -/

/-- A single value other than a text, possibly in parentheses. -/
def plainOperand? : Nat → List Char → Option (Operand × List Char)
  | 0, _ => none
  | fuel + 1, cs =>
    match cs with
    | '(' :: rest => do
      let (inner, rest) ← plainOperand? fuel (skipGap rest)
      return (inner, ← afterMark ')' rest)
    | _ =>
      let constant (read : Option (Value × List Char)) : Option (Operand × List Char) :=
        read.map fun (value, rest) => (.constant value, rest)
      (constant (truthValue? cs)).orElse fun _ =>
        ((path? cs).map fun (path, rest) => (.variable path, rest)).orElse fun _ =>
          (constant (fraction? cs)).orElse fun _ => constant (integer? cs)

/-- The comparison at the start of a text, possibly behind blanks. -/
def comparison? (cs : List Char) : Option (Connective × List Char) :=
  ((afterPair '=' '=' cs).map fun rest => (.equal, rest)).orElse fun _ =>
    (afterPair '!' '=' cs).map fun rest => (.different, rest)

mutual

/-- Alternatives. -/
def disjunction? : Nat → List Char → Option (Expr × List Char)
  | 0, _ => none
  | fuel + 1, cs => do
    let (left, rest) ← conjunction? fuel cs
    disjunctionFrom fuel left rest
  termination_by structural fuel => fuel

/-- The alternatives after an expression. -/
def disjunctionFrom : Nat → Expr → List Char → Option (Expr × List Char)
  | 0, _, _ => none
  | fuel + 1, left, cs =>
    match (afterWordAndGap ['o', 'r'] (skipGap cs)).bind fun rest => conjunction? fuel (skipGap rest) with
    | some (right, rest) => disjunctionFrom fuel (.mk false (.combined left .or right) []) rest
    | none => some (left, cs)
  termination_by structural fuel => fuel

/-- Expressions that hold together. -/
def conjunction? : Nat → List Char → Option (Expr × List Char)
  | 0, _ => none
  | fuel + 1, cs => do
    let (left, rest) ← condition? fuel cs
    conjunctionFrom fuel left rest
  termination_by structural fuel => fuel

/-- What must hold together with an expression. -/
def conjunctionFrom : Nat → Expr → List Char → Option (Expr × List Char)
  | 0, _, _ => none
  | fuel + 1, left, cs =>
    match (afterWordAndGap ['a', 'n', 'd'] (skipGap cs)).bind fun rest => condition? fuel (skipGap rest) with
    | some (right, rest) => conjunctionFrom fuel (.mk false (.combined left .and right) []) rest
    | none => some (left, cs)
  termination_by structural fuel => fuel

/-- A comparison or what stands for one, negated at most once, or an expression in parentheses. The parentheses take a
negation off that belongs to all that they hold. -/
def condition? : Nat → List Char → Option (Expr × List Char)
  | 0, _ => none
  | fuel + 1, cs =>
    let (negated, inner) := match afterWordAndGap ['n', 'o', 't'] cs with
      | some rest => (true, skipGap rest)
      | none => (false, cs)
    match comparisonOf? fuel inner with
    | some (.mk _ operand filters, rest) => some (.mk negated operand filters, rest)
    | none =>
      match cs with
      | '(' :: rest => do
        let (.mk _ operand filters, rest) ← disjunction? fuel (skipGap rest)
        return (.mk false operand filters, ← afterMark ')' rest)
      | _ => none
  termination_by structural fuel => fuel

/-- One comparison, or a single operand with its filters. -/
def comparisonOf? : Nat → List Char → Option (Expr × List Char)
  | 0, _ => none
  | fuel + 1, cs => do
    let (left, rest) ← filtered? fuel cs
    match comparison? rest with
    | some (connective, after) =>
      match filtered? fuel (skipGap after) with
      | some (right, rest) => return (.mk false (.combined left connective right) [], rest)
      | none => return (left, rest)
    | none => return (left, rest)
  termination_by structural fuel => fuel

/-- An operand with its filters. -/
def filtered? : Nat → List Char → Option (Expr × List Char)
  | 0, _ => none
  | fuel + 1, cs => do
    let (operand, rest) ← (textOperand? cs).orElse fun _ => plainOperand? (cs.length + 1) cs
    let (filters, rest) := filters fuel rest
    return (.mk false operand filters, rest)
  termination_by structural fuel => fuel

/-- The filters after an operand. -/
def filters : Nat → List Char → List Filter × List Char
  | 0, cs => ([], cs)
  | fuel + 1, cs =>
    match (afterMark '|' cs).bind fun rest => name? (skipGap rest) with
    | some (name, after) =>
      let (arguments, rest) := ((afterMark '(' after).bind fun rest => arguments? fuel (skipGap rest)).getD ([], after)
      let (more, rest) := filters fuel rest
      (.mk (String.ofList name) arguments :: more, rest)
    | none => ([], cs)
  termination_by structural fuel => fuel

/-- The arguments of a filter up to the closing parenthesis; a comma may follow the last. -/
def arguments? : Nat → List Char → Option (List (String × Expr) × List Char)
  | 0, _ => none
  | fuel + 1, cs =>
    match cs with
    | ')' :: rest => some ([], rest)
    | _ => moreArguments? fuel cs
  termination_by structural fuel => fuel

/-- At least one argument of a filter, up to the closing parenthesis. -/
def moreArguments? : Nat → List Char → Option (List (String × Expr) × List Char)
  | 0, _ => none
  | fuel + 1, cs => do
    let (name, rest) ← name? cs
    let (value, rest) ← disjunction? fuel (skipGap (← afterMark '=' rest))
    let argument := (String.ofList name, value)
    match skipGap rest with
    | ')' :: rest => return ([argument], rest)
    | ',' :: rest =>
      let (more, rest) ← arguments? fuel (skipGap rest)
      return (argument :: more, rest)
    | _ => none
  termination_by structural fuel => fuel

end

/-- The expression at the start of a text. Each character takes at most nine levels of the grammar. -/
def Expr.at? (cs : List Char) : Option (Expr × List Char) := disjunction? (9 * cs.length + 9) cs

end ContractBindings.Template
