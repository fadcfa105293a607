import ContractBindings.Document.Tree
import ContractBindings.Number.Reading
import ContractBindings.Yaml.Token

/-!
# Values of scalars

What a scalar's text stands for. Without quotes and tag: null, a truth value, an integer in one of four radixes, a
floating-point number, else text. Digits after a superfluous zero are text. An integer beyond 64 bits that fits in 128
has no value; a larger one is read as a floating-point number.
-/

namespace ContractBindings.Yaml

open Number

/-- A scalar has no value. -/
inductive ScalarError where
  | valueless
  deriving Repr, DecidableEq

/-- The spellings of null. -/
def isNullText (s : String) : Bool := s == "null" || s == "Null" || s == "NULL" || s == "~"

/-- The spellings of truth values. -/
def boolText? (s : String) : Option Bool :=
  if s == "true" || s == "True" || s == "TRUE" then some true
  else if s == "false" || s == "False" || s == "FALSE" then some false
  else none

/-- Digits that are no number, because a superfluous zero leads them. -/
def isZeroLed (cs : List Char) : Bool :=
  let digits := match cs with
    | '-' :: rest | '+' :: rest => rest
    | _ => cs
  match digits with
  | '0' :: rest => !rest.isEmpty && rest.all Char.isDigit
  | _ => false

/-- The radix and the numeral of an integer without a sign. -/
def radixSplit : List Char → Nat × List Char
  | '0' :: 'x' :: rest => (16, rest)
  | '0' :: 'o' :: rest => (8, rest)
  | '0' :: 'b' :: rest => (2, rest)
  | cs => (10, cs)

/-- The integer that a text without quotes is, of any size. -/
def integer? (s : String) : Option Int :=
  let cs := s.toList
  if isZeroLed cs then none
  else
    match cs with
    | '-' :: rest =>
      let (radix, numeral) := radixSplit rest
      (numeral? radix numeral).map fun n => -(n : Int)
    | _ =>
      let (radix, numeral) := radixSplit (match cs with
        | '+' :: rest => rest
        | _ => cs)
      (numeral? radix numeral).map fun n => (n : Int)

/-- The value of an integer: one within 64 bits is itself, one within 128 bits has none, a larger one is no integer. -/
def integerValue? (i : Int) : Except ScalarError (Option Tree) :=
  if -Int.pow 2 63 ≤ i && i < Int.pow 2 64 then .ok (some (.int i))
  else if -Int.pow 2 127 ≤ i && i < Int.pow 2 128 then .error .valueless
  else .ok none

/-- The floating-point number that a text without quotes is. -/
def floatText? (s : String) : Option Binary64 :=
  let unsigned := match s.toList with
    | '+' :: rest => String.ofList rest
    | _ => s
  let doubled := match s.toList with
    | '+' :: '+' :: _ | '+' :: '-' :: _ => true
    | _ => false
  if doubled then none
  else if unsigned == ".inf" || unsigned == ".Inf" || unsigned == ".INF" then some (.infinite false)
  else if s == "-.inf" || s == "-.Inf" || s == "-.INF" then some (.infinite true)
  else if s == ".nan" || s == ".NaN" || s == ".NAN" then some .notANumber
  else (decimal? unsigned).filter Binary64.isFinite

/-- The value of a text without quotes and tag. -/
def plainValue (s : String) : Except ScalarError Tree := do
  if s == "" || isNullText s then return .null
  match boolText? s with
  | some b => return .bool b
  | none =>
    match ← (integer? s).elim (.ok none) integerValue? with
    | some tree => return tree
    | none =>
      if isZeroLed s.toList then return .text s
      else return (floatText? s).elim (.text s) .float

/-- The value of a text under one of the tags that YAML itself defines; any other tag makes it text. -/
def taggedValue (tag s : String) : Except ScalarError Tree :=
  if tag == "tag:yaml.org,2002:bool" then (boolText? s).elim (.error .valueless) fun b => .ok (.bool b)
  else if tag == "tag:yaml.org,2002:int" then do
    match ← (integer? s).elim (.ok none) integerValue? with
    | some tree => return tree
    | none => .error .valueless
  else if tag == "tag:yaml.org,2002:float" then (floatText? s).elim (.error .valueless) fun x => .ok (.float x)
  else if tag == "tag:yaml.org,2002:null" then if isNullText s then .ok .null else .error .valueless
  else .ok (.text s)

/-- The value of a scalar with a tag that is not local, or none. -/
def scalarValue (tag : Option String) (style : ScalarStyle) (s : String) : Except ScalarError Tree :=
  match tag with
  | some tag => taggedValue tag s
  | none => if style == .plain then plainValue s else .ok (.text s)

end ContractBindings.Yaml
