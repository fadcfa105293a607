import ContractBindings.Items.Basic
import ContractBindings.Items.Token.Reader
import ContractBindings.Number.Notation
import ContractBindings.Unit.Basic

/-!
# The spelling of items

The tokens of items. A name of the model stands in them as its own tokens, whatever these are: blanks and comments in it
are dropped, and a name that has no tokens has no place in an item. Whether the tokens form items is for their reader to
say.
-/

namespace ContractBindings.Items

/-- The tokens of a text without names of the model. -/
def spelled (text : String) : List Tree := (trees? text).getD []

/-- The tokens of a name or a type of the model. -/
def nameTrees (text : String) : Except UnitError (List Tree) := (trees? text).elim (.error .invalidToken) .ok

/-- The token of a text. -/
def textTree (text : String) : Tree := .literal (Text.literal text)

/-- Tokens in brackets. -/
def inBrackets (bracket : Bracket) (content : List Tree) : List Tree := [.group bracket content]

/-- Tokens with commas between them. -/
def withCommas : List (List Tree) → List Tree
  | [] => []
  | [item] => item
  | item :: rest => item ++ [.mark ',' false] ++ withCommas rest

/-! ## Attributes -/

/-- The tokens of a setting. -/
def Setting.trees : Setting → List Tree
  | .flag name => [.word name]
  | .value name text => [.word name, .mark '=' false, textTree text]

/-- The tokens inside an attribute. -/
def Attribute.content : Attribute → List Tree
  | .doc text => [.word "doc", .mark '=' false, textTree text]
  | .derive traits => .word "derive" :: inBrackets .round (withCommas (traits.map spelled))
  | .serde settings => .word "serde" :: inBrackets .round (withCommas (settings.map Setting.trees))
  | .deprecated => [.word "deprecated"]

/-- The tokens of attributes. -/
def attributeTokens (attributes : List Attribute) : List Tree :=
  attributes.flatMap fun a => .mark '#' false :: inBrackets .square a.content

/-! ## Fields, variants and constants -/

/-- The tokens of a field. -/
def FieldItem.trees (f : FieldItem) : Except UnitError (List Tree) := do
  let ident ← nameTrees f.ident
  let type ← nameTrees f.type.text
  return attributeTokens f.attributes ++ spelled "pub" ++ ident ++ spelled ":" ++ type

/-- The tokens of a variant. -/
def VariantItem.trees (v : VariantItem) : Except UnitError (List Tree) := do
  let ident ← nameTrees v.ident
  let payload ← match v.payload with
    | some type => inBrackets .round <$> nameTrees type.text
    | none => pure []
  return attributeTokens v.attributes ++ ident ++ payload

/-- The tokens of a number, whose sign is a mark. -/
def numberTrees (text : String) : List Tree :=
  match text.toList with
  | '-' :: digits => [.mark '-' false, .literal (String.ofList digits)]
  | _ => [.literal text]

/-- The tokens of a constant; there are none of an infinite number. -/
def constantTrees : Literal → Except UnitError (List Tree)
  | .string s => .ok [textTree s]
  | .integer i => .ok (numberTrees (toString i))
  | .number x => if x.isFinite then .ok (numberTrees x.pointed) else .error (.notFinite (.number x))
  | .boolean b => .ok [.word (toString b)]

/-! ## Items -/

/-- The tokens of an implementation. -/
def implTrees (head name members : List Tree) : List Tree := head ++ name ++ inBrackets .curly members

/-- The tokens of a function whose result is a choice among the cases of the value. -/
def choiceFunction (signature : String) (cases : List (List Tree)) : List Tree :=
  spelled signature ++ inBrackets .curly (spelled "match self" ++ inBrackets .curly (withCommas cases))

/-- The tokens of a case of the text of an enumeration. -/
def displayCase (ident : List Tree) (text : String) : List Tree :=
  spelled "Self::" ++ ident ++ spelled "=> f.write_str" ++ inBrackets .round [textTree text]

/-- The tokens of the constants of a wrapper, and of the list of them all. -/
def constantMembers (idents values : List (List Tree)) : List Tree :=
  (idents.zip values).flatMap (fun (ident, value) =>
      spelled "pub const" ++ ident ++ spelled ": Self = Self" ++ inBrackets .round value ++ spelled ";")
    ++ attributeTokens [.doc " Every declared value, in declaration order"]
    ++ spelled ("pub const ALL: [Self; " ++ toString idents.length ++ "] =")
    ++ inBrackets .square (withCommas (idents.map (spelled "Self::" ++ ·))) ++ spelled ";"

/-- The tokens of a case of the status of a response. -/
def StatusCase.trees (name : List Tree) (c : StatusCase) : Except UnitError (List Tree) := do
  let variant ← nameTrees c.variant
  let code := c.code.elim "None" fun code => "Some(" ++ toString code ++ "u16)"
  return name ++ spelled "::" ++ variant ++ (if c.hasPayload then spelled "(..)" else []) ++ spelled ("=> " ++ code)

/-- The tokens of an item. -/
def Item.trees : Item → Except UnitError (List Tree)
  | .record attributes name fields => do
    let name ← nameTrees name
    let fields ← fields.mapM FieldItem.trees
    return attributeTokens attributes ++ spelled "pub struct" ++ name ++ inBrackets .curly (withCommas fields)
  | .wrapper attributes name type => do
    let name ← nameTrees name
    let type ← nameTrees type.text
    return attributeTokens attributes ++ spelled "pub struct" ++ name ++ inBrackets .round (spelled "pub" ++ type)
      ++ spelled ";"
  | .enumeration attributes name variants => do
    let name ← nameTrees name
    let variants ← variants.mapM VariantItem.trees
    return attributeTokens attributes ++ spelled "pub enum" ++ name ++ inBrackets .curly (withCommas variants)
  | .display name texts => do
    let name ← nameTrees name
    let cases ← texts.mapM fun (ident, text) => return displayCase (← nameTrees ident) text
    return implTrees (spelled "impl std::fmt::Display for") name
      (choiceFunction "fn fmt(&self, f: &mut std::fmt::Formatter<'_>) -> std::fmt::Result" cases)
  | .constants name values => do
    let name ← nameTrees name
    let idents ← values.mapM fun (ident, _) => nameTrees ident
    let constants ← values.mapM fun (_, value) => constantTrees value
    return implTrees (spelled "impl") name (constantMembers idents constants)
  | .route name method path => do
    return implTrees (spelled "impl") (← nameTrees name)
      (spelled "pub const METHOD: &'static str =" ++ [textTree method] ++ spelled ";"
        ++ spelled "pub const PATH: &'static str =" ++ [textTree path] ++ spelled ";")
  | .status name cases => do
    let name ← nameTrees name
    let cases ← cases.mapM (StatusCase.trees name)
    return implTrees (spelled "impl") name
      (attributeTokens [.doc " The exact status code, `None` for ranges and the default response"]
        ++ choiceFunction "pub fn status(&self) -> Option<u16>" cases)
  | .handler name deprecated method request response answers => do
    let name ← nameTrees name
    let method ← nameTrees method
    let request ← nameTrees request
    let response ← nameTrees response
    return spelled "pub trait" ++ name
      ++ inBrackets .curly
        (attributeTokens (if deprecated then [.deprecated] else []) ++ spelled "fn" ++ method
          ++ inBrackets .round (spelled "&self, params:" ++ request)
          ++ (if answers then spelled "->" ++ response else []) ++ spelled ";")

end ContractBindings.Items
