import ContractBindings.Model.Basic
import ContractBindings.Schema.Composition
import ContractBindings.Text.Blank
import ContractBindings.Unit.Basic

/-!
# Units of messages

The files that a protobuf unit imports, found from the descriptors it uses, and the check of its text: a unit is accepted
if the braces outside comments are balanced and the version of the language is declared.
-/

namespace ContractBindings.Messages

/-! ## Imports -/

mutual

/-- The files of the well-known types that a descriptor uses. -/
def wellKnown : TypeDescriptor → List String
  | .mk kind _ => wellKnownOfKind kind

/-- The files of the well-known types used in what is described. -/
def wellKnownOfKind : TypeKind → List String
  | .list item => wellKnown item
  | .map value => wellKnown value
  | .scalar .dateTime => ["google/protobuf/timestamp.proto"]
  | .opaqueValue => ["google/protobuf/struct.proto"]
  | .unit => ["google/protobuf/empty.proto"]
  | _ => []

end

/-- The files that a unit imports, without repetition and in ascending order; the unit that declares `own` is not among
them. -/
def importedFiles (own : String) (used : List TypeDescriptor) : List String :=
  sortedNames (used.flatMap fun type =>
    wellKnown type ++ (type.names.filter (· != own)).map fun name => UnitKind.model.path name .protobuf)

/-- The text of imports. -/
def importText (files : List String) : String :=
  String.join (files.map fun file => "import \"" ++ file ++ "\";\n")

/-- The descriptors that a type uses. -/
def descriptorsOfType (t : TypeDef) : List TypeDescriptor :=
  match t.body with
  | .struct fields additional => (fields ++ additional.toList).map (·.type)
  | .composite parts => parts.map (·.type)
  | .union variants _ => variants.map (·.type)
  | .alias type => [type]
  | .fallback _ | .enumeration .. => []

/-- The descriptors that an operation uses. -/
def descriptorsOfOperation (o : OperationDef) : List TypeDescriptor :=
  o.params.map (·.type) ++ o.body.toList.map (·.type) ++ o.responses.map (·.type)

/-! ## Faults -/

/-- The characters in front of a comment. -/
def code : List Char → List Char
  | '/' :: '/' :: _ => []
  | c :: cs => c :: code cs
  | [] => []

/-- The number of open braces after a text, with `depth` open before. A closing brace needs an open one. -/
def openBraces (depth : Nat) : List Char → Option Nat
  | [] => some depth
  | '{' :: cs => openBraces (depth + 1) cs
  | '}' :: cs =>
    match depth with
    | depth + 1 => openBraces depth cs
    | 0 => none
  | _ :: cs => openBraces depth cs

/-- The text begins with another. -/
def beginsWith : List Char → List Char → Bool
  | [], _ => true
  | c :: cs, d :: ds => c == d && beginsWith cs ds
  | _ :: _, [] => false

/-- The text holds another. -/
def holds (part : List Char) : List Char → Bool
  | [] => part.isEmpty
  | c :: cs => beginsWith part (c :: cs) || holds part cs

/-- The fault of a unit's text. -/
def fault? (text : String) : Option SourceFault :=
  if openBraces 0 ((Text.lines text).flatMap fun line => code line.toList) != some 0 then some .unbalancedBraces
  else if !holds "syntax = \"proto3\";".toList text.toList then some .versionMissing
  else none

end ContractBindings.Messages
