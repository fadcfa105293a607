import ContractBindings.Model.Basic
import ContractBindings.Text.Blank

/-!
# Messages and services

The declarations that a protobuf unit is made of, and their text. A message numbers its fields from one; the value
`zero` of an enumeration stands for none of the others.
-/

namespace ContractBindings.Messages

/-- The type of a single value. -/
inductive ValueType where
  | scalar (name : String)
  | timestamp
  /-- Any value. -/
  | anything
  | empty
  /-- A type of another unit, or of the same. -/
  | declared (name : String)
  deriving Repr, DecidableEq, Inhabited

/-- The text of a type. -/
def ValueType.text : ValueType → String
  | .scalar name => name
  | .timestamp => "google.protobuf.Timestamp"
  | .anything => "google.protobuf.Value"
  | .empty => "google.protobuf.Empty"
  | .declared name => name

/-- How many values a field has. -/
inductive Multiplicity where
  | single
  | optional
  | repeated
  /-- One for each of several text keys. -/
  | keyed
  deriving Repr, DecidableEq, Inhabited

/-- A field of a message. -/
structure MessageField where
  multiplicity : Multiplicity
  type : ValueType
  ident : String
  number : Nat
  deriving Repr, DecidableEq, Inhabited

/-- The text of a field. -/
def MessageField.text (f : MessageField) : String :=
  (match f.multiplicity with
    | .single => f.type.text
    | .optional => "optional " ++ f.type.text
    | .repeated => "repeated " ++ f.type.text
    | .keyed => "map<string, " ++ f.type.text ++ ">")
  ++ " " ++ f.ident ++ " = " ++ toString f.number ++ ";"

/-- A member of a message. A comment is the text behind the slashes. -/
inductive Member where
  | remark (comment : String)
  | field (comments : List String) (content : MessageField)
  /-- Fields of which at most one is set, under a common name. -/
  | oneOf (name : String) (choices : List (Option String × MessageField))
  deriving Repr, Inhabited

/-- A comment line. -/
def commentText (comment : String) : String := "//" ++ comment

/-- The texts of a member, each of one or more lines. -/
def Member.texts : Member → List String
  | .remark comment => [commentText comment]
  | .field comments content => ["\n".intercalate (comments.map commentText ++ [content.text])]
  | .oneOf name choices =>
    ["oneof " ++ name ++ " \x7b"]
      ++ choices.map (fun (comment, choice) =>
        "\n".intercalate (comment.toList.map (fun c => "  " ++ commentText c) ++ ["  " ++ choice.text]))
      ++ ["\x7d"]

/-- A message. -/
structure Message where
  name : String
  members : List Member
  deriving Repr, Inhabited

/-- The lines of a text, indented and closed. -/
def indented (text : String) : String :=
  String.join ((Text.lines text).map fun line => "  " ++ line ++ "\n")

/-- The text of a message. -/
def Message.text (m : Message) : String :=
  "message " ++ m.name ++ " \x7b\n" ++ String.join ((m.members.flatMap Member.texts).map indented) ++ "\x7d\n"

/-- An enumeration: the name of its zero, and the names of its other values, numbered from one, with their comments. -/
structure Enumeration where
  name : String
  zero : String
  values : List (String × String)
  deriving Repr, Inhabited

/-- The text of values, numbered from one. -/
def valueTexts (number : Nat) : List (String × String) → String
  | [] => ""
  | (comment, name) :: rest =>
    "  " ++ commentText comment ++ "\n  " ++ name ++ " = " ++ toString number ++ ";\n" ++ valueTexts (number + 1) rest

/-- The text of an enumeration. -/
def Enumeration.text (e : Enumeration) : String :=
  "enum " ++ e.name ++ " \x7b\n  " ++ e.zero ++ " = 0;\n" ++ valueTexts 1 e.values ++ "\x7d\n"

/-- A service with one procedure. -/
structure Service where
  name : String
  comment : String
  procedure : String
  request : String
  response : String
  deprecated : Bool
  deriving Repr, Inhabited

/-- The text of a service. -/
def Service.text (s : Service) : String :=
  "service " ++ s.name ++ " \x7b\n  " ++ commentText s.comment ++ "\n  rpc " ++ s.procedure ++ "(" ++ s.request
    ++ ") returns (" ++ s.response ++ ")"
    ++ (if s.deprecated then " \x7b\n    option deprecated = true;\n  \x7d" else ";") ++ "\n\x7d\n"

/-- What a unit declares. -/
inductive Declaration where
  | message (m : Message)
  | enumeration (e : Enumeration)
  /-- The messages of a procedure, and its service. -/
  | procedure (request response : Message) (service : Service)
  deriving Repr, Inhabited

/-- The text of what a unit declares. -/
def Declaration.text : Declaration → String
  | .message m => m.text
  | .enumeration e => e.text
  | .procedure request response service => request.text ++ "\n" ++ response.text ++ "\n" ++ service.text

end ContractBindings.Messages
