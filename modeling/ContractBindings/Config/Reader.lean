import ContractBindings.Config
import ContractBindings.Yaml.Reader

/-!
# Configuration files

A configuration is a YAML mapping that names some of the choices; the others keep their defaults, and an empty file
keeps them all. It is read from the nodes of its text and not from values: any scalar is text here as it is written,
so that `package: 1.0` names the package `1.0`. A choice is written by its name, or as a tag of that name on nothing.
-/

namespace ContractBindings

open Yaml

/-- Why a text is no configuration. -/
inductive ConfigError where
  /-- The text is not one YAML document. -/
  | unparsable
  | notMapping
  | fieldNotText
  | unknownField (name : String)
  | repeatedField (name : String)
  /-- The value of a field has the wrong form, or names no choice. -/
  | badValue (field : String)
  deriving Repr, DecidableEq

/-- The words for a configuration error. -/
def ConfigError.message : ConfigError → String
  | .unparsable => "the configuration is not one YAML document"
  | .notMapping => "a configuration must be a mapping"
  | .fieldNotText => "a field's name must be a scalar"
  | .unknownField name => "unknown field `" ++ name ++ "`"
  | .repeatedField name => "field `" ++ name ++ "` is given twice"
  | .badValue field => "field `" ++ field ++ "` has an invalid value"

namespace Config

/-- The fields of a configuration file. -/
inductive Field where
  | operationNaming
  | unionPolicy
  | unknownPayloads
  | unknownFields
  | emptyResponses
  | parallel
  | package
  | templates
  deriving Repr, DecidableEq, Inhabited

/-- The name of a field. -/
def Field.name : Field → String
  | .operationNaming => "operation_naming"
  | .unionPolicy => "union_policy"
  | .unknownPayloads => "unknown_payloads"
  | .unknownFields => "unknown_fields"
  | .emptyResponses => "empty_responses"
  | .parallel => "parallel"
  | .package => "package"
  | .templates => "templates"

/-- All fields. -/
def Field.all : List Field :=
  [.operationNaming, .unionPolicy, .unknownPayloads, .unknownFields, .emptyResponses, .parallel, .package, .templates]

/-! ## Forms of values -/

/-- The node itself, or the one that an alias stands for. -/
def target? (anchors : Anchors) : Node Nat → Option (Node Nat)
  | .alias id => anchors.node? id
  | node => some node

/-- The text of any scalar. -/
def text? (anchors : Anchors) (node : Node Nat) : Option String :=
  match target? anchors node with
  | some (.scalar _ text _) => some text
  | _ => none

/-- The entries of a mapping; nothing written is a mapping without entries. -/
def entries? (anchors : Anchors) (node : Node Nat) : Option (List (Node Nat × Node Nat)) :=
  match target? anchors node with
  | some (.mapping _ entries) => some entries
  | some (.scalar _ "" .plain) => some []
  | _ => none

/-- A truth value, which is written without quotes or as a block under the tag for truth values. -/
def bool? (anchors : Anchors) (node : Node Nat) : Option Bool :=
  match target? anchors node with
  | some (.scalar props text style) =>
    let isTagged := style == .literal && props.tag == some "tag:yaml.org,2002:bool"
    if style == .plain || isTagged then boolText? text else none
  | _ => none

/-- The name of a choice: the text of a scalar, or a local tag on nothing. -/
def choiceName? (anchors : Anchors) (node : Node Nat) : Option String :=
  match target? anchors node with
  | some (.scalar props text style) =>
    match localTag? props with
    | some tag => if style == .plain && (text == "" || isNullText text) then some tag else none
    | none => some text
  | _ => none

/-- The choice that a node names. -/
def choice? (anchors : Anchors) (name : α → String) (choices : List α) (node : Node Nat) : Option α :=
  (choiceName? anchors node).bind fun text => choices.find? fun choice => name choice == text

/-! ## Templates -/

/-- Puts a text under a name, in place of the one before; names ascend. -/
def putNamed (name text : String) : List (String × String) → List (String × String)
  | [] => [(name, text)]
  | (n, t) :: rest =>
    if name < n then (name, text) :: (n, t) :: rest
    else if name == n then (name, text) :: rest
    else (n, t) :: putNamed name text rest

/-- The templates of a mapping, added to those before. -/
def readTemplates (anchors : Anchors) :
    List (Node Nat × Node Nat) → List (String × String) → Option (List (String × String))
  | [], templates => some templates
  | (key, value) :: rest, templates => do
    let name ← text? anchors key
    let text ← text? anchors value
    readTemplates anchors rest (putNamed name text templates)

/-! ## Fields -/

/-- The configuration with a field set to the value that a node holds. -/
def set? (anchors : Anchors) (config : Config) (node : Node Nat) : Field → Option Config
  | .operationNaming =>
    (choice? anchors OperationNaming.name [.path, .operationId] node).map fun v => { config with operationNaming := v }
  | .unionPolicy =>
    (choice? anchors UnionPolicy.name [.native, .fallback] node).map fun v => { config with unionPolicy := v }
  | .unknownPayloads =>
    (choice? anchors UnknownPolicy.name [.reject, .opaqueValue] node).map fun v => { config with unknownPayloads := v }
  | .unknownFields =>
    (choice? anchors UnknownPolicy.name [.reject, .opaqueValue] node).map fun v => { config with unknownFields := v }
  | .emptyResponses =>
    (choice? anchors EmptyResponsePolicy.name [.unit, .omit] node).map fun v => { config with emptyResponses := v }
  | .parallel => (bool? anchors node).map fun v => { config with parallel := v }
  | .package => (text? anchors node).map fun v => { config with package := v }
  | .templates =>
    (entries? anchors node).bind fun entries =>
      (readTemplates anchors entries []).map fun v => { config with templates := v }

/-- Sets the fields that the entries name, each at most once. -/
def readEntries (anchors : Anchors) :
    List (Node Nat × Node Nat) → List Field → Config → Except ConfigError Config
  | [], _, config => .ok config
  | (key, value) :: rest, seen, config =>
    match text? anchors key with
    | none => .error .fieldNotText
    | some name =>
      match Field.all.find? fun field => field.name == name with
      | none => .error (.unknownField name)
      | some field =>
        if seen.contains field then .error (.repeatedField name)
        else
          match config.set? anchors value field with
          | none => .error (.badValue name)
          | some config => readEntries anchors rest (field :: seen) config

/-- The configuration that a text holds. -/
def read (text : String) : Except ConfigError Config :=
  match (tokens? text).bind Node.document? with
  | none => .error .unparsable
  | some written =>
    match numberNode written Anchors.none with
    | none => .error .unparsable
    | some (node, anchors) =>
      match entries? anchors node with
      | none => .error .notMapping
      | some entries => readEntries anchors entries [] {}

end Config

end ContractBindings
