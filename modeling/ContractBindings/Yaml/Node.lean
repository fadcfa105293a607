import ContractBindings.Yaml.Token

/-!
# Nodes of a YAML document

The tokens of a text are read into the nodes of its one document, by recursive descent. Anchors and aliases stay names,
tags are completed by the tag directives, and scalars stay text.
-/

namespace ContractBindings.Yaml

/-- The anchor and the tag in front of a node. -/
structure Properties where
  anchor : Option String
  tag : Option String
  deriving Repr, Inhabited

/-- A node whose aliases are given by values of a type. -/
inductive Node (α : Type) where
  | scalar (props : Properties) (text : String) (style : ScalarStyle)
  | sequence (props : Properties) (items : List (Node α))
  | mapping (props : Properties) (entries : List (Node α × Node α))
  | alias (target : α)
  deriving Inhabited

/-- A node as it is written: aliases are names. -/
abbrev WrittenNode := Node String

namespace Node

/-- The node where nothing is written. -/
def empty : WrittenNode := .scalar ⟨none, none⟩ "" .plain

/-- Tag handles with what they stand for. -/
abbrev Handles := List (String × String)

/-- The handles that every document knows. -/
def standardHandles : Handles := [("!", "!"), ("!!", "tag:yaml.org,2002:")]

/-- The complete tag; a tag without a handle stands for itself, an unknown handle for nothing. -/
def completeTag (handles : Handles) (handle suffix : String) : Option String :=
  if handle == "" then some suffix else (handles.lookup handle).map (· ++ suffix)

/-- The anchor and the tag in front of a node, each at most once, in either order. -/
def properties (handles : Handles) : List Token → Option (Properties × List Token)
  | .anchor name :: .tag h s :: rest => (completeTag handles h s).map fun t => (⟨some name, some t⟩, rest)
  | .tag h s :: .anchor name :: rest => (completeTag handles h s).map fun t => (⟨some name, some t⟩, rest)
  | .anchor name :: rest => some (⟨some name, none⟩, rest)
  | .tag h s :: rest => (completeTag handles h s).map fun t => (⟨none, some t⟩, rest)
  | rest => some (⟨none, none⟩, rest)

/-- A scalar's properties: the tag that is a lone exclamation mark says nothing. -/
def scalarProperties (props : Properties) : Properties :=
  if props.tag == some "!" then { props with tag := none } else props

/-- The next token ends an entry of a block collection. -/
def endsBlockEntry : List Token → Bool
  | .key :: _ | .value :: _ | .blockEnd :: _ => true
  | _ => false

/-- The next token ends an entry of a flow sequence. -/
def endsFlowItem : List Token → Bool
  | .flowEntry :: _ | .flowSequenceEnd :: _ => true
  | _ => false

/-- The next token ends an entry of a flow mapping. -/
def endsFlowEntry : List Token → Bool
  | .flowEntry :: _ | .flowMappingEnd :: _ => true
  | _ => false

/-- A node of which only the properties are written. -/
def emptyWith (props : Properties) (rest : List Token) : Option (WrittenNode × List Token) :=
  if props.anchor.isSome || props.tag.isSome then some (.scalar props "" .plain, rest) else none

mutual

/-- A node. `block` allows block collections, `indentless` a block sequence that is not indented, as the value of a
block mapping. -/
def read (handles : Handles) (block indentless : Bool) : Nat → List Token → Option (WrittenNode × List Token)
  | 0, _ => none
  | fuel + 1, tokens =>
    match tokens with
    | .alias name :: rest => some (.alias name, rest)
    | _ => do
      let (props, rest) ← properties handles tokens
      match rest with
      | .blockEntry :: _ =>
        if indentless then do
          let (items, rest) ← indentlessItems handles fuel rest
          some (.sequence props items, rest)
        else emptyWith props rest
      | .scalar text style :: rest => some (.scalar (scalarProperties props) text style, rest)
      | .flowSequenceStart :: rest => do
        let (items, rest) ← flowItems handles true fuel rest
        some (.sequence props items, rest)
      | .flowMappingStart :: rest => do
        let (entries, rest) ← flowEntries handles true fuel rest
        some (.mapping props entries, rest)
      | .blockSequenceStart :: after =>
        if block then do
          let (items, rest) ← blockItems handles fuel after
          some (.sequence props items, rest)
        else emptyWith props rest
      | .blockMappingStart :: after =>
        if block then do
          let (entries, rest) ← blockEntries handles fuel after
          some (.mapping props entries, rest)
        else emptyWith props rest
      | _ => emptyWith props rest

/-- The items of a block sequence, up to and with its end. -/
def blockItems (handles : Handles) : Nat → List Token → Option (List WrittenNode × List Token)
  | 0, _ => none
  | fuel + 1, tokens =>
    match tokens with
    | .blockEnd :: rest => some ([], rest)
    | .blockEntry :: rest => do
      let bare := match rest with
        | .blockEntry :: _ | .blockEnd :: _ => true
        | _ => false
      let (item, rest) ← if bare then some (empty, rest) else read handles true false fuel rest
      let (items, rest) ← blockItems handles fuel rest
      some (item :: items, rest)
    | _ => none

/-- The items of a block sequence without an indentation of its own. -/
def indentlessItems (handles : Handles) : Nat → List Token → Option (List WrittenNode × List Token)
  | 0, _ => none
  | fuel + 1, tokens =>
    match tokens with
    | .blockEntry :: rest => do
      let bare := endsBlockEntry rest || rest.head? == some .blockEntry
      let (item, rest) ← if bare then some (empty, rest) else read handles true false fuel rest
      let (items, rest) ← indentlessItems handles fuel rest
      some (item :: items, rest)
    | rest => some ([], rest)

/-- The entries of a block mapping, up to and with its end. -/
def blockEntries (handles : Handles) : Nat → List Token → Option (List (WrittenNode × WrittenNode) × List Token)
  | 0, _ => none
  | fuel + 1, tokens =>
    match tokens with
    | .blockEnd :: rest => some ([], rest)
    | .key :: rest => do
      let (key, rest) ← if endsBlockEntry rest then some (empty, rest) else read handles true true fuel rest
      let (value, rest) ← blockValue handles fuel rest
      let (entries, rest) ← blockEntries handles fuel rest
      some ((key, value) :: entries, rest)
    | _ => none

/-- The value after a key of a block mapping, empty where no value is marked. -/
def blockValue (handles : Handles) : Nat → List Token → Option (WrittenNode × List Token)
  | 0, _ => none
  | fuel + 1, tokens =>
    match tokens with
    | .value :: rest => if endsBlockEntry rest then some (empty, rest) else read handles true true fuel rest
    | rest => some (empty, rest)

/-- The items of a flow sequence, up to and with its end. A key mark makes an item a mapping of one entry. -/
def flowItems (handles : Handles) (isFirst : Bool) : Nat → List Token → Option (List WrittenNode × List Token)
  | 0, _ => none
  | fuel + 1, tokens =>
    match tokens with
    | .flowSequenceEnd :: rest => some ([], rest)
    | _ => do
      let tokens ← if isFirst then some tokens else
        match tokens with
        | .flowEntry :: rest => some rest
        | _ => none
      match tokens with
      | .flowSequenceEnd :: rest => some ([], rest)
      | .key :: rest => do
        let (key, rest) ←
          match rest with
          | .value :: after | .flowEntry :: after | .flowSequenceEnd :: after => some (empty, after)
          | _ => read handles false false fuel rest
        let (value, rest) ← flowItemValue handles fuel rest
        let (items, rest) ← flowItems handles false fuel rest
        some (.mapping ⟨none, none⟩ [(key, value)] :: items, rest)
      | _ => do
        let (item, rest) ← read handles false false fuel tokens
        let (items, rest) ← flowItems handles false fuel rest
        some (item :: items, rest)

/-- The value of a one-entry mapping inside a flow sequence. -/
def flowItemValue (handles : Handles) : Nat → List Token → Option (WrittenNode × List Token)
  | 0, _ => none
  | fuel + 1, tokens =>
    match tokens with
    | .value :: rest => if endsFlowItem rest then some (empty, rest) else read handles false false fuel rest
    | rest => some (empty, rest)

/-- The entries of a flow mapping, up to and with its end. A node without a key mark is a key with an empty value. -/
def flowEntries (handles : Handles) (isFirst : Bool) :
    Nat → List Token → Option (List (WrittenNode × WrittenNode) × List Token)
  | 0, _ => none
  | fuel + 1, tokens =>
    match tokens with
    | .flowMappingEnd :: rest => some ([], rest)
    | _ => do
      let tokens ← if isFirst then some tokens else
        match tokens with
        | .flowEntry :: rest => some rest
        | _ => none
      match tokens with
      | .flowMappingEnd :: rest => some ([], rest)
      | .key :: rest => do
        let bare := endsFlowEntry rest || rest.head? == some .value
        let (key, rest) ← if bare then some (empty, rest) else read handles false false fuel rest
        let (value, rest) ← flowEntryValue handles fuel rest
        let (entries, rest) ← flowEntries handles false fuel rest
        some ((key, value) :: entries, rest)
      | _ => do
        let (key, rest) ← read handles false false fuel tokens
        let (entries, rest) ← flowEntries handles false fuel rest
        some ((key, empty) :: entries, rest)

/-- The value after a marked key of a flow mapping. -/
def flowEntryValue (handles : Handles) : Nat → List Token → Option (WrittenNode × List Token)
  | 0, _ => none
  | fuel + 1, tokens =>
    match tokens with
    | .value :: rest => if endsFlowEntry rest then some (empty, rest) else read handles false false fuel rest
    | rest => some (empty, rest)

end

/-- The directives in front of a document: one version at most, which must be 1.1 or 1.2, and handles, each once. -/
def directives (versioned : Bool) (handles : Handles) : List Token → Option (Handles × List Token)
  | .versionDirective major minor :: rest =>
    if versioned || major != 1 || !(minor == 1 || minor == 2) then none else directives true handles rest
  | .tagDirective handle lead :: rest =>
    if (handles.lookup handle).isSome then none else directives versioned ((handle, lead) :: handles) rest
  | rest => some (handles, rest)

/-- The node of a document after its start, empty where nothing is written. -/
def content (handles : Handles) (tokens : List Token) : Option (WrittenNode × List Token) :=
  match tokens with
  | [] | .versionDirective .. :: _ | .tagDirective .. :: _ | .documentStart :: _ | .documentEnd :: _ =>
    some (empty, tokens)
  | _ => read handles true false (4 * tokens.length + 8) tokens

/-- Only marks of the document's end remain. -/
def onlyEnds : List Token → Bool
  | [] => true
  | .documentEnd :: rest => onlyEnds rest
  | _ => false

/-- The one document of a token sequence; an empty sequence is an empty document. -/
def document? (tokens : List Token) : Option WrittenNode := do
  match tokens with
  | [] => some empty
  | .versionDirective .. :: _ | .tagDirective .. :: _ | .documentStart :: _ => do
    let (handles, rest) ← directives false [] tokens
    match rest with
    | .documentStart :: rest => do
      let (node, rest) ← content (handles ++ standardHandles) rest
      if onlyEnds rest then some node else none
    | _ => none
  | _ => do
    let (node, rest) ← read standardHandles true false (4 * tokens.length + 8) tokens
    if onlyEnds rest then some node else none

end Node

end ContractBindings.Yaml
