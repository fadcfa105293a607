import ContractBindings.Naming.Words

/-!
# Identifiers of the targets

The snake form of a name, changed as little as a target needs to accept it as the name of a field or parameter.
-/

namespace ContractBindings.Naming

/-- Words that Rust reserves. -/
def reservedWords : List String :=
  ["as", "async", "await", "break", "const", "continue", "crate", "dyn", "else", "enum",
   "extern", "false", "fn", "for", "if", "impl", "in", "let", "loop", "match", "mod", "move",
   "mut", "pub", "ref", "return", "self", "Self", "static", "struct", "super", "trait",
   "true", "type", "unsafe", "use", "where", "while", "abstract", "become", "box", "do",
   "final", "macro", "override", "priv", "typeof", "unsized", "virtual", "yield", "try",
   "gen"]

/-- Reserved words that have no raw form. -/
def pathWords : List String := ["self", "Self", "super", "crate"]

/-- The snake form, or `value` where the name holds no letter or digit. -/
def fieldStem (name : String) : String :=
  if snakeCase name == "" then "value" else snakeCase name

/-- The text begins with an ASCII digit. -/
def startsWithDigit (s : String) : Bool :=
  match s.toList with
  | c :: _ => c.isDigit
  | [] => false

/-- A name that is no identifier as it stands: path words get an underscore, other reserved words their raw form. -/
def escapeReserved (ident : String) : String :=
  if pathWords.contains ident then ident ++ "_"
  else if reservedWords.contains ident then "r#" ++ ident
  else ident

/-- A field, parameter or method name as a Rust identifier. -/
def rustIdent (name : String) : String :=
  escapeReserved (if startsWithDigit (fieldStem name) then "_" ++ fieldStem name else fieldStem name)

/-- A field name of a protobuf message. -/
def protobufIdent (name : String) : String :=
  if startsWithDigit (fieldStem name) then "field_" ++ fieldStem name else fieldStem name

end ContractBindings.Naming
