import ContractBindings.Schema.Basic
import ContractBindings.Text.Blank

/-!
# Operations

The operations of a contract with the schemas of what they take and give. An operation is known by its method and path,
written as words; a response by its status in a normal form, so that a number and a text that mean one status agree.
-/

namespace ContractBindings

/-- The methods that make an operation. -/
inductive Method where
  | get
  | put
  | post
  | delete
  | options
  | head
  | patch
  | trace
  deriving Repr, DecidableEq, Inhabited

namespace Method

/-- The name of a method in small letters, as it is written in a contract. -/
def name : Method → String
  | .get => "get"
  | .put => "put"
  | .post => "post"
  | .delete => "delete"
  | .options => "options"
  | .head => "head"
  | .patch => "patch"
  | .trace => "trace"

/-- All methods. -/
def all : List Method := [.get, .put, .post, .delete, .options, .head, .patch, .trace]

/-- The method with a name in small letters. -/
def ofName? (s : String) : Option Method := all.find? fun m => m.name == s

/-- The name of a method in capitals. -/
def capitalName (m : Method) : String := String.ofList (m.name.toList.map Char.toUpper)

end Method

/-- Where a parameter is sent. -/
inductive ParameterLocation where
  | path
  | query
  | header
  deriving Repr, DecidableEq, Inhabited

namespace ParameterLocation

/-- The name of a location. -/
def name : ParameterLocation → String
  | .path => "path"
  | .query => "query"
  | .header => "header"

/-- The location with a name. -/
def ofName? (s : String) : Option ParameterLocation := [path, query, header].find? fun l => l.name == s

end ParameterLocation

/-- A parameter of an operation. -/
structure Parameter where
  name : String
  location : ParameterLocation
  required : Bool
  description : Option String
  schema : SchemaNode
  deriving Inhabited

/-- The body of a request. -/
structure RequestBody where
  mediaType : String
  required : Bool
  description : Option String
  schema : SchemaNode
  deriving Inhabited

/-- A response; one without content has no schema. -/
structure Response where
  description : Option String
  mediaType : Option String
  schema : Option SchemaNode
  deriving Inhabited

/-- An operation. The responses stand under their statuses, in the order of their first declaration. -/
structure Operation where
  id : String
  method : Method
  path : String
  summary : Option String
  description : Option String
  deprecated : Bool
  parameters : List Parameter
  requestBody : Option RequestBody
  responses : List (String × Response)
  deriving Inhabited

/-! ## Identifiers -/

/-- The characters of a path after a last character: braces are dropped, letters become small, and every run of other
characters becomes one underscore. -/
def pathWords (last : Char) : List Char → List Char
  | [] => []
  | c :: cs =>
    if c == '{' || c == '}' then pathWords last cs
    else if c.isAlphanum then c.toLower :: pathWords c.toLower cs
    else if last == '_' then pathWords last cs
    else '_' :: pathWords '_' cs

/-- The characters without the underscores at their end. -/
def dropUnderscoreEnd : List Char → List Char
  | [] => []
  | c :: cs =>
    match dropUnderscoreEnd cs with
    | [] => if c == '_' then [] else [c]
    | rest => c :: rest

/-- The identifier of a method and a path: `GET /hello/{user}` is `get_hello_user`. -/
def pathIdentifier (method : Method) (path : String) : String :=
  let name := method.name.toList
  String.ofList (dropUnderscoreEnd (name ++ pathWords (name.getLastD '_') path.toList))

/-- The normal form of a status: without blanks around it and in capitals, `default` in small letters. -/
def normalizeStatus (status : String) : String :=
  let trimmed := Text.trim status
  if String.ofList (trimmed.toList.map Char.toLower) == "default" then "default"
  else String.ofList (trimmed.toList.map Char.toUpper)

end ContractBindings
