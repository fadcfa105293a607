import ContractBindings.Config

/-!
# Command lines

The command line has one command, `generate`, with the path of a contract, options that take a value, and a switch. The
arguments are read from left to right: the first that asks for help or is wrong decides, and an option's value is never
an argument that begins with a hyphen, the lone hyphen apart.
-/

namespace ContractBindings

/-- The value of an option for a source of identifiers. -/
def OperationNaming.flag : OperationNaming → String
  | .path => "path"
  | .operationId => "operation-id"

namespace CommandLine

/-- The text with the capital letters of ASCII made small. -/
def foldCase (s : String) : String := String.ofList (s.toList.map Char.toLower)

/-- The choice that an option's value names. -/
def choice? (flag : α → String) (choices : List α) (ignoreCase : Bool) (text : String) : Option α :=
  choices.find? fun choice =>
    if ignoreCase then foldCase (flag choice) == foldCase text else flag choice == text

/-- The target that an option's value names. -/
def target? : Bool → String → Option Target := choice? Target.name [.rust, .protobuf]

/-- The policy for unions that an option's value names. -/
def unionPolicy? : Bool → String → Option UnionPolicy := choice? UnionPolicy.name [.native, .fallback]

/-- The source of identifiers that an option's value names. -/
def operationNaming? : Bool → String → Option OperationNaming := choice? OperationNaming.flag [.path, .operationId]

/-- The options that take a value. -/
inductive ValueOption where
  | output
  | target
  | config
  | unionPolicy
  | operationNaming
  deriving Repr, DecidableEq, Inhabited

/-- The long name of an option. -/
def ValueOption.name : ValueOption → String
  | .output => "output"
  | .target => "target"
  | .config => "config"
  | .unionPolicy => "union-policy"
  | .operationNaming => "operation-naming"

/-- The option with a long name. -/
def ValueOption.ofName? (name : String) : Option ValueOption :=
  [output, target, config, unionPolicy, operationNaming].find? fun o => o.name == name

/-- The option with a short name. -/
def ValueOption.ofLetter? : Char → Option ValueOption
  | 'o' => some .output
  | 't' => some .target
  | _ => none

/-- What the arguments so far have given. -/
structure Given where
  input : Option String := none
  output : Option String := none
  target : Option Target := none
  config : Option String := none
  unionPolicy : Option UnionPolicy := none
  operationNaming : Option OperationNaming := none
  sequential : Bool := false
  deriving Repr, DecidableEq, Inhabited

/-- A value that is given for the first time and is valid. -/
def first? (before new : Option α) : Option (Option α) :=
  if before.isSome || new.isNone then none else some new

/-- A path, which is never empty. -/
def path? (text : String) : Option String := if text == "" then none else some text

namespace Given

/-- What is given with the value of an option. -/
def set? (given : Given) (value : String) : ValueOption → Option Given
  | .output => (first? given.output (path? value)).map fun v => { given with output := v }
  | .target => (first? given.target (target? false value)).map fun v => { given with target := v }
  | .config => (first? given.config (path? value)).map fun v => { given with config := v }
  | .unionPolicy => (first? given.unionPolicy (unionPolicy? false value)).map fun v => { given with unionPolicy := v }
  | .operationNaming =>
    (first? given.operationNaming (operationNaming? false value)).map fun v => { given with operationNaming := v }

/-- What is given with an argument that is no option. -/
def setInput? (given : Given) (value : String) : Option Given :=
  (first? given.input (path? value)).map fun v => { given with input := v }

/-- What is given with the switch. -/
def setSequential? (given : Given) : Option Given :=
  if given.sequential then none else some { given with sequential := true }

/-- What is given with arguments none of which is an option. -/
def setInputs? (given : Given) : List String → Option Given
  | [] => some given
  | value :: rest => (given.setInput? value).bind fun given => given.setInputs? rest

end Given

/-- The command to generate code from a contract. -/
structure GenerateCommand where
  input : String
  output : String
  target : Target
  /-- The path of the configuration. -/
  config : Option String
  unionPolicy : Option UnionPolicy
  operationNaming : Option OperationNaming
  sequential : Bool
  deriving Repr, DecidableEq, Inhabited

/-- What a command line asks for. -/
inductive Invocation where
  | generate (command : GenerateCommand)
  | help
  | version
  | misuse
  deriving Repr, DecidableEq, Inhabited

/-- The command for what all arguments have given. -/
def Given.command (given : Given) : Invocation :=
  match given.input, given.output, given.target with
  | some input, some output, some target =>
    .generate ⟨input, output, target, given.config, given.unionPolicy, given.operationNaming, given.sequential⟩
  | _, _, _ => .misuse

/-- An argument that cannot be the value of the option before it. -/
def isHyphenated (argument : String) : Bool :=
  match argument.toList with
  | '-' :: _ :: _ => true
  | _ => false

/-- The two sides of the first equals sign; the right one is missing where there is no sign. -/
def splitEquals : List Char → List Char × Option (List Char)
  | [] => ([], none)
  | '=' :: cs => ([], some cs)
  | c :: cs =>
    let (name, value) := splitEquals cs
    (c :: name, value)

/-- How an argument of the command is read. -/
inductive Argument where
  /-- All further arguments are no options. -/
  | endOfOptions
  | help
  | sequential
  /-- An option with a value in the same argument, or without. -/
  | option (option : ValueOption) (value : Option String)
  | input (path : String)
  | unknown

/-- Reads an argument of the command. -/
def Argument.ofText (text : String) : Argument :=
  match text.toList with
  | ['-', '-'] => .endOfOptions
  | '-' :: '-' :: long =>
    let (name, value) := splitEquals long
    match String.ofList name, value with
    | "help", none => .help
    | "sequential", none => .sequential
    | name, value => ((ValueOption.ofName? name).map fun o => .option o (value.map String.ofList)).getD .unknown
  | '-' :: 'h' :: _ => .help
  | '-' :: letter :: attached =>
    let value := match attached with
      | [] => none
      | '=' :: value => some (String.ofList value)
      | value => some (String.ofList value)
    ((ValueOption.ofLetter? letter).map fun o => .option o value).getD .unknown
  | _ => .input text

/-- Reads the arguments of the command after those that have given something. -/
def readGenerate (given : Given) : List String → Invocation
  | [] => given.command
  | argument :: rest =>
    match Argument.ofText argument with
    | .endOfOptions => (given.setInputs? rest).elim .misuse Given.command
    | .help => .help
    | .sequential =>
      match given.setSequential? with
      | some given => readGenerate given rest
      | none => .misuse
    | .option o (some value) =>
      match given.set? value o with
      | some given => readGenerate given rest
      | none => .misuse
    | .option o none =>
      match rest with
      | [] => .misuse
      | value :: rest =>
        if isHyphenated value then .misuse
        else
          match given.set? value o with
          | some given => readGenerate given rest
          | none => .misuse
    | .input path =>
      match given.setInput? path with
      | some given => readGenerate given rest
      | none => .misuse
    | .unknown => .misuse

/-- Reads a command line. -/
def read : List String → Invocation
  | "generate" :: rest => readGenerate {} rest
  | ["help"] | ["help", "generate"] | ["help", "help"] => .help
  | "--help" :: _ => .help
  | "--version" :: _ => .version
  | argument :: _ =>
    match argument.toList with
    | '-' :: 'h' :: _ => .help
    | '-' :: 'V' :: _ => .version
    | _ => .misuse
  | [] => .misuse

end CommandLine

end ContractBindings
