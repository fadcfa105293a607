import ContractBindings.CommandLine.Basic
import ContractBindings.Config.Reader
import ContractBindings.Output

/-!
# Running a command line

The options of a command line come before the configuration that it names. A command that comes to its end answers with
the exit code of its outcome; one is the exit code of a failure, two of a command line that is wrong.
-/

namespace ContractBindings.CommandLine

/-- Why a command did not come to its end. -/
inductive CommandError where
  | unreadableConfig (path : String) (fault : FileFault)
  | invalidConfig (path : String) (error : ConfigError)
  | failed (input : String) (failure : Failure)
  deriving Repr

/-- The message of a command error. -/
def CommandError.message : CommandError → String
  | .unreadableConfig path _ => "could not read config `" ++ path ++ "`"
  | .invalidConfig path error => "invalid config `" ++ path ++ "`: " ++ error.message
  | .failed input failure => "could not generate from `" ++ input ++ "`: " ++ failure.message

/-- What a command line leads to. -/
inductive Answer where
  | help
  | version
  | misuse
  | finished (report : Report)
  | failed (error : CommandError)
  deriving Repr

/-- The exit code of an answer. -/
def Answer.exitCode : Answer → Nat
  | .help | .version => 0
  | .misuse => 2
  | .finished report => report.status.exitCode
  | .failed _ => 1

namespace GenerateCommand

/-- The configuration in the file that a command names, or the default one. -/
def fileConfig (command : GenerateCommand) (files : Files) : Except CommandError Config :=
  match command.config with
  | none => .ok {}
  | some path => do
    let text ← (files.readText path).mapError (.unreadableConfig path)
    (Config.read text).mapError (.invalidConfig path)

/-- A configuration with the choices of the command in place of its own. -/
def override (command : GenerateCommand) (config : Config) : Config :=
  { config with
    unionPolicy := command.unionPolicy.getD config.unionPolicy
    operationNaming := command.operationNaming.getD config.operationNaming
    parallel := config.parallel && !command.sequential }

/-- The units and the report that a command asks for. -/
def prepare (command : GenerateCommand) (files : Files) : Except CommandError (List CodeUnit × Report) := do
  let config ← command.fileConfig files
  let generator : Generator := { target := command.target, config := command.override config }
  (generator.ofFile files command.input).mapError (.failed command.input)

/-- Writes what was prepared under the output directory of a command. -/
def write (command : GenerateCommand) (files : Files) (units : List CodeUnit) (report : Report) : Files × Answer :=
  match Output.write files command.output units report with
  | (files, .error e) => (files, .failed (.failed command.input (.output e)))
  | (files, .ok _) => (files, .finished report)

/-- Carries out a command. -/
def run (command : GenerateCommand) (files : Files) : Files × Answer :=
  match command.prepare files with
  | .error e => (files, .failed e)
  | .ok (units, report) => command.write files units report

end GenerateCommand

/-- Carries out what a command line asks for. -/
def run (arguments : List String) (files : Files) : Files × Answer :=
  match read arguments with
  | .generate command => command.run files
  | .help => (files, .help)
  | .version => (files, .version)
  | .misuse => (files, .misuse)

end ContractBindings.CommandLine
