import ContractBindings.CommandLine.Run

/-!
# The program

The outer layer around the command line. It takes what the file system has at the places that a command reads or writes
into a file tree, lets the library work on that tree, and carries what changed in the tree back to the file system.
-/

namespace ContractBindings.Program

/-- The system's codes for reading a directory as a file: positive, and negative in 32 bits. -/
def directoryCodes : List UInt32 := [21, 4294967275]

/-- What the file system has at a path. -/
def entryAt? (path : String) : IO (Option FileEntry) := do
  match ← (IO.FS.readBinFile path).toBaseIO with
  | .ok bytes => return some (.file bytes)
  | .error (.inappropriateType _ code _) => return if directoryCodes.contains code then some .directory else none
  | .error (.noFileOrDirectory ..) => return none
  | .error e => throw e

/-- Adds to a file tree what the file system has on the way to a place. -/
def addWay (files : Files) (above : List String) : List String → IO Files
  | [] => return files
  | name :: rest => do
    let names := above ++ [name]
    match ← entryAt? ("/".intercalate names) with
    | some entry => addWay (files.put names entry) names rest
    | none => return files

/-- The file tree of what the file system has on the ways to places. -/
def snapshot (places : List Place) : IO Files :=
  places.foldlM (fun files place => addWay files [] place.names) {}

/-- Carries the entries that a later tree has made, the earliest first, back to the file system. -/
def carryOut (earlier later : Files) : IO Unit :=
  later.entries.reverse.forM fun (names, entry) => do
    if earlier.get? names != some entry then
      let path := "/".intercalate names
      match entry with
      | .directory => IO.FS.createDirAll path
      | .file bytes => IO.FS.writeBinFile path bytes

/-- Carries out a command in the file system. -/
def generate (command : CommandLine.GenerateCommand) : IO CommandLine.Answer := do
  let sources ← snapshot ((command.input :: command.config.toList).map Place.ofPath)
  match command.prepare sources with
  | .error e => return .failed e
  | .ok (units, report) =>
    let planned := (Output.plan command.output units report).toOption.getD []
    let earlier ← snapshot (planned.map PlannedFile.place)
    let (later, answer) := command.write earlier units report
    carryOut earlier later
    return answer

/-- What the program says about itself. -/
def helpText : String :=
  "Generate typed models and operation stubs from an OpenAPI contract\n\n"
    ++ "Usage: apigen generate [OPTIONS] --output <OUTPUT> --target <TARGET> <INPUT>\n\n"
    ++ "Options:\n"
    ++ "  -o, --output <OUTPUT>      Directory receiving the generated files and the report\n"
    ++ "  -t, --target <TARGET>      Language of the generated code: rust, protobuf\n"
    ++ "      --config <CONFIG>      Configuration in YAML; the options override its values\n"
    ++ "      --union-policy <NAME>  What becomes of unions: native, fallback\n"
    ++ "      --operation-naming <NAME>\n"
    ++ "                             Where identifiers of operations come from: path, operation-id\n"
    ++ "      --sequential           Render units one after the other\n"
    ++ "  -h, --help                 Print help"

/-- Says what an answer means. -/
def say : CommandLine.Answer → IO Unit
  | .help => IO.println helpText
  | .version => IO.println "apigen 0.1.0"
  | .misuse => IO.eprintln helpText
  | .finished report => report.diagnostics.forM fun d => IO.eprintln (d.severity.name ++ ": " ++ d.message)
  | .failed e => IO.eprintln ("error: " ++ e.message)

/-- Carries out what a command line asks for. -/
def answer (arguments : List String) : IO CommandLine.Answer :=
  match CommandLine.read arguments with
  | .generate command => generate command
  | .help => return .help
  | .version => return .version
  | .misuse => return .misuse

end ContractBindings.Program

/-- The program: its exit code is that of the answer, one where the file system fails. -/
def main (arguments : List String) : IO UInt32 := do
  try
    let answer ← ContractBindings.Program.answer arguments
    ContractBindings.Program.say answer
    return UInt32.ofNat answer.exitCode
  catch e =>
    IO.eprintln ("error: " ++ toString e)
    return 1
