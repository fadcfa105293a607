import ContractBindings.Files
import ContractBindings.Generation
import ContractBindings.Report

/-!
# Writing to an output directory

The units of a run and its report become files under one directory. All paths are checked before the first file is
written: none may lead out of the directory, and no two to one place. Then the files are written in order, each only if
its bytes are not there already, up to the first that cannot be written.
-/

namespace ContractBindings

/-- A file to write: its path as messages show it, the place that the path leads to, and its text. -/
structure PlannedFile where
  path : String
  place : Place
  text : String
  deriving Repr, DecidableEq, Inhabited

namespace Output

/-- The name of the report's file. -/
def reportName : String := "apigen-report.json"

/-- The file for a path and a text under an output directory. -/
def plannedAt (directory path text : String) : PlannedFile :=
  ⟨Place.join directory path, (Place.ofPath directory).under path, text⟩

/-- The files for units under an output directory, none at a place that is taken. -/
def planUnits (directory : String) : List CodeUnit → List (List String) → Except OutputError (List PlannedFile)
  | [], _ => .ok []
  | unit :: rest, taken => do
    if !Place.isContained unit.path then throw ⟨unit.path, [], .escapes⟩
    let planned := plannedAt directory unit.path unit.text
    if taken.contains planned.place.names then throw ⟨planned.path, [], .producedTwice unit.path⟩
    return planned :: (← planUnits directory rest (planned.place.names :: taken))

/-- The files for units, and the report's file after them. -/
def plan (directory : String) (units : List CodeUnit) (report : Report) : Except OutputError (List PlannedFile) := do
  return (← planUnits directory units []) ++ [plannedAt directory reportName report.text]

/-- A file is there with the bytes that are planned for it. -/
def isUpToDate (files : Files) (planned : PlannedFile) : Except FileFault Bool :=
  match files.read planned.place with
  | .ok bytes => .ok (bytes == planned.text.toUTF8)
  | .error .notFound => .ok false
  | .error fault => .error fault

/-- Writes a file with the directories above it; also after a fault, the directories that were missing are there. -/
def writeFile (files : Files) (planned : PlannedFile) : Files × Except FileFault Unit :=
  match files.makeDirectories [] planned.place.parent with
  | .error fault => (files, .error fault)
  | .ok files =>
    match files.write planned.place planned.text.toUTF8 with
    | .error fault => (files, .error fault)
    | .ok files => (files, .ok ())

/-- Writes the files that are not up to date, in order, after those already written. The result lists the paths of all
that were written. -/
def writeFiles : List PlannedFile → Files → List String → Files × Except OutputError (List String)
  | [], files, written => (files, .ok written)
  | planned :: rest, files, written =>
    match isUpToDate files planned with
    | .error fault => (files, .error ⟨planned.path, written, .file fault⟩)
    | .ok true => writeFiles rest files written
    | .ok false =>
      match writeFile files planned with
      | (files, .error fault) => (files, .error ⟨planned.path, written, .file fault⟩)
      | (files, .ok ()) => writeFiles rest files (written ++ [planned.path])

/-- Writes units and their report under an output directory. -/
def write (files : Files) (directory : String) (units : List CodeUnit) (report : Report) :
    Files × Except OutputError (List String) :=
  match plan directory units report with
  | .error e => (files, .error e)
  | .ok planned => writeFiles planned files []

end Output

namespace Generator

/-- The units and the report for the contract in a file. -/
def ofFile (g : Generator) (files : Files) (input : String) : Except Failure (List CodeUnit × Report) := do
  g.checkpoint .load
  let text ← (files.readText input).mapError (.unreadable input)
  let generation ← g.ofDocument (← Document.load text (Document.formatOf input))
  g.checkpoint .write
  return (generation.units, ⟨generation.units.map CodeUnit.path, generation.diagnostics⟩)

/-- Generates from the contract in a file into an output directory. -/
def writeTo (g : Generator) (files : Files) (input directory : String) : Files × Except Failure Report :=
  match g.ofFile files input with
  | .error failure => (files, .error failure)
  | .ok (units, report) =>
    match Output.write files directory units report with
    | (files, .error e) => (files, .error (.output e))
    | (files, .ok _) => (files, .ok report)

end Generator

end ContractBindings
