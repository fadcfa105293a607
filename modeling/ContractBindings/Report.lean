import ContractBindings.Diagnostic

/-!
# Reports

The account of a run that is kept beside the generated files: its outcome, the files in the order of their units, and
the diagnostics. The outcome is that of the diagnostics, so a report cannot contradict itself. It is written as JSON:
strings between double quotes, and collections with one item a line, each two blanks further in than the collection.
-/

namespace ContractBindings.Json

/-! ## JSON text -/

/-- A character inside double quotes. Control characters have names or are written with four hexadecimal digits. -/
def escapeChar (c : Char) : List Char :=
  match c with
  | '"' => ['\\', '"']
  | '\\' => ['\\', '\\']
  | '\n' => ['\\', 'n']
  | '\r' => ['\\', 'r']
  | '\t' => ['\\', 't']
  | c =>
    if c.toNat == 8 then ['\\', 'b']
    else if c.toNat == 12 then ['\\', 'f']
    else if c.toNat < 0x20 then
      ['\\', 'u', '0', '0', Nat.digitChar (c.toNat / 16), Nat.digitChar (c.toNat % 16)]
    else [c]

/-- A string. -/
def quote (s : String) : String := String.ofList ('"' :: s.toList.flatMap escapeChar ++ ['"'])

/-- The blanks in front of a line at a depth. -/
def margin (depth : Nat) : String := String.ofList (List.replicate (2 * depth) ' ')

/-- A collection at a depth: its brackets around its items, which are written for the next depth. -/
def block (opening closing : String) (depth : Nat) (items : List String) : String :=
  if items.isEmpty then opening ++ closing
  else
    opening ++ "\n" ++ ",\n".intercalate (items.map (margin (depth + 1) ++ ·)) ++ "\n" ++ margin depth ++ closing

/-- An array at a depth. -/
def array (depth : Nat) (items : List String) : String := block "[" "]" depth items

/-- An object at a depth, from the names and the written values of its members. -/
def object (depth : Nat) (members : List (String × String)) : String :=
  block "\x7b" "\x7d" depth (members.map fun (name, value) => quote name ++ ": " ++ value)

end ContractBindings.Json

namespace ContractBindings

/-! ## Reports -/

/-- The account of a run. -/
structure Report where
  files : List String
  diagnostics : List Diagnostic
  deriving Repr, DecidableEq, Inhabited

namespace Report

/-- The outcome of the run. -/
def status (report : Report) : Status := Status.ofDiagnostics report.diagnostics

/-- A diagnostic as an object at a depth. -/
def diagnosticText (depth : Nat) (d : Diagnostic) : String :=
  Json.object depth
    [("severity", Json.quote d.severity.name), ("code", Json.quote d.code.name), ("unit", Json.quote d.unit),
      ("message", Json.quote d.message)]

/-- The text of the report's file. -/
def text (report : Report) : String :=
  Json.object 0
    [("status", Json.quote report.status.name),
      ("files", Json.array 1 (report.files.map Json.quote)),
      ("diagnostics", Json.array 1 (report.diagnostics.map (diagnosticText 2)))]
    ++ "\n"

end Report

end ContractBindings
