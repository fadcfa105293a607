import ContractBindings.Document.Pointer
import ContractBindings.Failure

/-!
# File trees

A path leads to a place by the names between its slashes. Empty names and single dots lead nowhere else, so many paths
lead to one place; a path that ends in a slash or a dot can only stand for a directory. A relative path without a double
dot stays below the directory that it starts from.

A file tree says what stands at each place: a directory, or a file with its bytes. Directories and files are made one at
a time, so two equations say all about a change: what was put stands at its place (`get?_put_self`), and nothing changes
at any other place (`get?_put_of_ne`).
-/

namespace ContractBindings

/-! ## Places in a file tree -/

/-- What a path ends in. -/
inductive PathEnd where
  | name
  | slash
  | dot
  deriving Repr, DecidableEq, Inhabited

/-- The place that a path leads to: the names on the way, and what the path ends in. A path from the root of all files
begins with the name `/`. -/
structure Place where
  names : List String
  ending : PathEnd
  deriving Repr, DecidableEq, Inhabited

namespace Place

/-- The parts of a path between slashes. -/
def parts (path : String) : List String := (Pointer.splitSlash path.toList).map String.ofList

/-- A part that leads to another place. -/
def leads (part : String) : Bool := part != "" && part != "."

/-- A path from the root of all files. -/
def isAbsolute (path : String) : Bool := path.toList.head? == some '/'

/-- What a path ends in. -/
def endingOf (path : String) : PathEnd :=
  if ((parts path).filter (· != "")).getLast? == some "." then .dot
  else if (parts path).getLast? == some "" then .slash
  else .name

/-- The place that a path leads to. -/
def ofPath (path : String) : Place :=
  ⟨(if isAbsolute path then ["/"] else []) ++ (parts path).filter leads, endingOf path⟩

/-- The place that a relative path leads to from a directory. -/
def under (directory : Place) (path : String) : Place :=
  ⟨directory.names ++ (parts path).filter leads, endingOf path⟩

/-- The names on the way to the directory that holds a place. -/
def parent (place : Place) : List String := place.names.dropLast

/-- A path that leads to a place below the directory it starts from. -/
def isContained (path : String) : Bool :=
  path != "" && !isAbsolute path && (parts path).all (· != "..")

/-- A path continued by a relative path. -/
def join (directory path : String) : String :=
  if directory == "" || directory.toList.getLast? == some '/' then directory ++ path else directory ++ "/" ++ path

end Place

/-! ## File trees -/

/-- What stands at a place. -/
inductive FileEntry where
  | directory
  | file (bytes : ByteArray)
  deriving Inhabited

instance : DecidableEq FileEntry
  | .directory, .directory => isTrue rfl
  | .file a, .file b => decidable_of_iff (a.data = b.data) (by simp [ByteArray.ext_iff])
  | .directory, .file _ | .file _, .directory => isFalse nofun

/-- A file tree: what stands at the places below its root, by the names on the way. -/
structure Files where
  entries : List (List String × FileEntry) := []
  deriving DecidableEq, Inhabited

namespace Files

/-- What stands at a place. The root is a directory. -/
def get? (files : Files) (names : List String) : Option FileEntry :=
  if names = [] then some .directory else files.entries.lookup names

/-- Lets an entry stand at a place, instead of what stood there. -/
def put (files : Files) (names : List String) (entry : FileEntry) : Files :=
  ⟨(names, entry) :: files.entries.filter fun e => e.1 != names⟩

/-- Takes away what stands at a place, and all below it. -/
def remove (files : Files) (names : List String) : Files :=
  ⟨files.entries.filter fun e => !names.isPrefixOf e.1⟩

theorem get?_put_self (files : Files) {names : List String} (h : names ≠ []) (entry : FileEntry) :
    (files.put names entry).get? names = some entry := by
  simp [get?, put, h]

/-- A filter that keeps the entries at a place keeps what is found there. -/
theorem lookup_filter_ne {names other : List String} (h : other ≠ names) (entries : List (List String × FileEntry)) :
    (entries.filter fun e => e.1 != names).lookup other = entries.lookup other := by
  induction entries with
  | nil => rfl
  | cons e entries ih =>
    obtain ⟨place, entry⟩ := e
    by_cases hp : place = names
    · have hne : (other == place) = false := by simpa [hp] using h
      simp [hp, List.lookup_cons, ih, hp ▸ hne]
    · by_cases ho : (other == place) = true
      · simp [hp, List.lookup_cons, ho]
      · simp [hp, List.lookup_cons, ho, ih]

theorem get?_put_of_ne (files : Files) {names other : List String} (h : other ≠ names) (entry : FileEntry) :
    (files.put names entry).get? other = files.get? other := by
  have hne : (other == names) = false := by simpa using h
  simp [get?, put, List.lookup_cons, hne, lookup_filter_ne h]

/-! ## Directories -/

/-- Passes if every place on the way down from a directory is a directory; else the first that is none is at fault. -/
def descend (files : Files) (above : List String) : List String → Except FileFault Unit
  | [] => .ok ()
  | name :: rest =>
    match files.get? (above ++ [name]) with
    | some .directory => files.descend (above ++ [name]) rest
    | some (.file _) => .error .notADirectory
    | none => .error .notFound

/-- Makes the directories that are missing on the way down from a directory. -/
def makeDirectories (files : Files) (above : List String) : List String → Except FileFault Files
  | [] => .ok files
  | name :: rest =>
    match files.get? (above ++ [name]) with
    | some .directory => files.makeDirectories (above ++ [name]) rest
    | some (.file _) => .error .notADirectory
    | none => (files.put (above ++ [name]) .directory).makeDirectories (above ++ [name]) rest

/-! ## Files -/

/-- The bytes of the file at a place. -/
def read (files : Files) (place : Place) : Except FileFault ByteArray := do
  files.descend [] place.parent
  match files.get? place.names, place.ending with
  | some .directory, _ => throw .isADirectory
  | some (.file bytes), .name => return bytes
  | some (.file _), _ => throw .notADirectory
  | none, _ => throw .notFound

/-- The text of the file at a path. -/
def readText (files : Files) (path : String) : Except FileFault String := do
  match String.fromUTF8? (← files.read (Place.ofPath path)) with
  | some text => return text
  | none => throw .notText

/-- Writes a file at a place whose directory exists. A path that ends in a slash or a dot names no file. -/
def write (files : Files) (place : Place) (bytes : ByteArray) : Except FileFault Files := do
  files.descend [] place.parent
  match files.get? place.names, place.ending with
  | some .directory, _ => throw .isADirectory
  | _, .name => return files.put place.names (.file bytes)
  | _, .slash => throw .isADirectory
  | some (.file _), .dot => throw .notADirectory
  | none, .dot => throw .notFound

end Files

end ContractBindings
