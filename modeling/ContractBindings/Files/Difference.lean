import ContractBindings.Files
import ContractBindings.Text.Utf8

/-!
# Differences of file trees

What a step did to a file tree, as text: the files that are new or read otherwise than before and the directories that
are new, and the places at which nothing of the kind stands any more. The path of a directory ends in a slash.
-/

namespace ContractBindings.Files

/-- The path of an entry, with a slash after a directory. -/
def pathOf (names : List String) : FileEntry → String
  | .directory => "/".intercalate names ++ "/"
  | .file _ => "/".intercalate names

/-- The text of an entry; a directory has none. -/
def textOf : FileEntry → Option String
  | .directory => none
  | .file bytes => some (Text.ofBytes bytes)

/-- The paths with the texts of all entries. -/
def listing (files : Files) : List (String × Option String) :=
  files.entries.map fun (names, entry) => (pathOf names entry, textOf entry)

/-- What the later tree has that the earlier one has not, or has with another text. -/
def changed (earlier later : Files) : List (String × Option String) :=
  later.listing.filter fun (path, text) => earlier.listing.lookup path != some text

/-- The paths that the later tree has no longer, in ascending order. -/
def removed (earlier later : Files) : List String :=
  ((earlier.listing.map (·.1)).filter fun path => (later.listing.lookup path).isNone).mergeSort

end ContractBindings.Files
