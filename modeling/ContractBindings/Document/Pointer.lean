import ContractBindings.Document.Tree
import ContractBindings.Number.Reading

/-!
# Pointers into a document

A pointer names a node by the way to it from the root: `#`, then each segment after a slash. In a segment a tilde is
written `~0` and a slash `~1`, so any key can be a segment. `lookup?` finds the node again that a walk along `child`
pointers came to.
-/

namespace ContractBindings.Pointer

/-- A segment as it is written in a pointer. -/
def escapeChars : List Char → List Char
  | [] => []
  | '~' :: cs => '~' :: '0' :: escapeChars cs
  | '/' :: cs => '~' :: '1' :: escapeChars cs
  | c :: cs => c :: escapeChars cs

/-- A segment read back from its written form. A tilde before another character stands for itself. -/
def unescapeChars : List Char → List Char
  | [] => []
  | '~' :: '0' :: cs => '~' :: unescapeChars cs
  | '~' :: '1' :: cs => '/' :: unescapeChars cs
  | c :: cs => c :: unescapeChars cs

/-- A segment as it is written in a pointer. -/
def escape (segment : String) : String := String.ofList (escapeChars segment.toList)

/-- A segment read back from its written form. -/
def unescape (segment : String) : String := String.ofList (unescapeChars segment.toList)

/-- The pointer of the node under a segment. -/
def child (parent segment : String) : String := parent ++ "/" ++ escape segment

/-- The parts between slashes, at least one. -/
def splitSlash : List Char → List (List Char)
  | [] => [[]]
  | c :: cs =>
    if c == '/' then [] :: splitSlash cs
    else
      match splitSlash cs with
      | [] => [[c]]
      | part :: parts => (c :: part) :: parts

/-- The node under a segment: the value of the first key written like it, or the item at that index. -/
def step? (node : Tree) (segment : String) : Option Tree :=
  match node with
  | .mapping entries => (entries.find? fun (key, _) => key.keyText? == some segment).map (·.2)
  | .sequence items => (Number.unsigned? segment.toList).bind fun i => items[i]?
  | _ => none

/-- The node at the end of a way of written segments. -/
def follow? (node : Tree) : List (List Char) → Option Tree
  | [] => some node
  | part :: parts => (step? node (String.ofList (unescapeChars part))).bind fun next => follow? next parts

/-- The node at a pointer. -/
def lookup? (root : Tree) (pointer : String) : Option Tree :=
  match pointer.toList with
  | ['#'] => some root
  | '#' :: '/' :: path => follow? root (splitSlash path)
  | _ => none

/-- The last segment of a pointer, read back from its written form. -/
def lastSegment (pointer : String) : String :=
  String.ofList (unescapeChars ((splitSlash pointer.toList).getLastD []))

end ContractBindings.Pointer
