import ContractBindings.Number.Notation

/-!
# Document trees

The tree that a contract text stands for: scalars, sequences, and mappings whose entries keep their order and whose
keys may be any tree. A value may carry a local tag; the readers of parts (`get?`, `asText?`, …) look through tags, a
match on a constructor does not.
-/

namespace ContractBindings

open Number

/-- A document tree. -/
inductive Tree where
  | null
  | bool (value : Bool)
  | int (value : Int)
  | float (value : Binary64)
  | text (value : String)
  | sequence (items : List Tree)
  | mapping (entries : List (Tree × Tree))
  | tagged (tag : String) (value : Tree)
  deriving Repr, Inhabited

/-- The entries of a mapping, in document order. -/
abbrev Entries := List (Tree × Tree)

namespace Entries

/-- The value under a text key. -/
def get? (entries : Entries) (key : String) : Option Tree :=
  match entries with
  | [] => none
  | (.text k, v) :: rest => if k == key then some v else get? rest key
  | _ :: rest => get? rest key

/-- There is a value under a text key. -/
def hasKey (entries : Entries) (key : String) : Bool := (entries.get? key).isSome

end Entries

namespace Tree

/-- The tree without the tags in front of it. -/
def untag : Tree → Tree
  | .tagged _ value => value.untag
  | tree => tree

/-- The entries of a mapping. -/
def asMapping? (tree : Tree) : Option Entries :=
  match tree.untag with
  | .mapping entries => some entries
  | _ => none

/-- The items of a sequence. -/
def asSequence? (tree : Tree) : Option (List Tree) :=
  match tree.untag with
  | .sequence items => some items
  | _ => none

/-- The text of a text. -/
def asText? (tree : Tree) : Option String :=
  match tree.untag with
  | .text s => some s
  | _ => none

/-- The value of a truth value. -/
def asBool? (tree : Tree) : Option Bool :=
  match tree.untag with
  | .bool b => some b
  | _ => none

/-- The tree is null. -/
def isNull (tree : Tree) : Bool :=
  match tree.untag with
  | .null => true
  | _ => false

/-- The value under a text key of a mapping. -/
def get? (tree : Tree) (key : String) : Option Tree := tree.asMapping?.bind (·.get? key)

/-- The text of a mapping key in a pointer: numbers and truth values are written out, other keys have none. -/
def keyText? : Tree → Option String
  | .text s => some s
  | .int i => some (toString i)
  | .float x => some x.treeText
  | .bool b => some (if b then "true" else "false")
  | _ => none

/-- Two floating-point keys are the same number; what is no number is the same as itself. -/
def sameFloat (x y : Binary64) : Bool := x == y || x.sameNumber y

mutual

/-- Two trees are the same key: mappings are compared without regard to the order of their entries. -/
def same : Tree → Tree → Bool
  | .null, .null => true
  | .bool a, .bool b => a == b
  | .int a, .int b => a == b
  | .float a, .float b => sameFloat a b
  | .text a, .text b => a == b
  | .sequence a, .sequence b => sameItems a b
  | .mapping a, .mapping b => a.length == b.length && sameEntries a b
  | .tagged s a, .tagged t b => s == t && same a b
  | _, _ => false

/-- Two sequences agree item by item. -/
def sameItems : List Tree → List Tree → Bool
  | [], [] => true
  | a :: as, b :: bs => same a b && sameItems as bs
  | _, _ => false

/-- Every entry of the first mapping occurs in the second. -/
def sameEntries : List (Tree × Tree) → List (Tree × Tree) → Bool
  | [], _ => true
  | (k, v) :: rest, other => (other.any fun (l, w) => same k l && same v w) && sameEntries rest other

end

/-- A key occurs among the entries of a mapping. -/
def occursIn (key : Tree) (entries : List (Tree × Tree)) : Bool := entries.any fun (k, _) => same key k

end Tree

end ContractBindings
