import ContractBindings.Document.Pointer
import ContractBindings.Failure

/-!
# References in a document

A node refers to another by the text under its `$ref` key. A node that has a reference and no shape of its own is an
*alias*: resolving a reference passes over aliases to the first node that is none. `occurrences` lists every reference
of a document with the pointer of its node, in document order, and `resolve` follows one.

A resolver belongs to one document and remembers what it has resolved. It answers as if it remembered nothing.
-/

namespace ContractBindings.Reference

/-- The keys that give a node a shape of its own. -/
def shapeKeys : List String :=
  ["enum", "const", "oneOf", "anyOf", "allOf", "type", "properties", "additionalProperties", "items", "prefixItems"]

/-- The reference under the `$ref` key of a mapping. -/
def textOf? (entries : Entries) : Option String := (entries.get? "$ref").bind Tree.asText?

/-- The reference of an alias. -/
def aliasTarget? (node : Tree) : Option String := do
  let entries ← node.asMapping?
  let target ← textOf? entries
  if shapeKeys.any entries.hasKey then none else some target

/-- A reference with the pointer of the node that holds it. -/
structure Occurrence where
  reference : String
  holder : String
  deriving Repr, DecidableEq

mutual

/-- The references in a node that stands at a pointer, in document order. A tag adds nothing to the pointer; what stands
under a key that cannot be a segment is passed over. -/
def occurrences : Tree → String → List Occurrence
  | .mapping entries, pointer =>
    (match textOf? entries with
      | some reference => [⟨reference, pointer⟩]
      | none => []) ++ occurrencesOfEntries entries pointer
  | .sequence items, pointer => occurrencesOfItems items 0 pointer
  | .tagged _ value, pointer => occurrences value pointer
  | _, _ => []

/-- The references in the values of a mapping. -/
def occurrencesOfEntries : List (Tree × Tree) → String → List Occurrence
  | [], _ => []
  | (key, value) :: rest, pointer =>
    (match key.keyText? with
      | some segment => occurrences value (Pointer.child pointer segment)
      | none => []) ++ occurrencesOfEntries rest pointer

/-- The references in the items of a sequence from an index on. -/
def occurrencesOfItems : List Tree → Nat → String → List Occurrence
  | [], _, _ => []
  | item :: rest, index, pointer =>
    occurrences item (Pointer.child pointer (toString index)) ++ occurrencesOfItems rest (index + 1) pointer

end

/-- The node that a reference leads to, and the pointer it was found at. -/
structure Resolved where
  pointer : String
  node : Tree
  deriving Repr, Inhabited

/-- The end of a chain of aliases, given the references already passed. -/
def chase (root : Tree) : Nat → List String → String → Except UnresolvedCause Resolved
  | 0, _, _ => .error .loop
  | fuel + 1, passed, current =>
    if current.toList.head? != some '#' then .error .outsideDocument
    else if passed.contains current then .error .loop
    else
      match Pointer.lookup? root current with
      | none => .error .missing
      | some node =>
        match aliasTarget? node with
        | some next => chase root fuel (current :: passed) next
        | none => .ok ⟨current, node⟩

/-- A chain without repetition is no longer than this: all its references but the first occur in the document. -/
def chainBound (root : Tree) : Nat := (occurrences root "#").length + 2

/-- What a reference at a pointer resolves to. -/
def resolve (root : Tree) (reference holder : String) : Except Unresolved Resolved :=
  (chase root (chainBound root) [] reference).mapError fun cause => ⟨reference, holder, cause⟩

end ContractBindings.Reference

namespace ContractBindings

/-! ## Resolvers -/

open Reference

/-- A document's root with the references resolved so far. -/
structure Resolver where
  root : Tree
  bound : Nat
  known : List (String × Resolved)
  deriving Repr, Inhabited

namespace Resolver

/-- A resolver that has resolved nothing. -/
def new (root : Tree) : Resolver := ⟨root, chainBound root, []⟩

/-- What a reference at a pointer resolves to. -/
def find (r : Resolver) (reference holder : String) : Except Unresolved Resolved :=
  match r.known.lookup reference with
  | some resolved => .ok resolved
  | none => (chase r.root r.bound [] reference).mapError fun cause => ⟨reference, holder, cause⟩

/-- The resolver that remembers a successful answer. -/
def remember (r : Resolver) (reference : String) : Except Unresolved Resolved → Resolver
  | .ok resolved =>
    if (r.known.lookup reference).isSome then r else { r with known := (reference, resolved) :: r.known }
  | .error _ => r

/-- Resolves a reference and remembers the answer. -/
def resolve (r : Resolver) (reference holder : String) : Except Unresolved Resolved × Resolver :=
  let answer := r.find reference holder
  (answer, r.remember reference answer)

/-- Resolves references in order until one fails. -/
def resolveAll (r : Resolver) : List Occurrence → Except Unresolved Unit × Resolver
  | [] => (.ok (), r)
  | o :: rest =>
    match r.resolve o.reference o.holder with
    | (.ok _, r) => r.resolveAll rest
    | (.error e, r) => (.error e, r)

/-- Resolves every reference of the document in document order, and counts them. -/
def checkAll (r : Resolver) : Except Unresolved Nat × Resolver :=
  let all := occurrences r.root "#"
  match r.resolveAll all with
  | (.ok (), r) => (.ok all.length, r)
  | (.error e, r) => (.error e, r)

end Resolver

end ContractBindings
