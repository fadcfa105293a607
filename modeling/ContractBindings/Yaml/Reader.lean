import ContractBindings.Yaml.Node
import ContractBindings.Yaml.Scalar
import ContractBindings.Yaml.Token.Reader

/-!
# From YAML text to a document tree

Anchors are numbered in document order, then every alias is replaced by the node that its number stands for. A number
is the count of distinct anchor names before it, so a name that is used twice makes two anchors share a number; the
later one of the document counts. Collections nest at most 128 deep and aliases are followed at most a hundred times as
often as there are nodes, which also ends a node that contains itself.
-/

namespace ContractBindings.Yaml

/-- The anchors met so far: names with their numbers, and the numbered nodes, each with its place among all anchors. -/
structure Anchors where
  names : List (String × Nat)
  count : Nat
  nodes : List (Nat × Nat × Node Nat)

namespace Anchors

/-- No anchor. -/
def none : Anchors := ⟨[], 0, []⟩

/-- Gives the next anchor its number. -/
def number (a : Anchors) (name : String) : Nat × Anchors :=
  let id := a.names.length
  (id, { a with names := (name, id) :: a.names.filter (·.1 != name), count := a.count + 1 })

/-- The node that a number stands for: the latest of the document. -/
def node? (a : Anchors) (id : Nat) : Option (Node Nat) :=
  ((a.nodes.filter (·.1 == id)).foldl
    (fun (best : Option (Nat × Node Nat)) (_, place, node) =>
      match best with
      | some (p, n) => if place > p then some (place, node) else some (p, n)
      | .none => some (place, node))
    .none).map (·.2)

end Anchors

/-- The number and place of a node's anchor, if it has one. -/
def openAnchor (props : Properties) (a : Anchors) : Option (Nat × Nat) × Anchors :=
  match props.anchor with
  | some name =>
    let (id, next) := a.number name
    (some (id, a.count), next)
  | none => (none, a)

/-- Keeps the numbered node of an anchor. -/
def closeAnchor (anchor : Option (Nat × Nat)) (node : Node Nat) (a : Anchors) : Anchors :=
  match anchor with
  | some (id, place) => { a with nodes := (id, place, node) :: a.nodes }
  | none => a

mutual

/-- Replaces alias names by anchor numbers. An alias must follow its anchor. -/
def numberNode : WrittenNode → Anchors → Option (Node Nat × Anchors)
  | .alias name, a => (a.names.lookup name).map fun id => (.alias id, a)
  | .scalar props text style, a =>
    let (anchor, a) := openAnchor props a
    some (.scalar props text style, closeAnchor anchor (.scalar props text style) a)
  | .sequence props items, a => do
    let (anchor, a) := openAnchor props a
    let (items, a) ← numberItems items a
    some (.sequence props items, closeAnchor anchor (.sequence props items) a)
  | .mapping props entries, a => do
    let (anchor, a) := openAnchor props a
    let (entries, a) ← numberEntries entries a
    some (.mapping props entries, closeAnchor anchor (.mapping props entries) a)

/-- Replaces alias names in the items of a sequence. -/
def numberItems : List WrittenNode → Anchors → Option (List (Node Nat) × Anchors)
  | [], a => some ([], a)
  | node :: rest, a => do
    let (node, a) ← numberNode node a
    let (rest, a) ← numberItems rest a
    some (node :: rest, a)

/-- Replaces alias names in the entries of a mapping. -/
def numberEntries : List (WrittenNode × WrittenNode) → Anchors → Option (List (Node Nat × Node Nat) × Anchors)
  | [], a => some ([], a)
  | (key, value) :: rest, a => do
    let (key, a) ← numberNode key a
    let (value, a) ← numberNode value a
    let (rest, a) ← numberEntries rest a
    some ((key, value) :: rest, a)

end

mutual

/-- The number of marks that a node is written with: one for a scalar or an alias, two around a collection. -/
def Node.weight : Node α → Nat
  | .scalar .. => 1
  | .alias _ => 1
  | .sequence _ items => 2 + Node.weightOfItems items
  | .mapping _ entries => 2 + Node.weightOfEntries entries

/-- The weight of the items of a sequence. -/
def Node.weightOfItems : List (Node α) → Nat
  | [] => 0
  | node :: rest => node.weight + Node.weightOfItems rest

/-- The weight of the entries of a mapping. -/
def Node.weightOfEntries : List (Node α × Node α) → Nat
  | [] => 0
  | (key, value) :: rest => key.weight + value.weight + Node.weightOfEntries rest

end

/-- The name of a local tag, which begins with an exclamation mark. -/
def localTag? (props : Properties) : Option String :=
  match props.tag.map String.toList with
  | some ('!' :: rest) => some (String.ofList rest)
  | _ => none

/-- A local tag's name without a further exclamation mark in front. -/
def tagName (name : String) : String :=
  match name.toList with
  | '!' :: c :: rest => String.ofList (c :: rest)
  | _ => name

mutual

/-- The tree of a node. `depth` is how much deeper collections may nest, `jumps` how often an alias may still be
followed; `inTag` is set under a local tag, where the node's own tag has been read. -/
def expand (anchors : Anchors) (depth : Nat) (inTag : Bool) : Nat → Node Nat → Nat → Option (Tree × Nat)
  | 0, _, _ => none
  | fuel + 1, node, jumps =>
    let tag? (props : Properties) : Option String := if inTag then none else localTag? props
    match node with
    | .alias id =>
      if jumps = 0 then none
      else do
        let target ← anchors.node? id
        expand anchors depth false fuel target (jumps - 1)
    | .scalar props text style =>
      match tag? props with
      | some name => do
        if name == "" then none
        let (tree, jumps) ← expand anchors depth true fuel node jumps
        some (.tagged (tagName name) tree, jumps)
      | none => (scalarValue (if inTag then none else props.tag) style text).toOption.map fun tree => (tree, jumps)
    | .sequence props items =>
      match tag? props with
      | some name => do
        if name == "" then none
        let (tree, jumps) ← expand anchors depth true fuel node jumps
        some (.tagged (tagName name) tree, jumps)
      | none =>
        match depth with
        | 0 => none
        | depth + 1 => do
          let (items, jumps) ← expandItems anchors depth fuel items jumps
          some (.sequence items, jumps)
    | .mapping props entries =>
      match tag? props with
      | some name => do
        if name == "" then none
        let (tree, jumps) ← expand anchors depth true fuel node jumps
        some (.tagged (tagName name) tree, jumps)
      | none =>
        match depth with
        | 0 => none
        | depth + 1 => do
          let (entries, jumps) ← expandEntries anchors depth inTag fuel entries [] jumps
          some (.mapping entries, jumps)
termination_by structural fuel => fuel

/-- The trees of the items of a sequence. -/
def expandItems (anchors : Anchors) (depth : Nat) : Nat → List (Node Nat) → Nat → Option (List Tree × Nat)
  | 0, _, _ => none
  | _ + 1, [], jumps => some ([], jumps)
  | fuel + 1, node :: rest, jumps => do
    let (tree, jumps) ← expand anchors depth false fuel node jumps
    let (trees, jumps) ← expandItems anchors depth fuel rest jumps
    some (tree :: trees, jumps)
termination_by structural fuel => fuel

/-- The trees of the entries of a mapping after those before, the latest first. No key may occur twice. -/
def expandEntries (anchors : Anchors) (depth : Nat) (inTag : Bool) :
    Nat → List (Node Nat × Node Nat) → List (Tree × Tree) → Nat → Option (List (Tree × Tree) × Nat)
  | 0, _, _, _ => none
  | _ + 1, [], before, jumps => some (before.reverse, jumps)
  | fuel + 1, (key, value) :: rest, before, jumps => do
    let (key, jumps) ← expand anchors depth inTag fuel key jumps
    if key.occursIn before then none
    else do
      let (value, jumps) ← expand anchors depth false fuel value jumps
      expandEntries anchors depth inTag fuel rest ((key, value) :: before) jumps
termination_by structural fuel => fuel

end

/-- How deep collections may nest. -/
def maxDepth : Nat := 128

/-- The tree of a YAML text, if it holds one well-formed document. -/
def read? (text : String) : Option Tree := do
  let tokens ← tokens? text
  let written ← Node.document? tokens
  let (node, anchors) ← numberNode written Anchors.none
  let weight := node.weight
  let (tree, _) ← expand anchors maxDepth false ((weight + 3) * (maxDepth + 4)) node (100 * weight)
  some tree

end ContractBindings.Yaml
