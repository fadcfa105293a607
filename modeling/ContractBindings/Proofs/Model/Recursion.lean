import ContractBindings.Proofs.Model.Convention
import ContractBindings.Proofs.Schema.Reaching

/-!
# Recursive uses

While a definition is lowered, it stays the owner of all types that are made inside it, and the use of a definition closes
a cycle if it is a use of the owner or of a definition that leads back to it (`closes_iff`). Types inside definitions have
names that no definition has, so a name tells which definition is used, if any. That uses are marked as recursive
exactly where they close a cycle is then a convention for each owner (`Convention.recursive`), and that none is marked one
for operations, which have no owner (`Convention.unmarked`).
-/

namespace ContractBindings

open Naming

namespace Lowering

variable {g : SchemaGraph} {target : Target} {config : Config}

/-- The use of a definition closes a cycle if it is the owner or leads back to it. -/
theorem closes_iff {failed : List SchemaId} {owner used : SchemaId} :
    ((context g target config).about failed owner).closes used = true ↔
      used = owner ∨ Relation.TransGen g.Leads used owner := by
  have hlookup : (context g target config).reachable.lookup used =
      (g.get? used).map fun d => Edges.reachable g.edges d.id := lookup_map_key _ _ used g.definitions
  rw [Context.closes, Context.about, Option.elim, Bool.or_eq_true, beq_iff_eq, hlookup, List.contains_iff_mem,
    ← g.mem_reachable_iff_leads]
  refine or_congr_right ?_
  cases hget : g.get? used with
  | none =>
    -- no edge begins at what is no definition
    refine ⟨fun h => absurd h List.not_mem_nil, fun h => ?_⟩
    obtain ⟨next, ⟨node, hnode, -⟩, -⟩ := Relation.TransGen.head'_iff.1 (g.mem_reachable_iff_leads.1 h)
    simp [SchemaGraph.node?, hget] at hnode
  | some d =>
    have hid : d.id = used := by simpa using List.find?_some hget
    rw [Option.map_some, Option.getD_some, hid]

/-- A use is marked exactly if it closes a cycle back to the owner. -/
def Convention.recursive (g : SchemaGraph) (target : Target) (owner : SchemaId) : Convention where
  registry r := (named g target).registry.Le r
  base _ := True
  use name mark :=
    (∀ used, (named g target).names.lookup used = some name →
      (mark = true ↔ used = owner ∨ Relation.TransGen g.Leads used owner)) ∧
    (mark = true → ∃ used, (named g target).names.lookup used = some name)
  claimed := by
    intro r base hr _
    refine ⟨⟨fun used hused => ?_, fun h => by cases h⟩, hr.trans (r.le_claim base)⟩
    -- what is claimed is new, and the names of definitions are taken
    have htaken := ((named_spec g target).1.claimed _ (mem_of_lookup hused)).2
    exact absurd (hr htaken) (r.between_claim base).1
  titled _ _ _ _ := trivial
  suffixed _ _ := trivial
  inside _ := trivial

theorem Convention.recursive_fits (failed : List SchemaId) (owner : SchemaId) :
    (Convention.recursive g target owner).Fits ((context g target config).about failed owner) where
  definitions {id name} hname := by
    refine ⟨fun used hused => ?_, fun _ => ⟨id, hname⟩⟩
    rw [lookup_names_inj hused hname]
    exact closes_iff
  recorded p hp := by cases hp

/-- No use is marked. -/
def Convention.unmarked : Convention where
  registry _ := True
  base _ := True
  use _ mark := mark = false
  claimed _ _ := ⟨rfl, trivial⟩
  titled _ _ _ _ := trivial
  suffixed _ _ := trivial
  inside _ := trivial

theorem Convention.unmarked_fits (g : SchemaGraph) (target : Target) (config : Config) :
    Convention.unmarked.Fits (operationContext g target config) where
  definitions _ := rfl
  recorded p hp := by cases hp

/-- **The mark of recursive uses is exact.** The search for what a definition reaches ends, and finds each definition that is
reached over one or more references once and nothing else, whatever the cycles. Of the uses in the types that a definition
is lowered to, those of a definition are marked exactly if it is the same or leads back, and no other use is
marked. In the types that operations add, and in the operations, none is. -/
theorem ofGraph_recursion (g : SchemaGraph) (operations : List Operation) (target : Target) (config : Config) :
    (∀ x, Relation.ReflTransGen (Edges.Step g.edges) (Edges.of g.edges x, []) ([], Edges.reachable g.edges x) ∧
      (Edges.reachable g.edges x).Nodup ∧
      ∀ y, y ∈ Edges.reachable g.edges x ↔ Relation.TransGen g.Leads x y) ∧
    (∀ p ∈ (drafted g target config).drafts, ∀ t ∈ p.2.types, ∀ mark ∈ t.body.marks,
      (∀ used, (named g target).names.lookup used = some mark.1 →
        (mark.2 = true ↔ used = p.1 ∨ Relation.TransGen g.Leads used p.1)) ∧
      (mark.2 = true → ∃ used, (named g target).names.lookup used = some mark.1)) ∧
    (∃ added,
      (Model.ofGraph g operations target config).types = (kept g target config).flatMap (·.2.types) ++ added ∧
      ∀ t ∈ added, ∀ mark ∈ t.body.marks, mark.2 = false) ∧
    ∀ o ∈ (Model.ofGraph g operations target config).operations, ∀ mark ∈ o.marks, mark.2 = false := by
  obtain ⟨⟨added, htypes, hadded⟩, hoperations⟩ := ofGraph_obeys (fun _ _ => trivial)
    (Convention.unmarked_fits g target config) (fun _ _ => rfl) operations
  refine ⟨fun x => ⟨Edges.reachable_steps _ x, (Edges.searching_reachable _ x).nodup, fun y => ?_⟩, ?_,
    ⟨added, htypes, fun t ht => (hadded t ht).body.marks⟩, fun o ho => (hoperations o ho).marks⟩
  · exact g.mem_reachable_iff_leads
  · intro p hp t ht
    have hobeys : p.2.Obeys (Convention.recursive g target p.1) :=
      drafted_obeys (fun _ hle => hle) (fun failed => Convention.recursive_fits failed p.1) hp
    exact (hobeys.types t ht).body.marks

-- `Node` refers to itself and to `Tag`, and `A` and `B` refer to each other, `B` from a list
example :
    let node (id : String) (shape : Shape) : SchemaNode := .mk ⟨id⟩ none none false shape
    let definition (name : String) (shape : Shape) : Definition := ⟨⟨"#/" ++ name⟩, .ok (node ("#/" ++ name) shape)⟩
    let g : SchemaGraph := ⟨[
      definition "Node" (.object [("next", node "#/Node/next" (.reference ⟨"#/Node"⟩)),
        ("tag", node "#/Node/tag" (.reference ⟨"#/Tag"⟩))] [] none),
      definition "Tag" (.primitive .string none),
      definition "A" (.object [("b", node "#/A/b" (.reference ⟨"#/B"⟩))] [] none),
      definition "B" (.object [("a", node "#/B/a" (.array (some (node "#/B/a/items" (.reference ⟨"#/A"⟩)))))] [] none)]⟩
    (Model.ofGraph g [] .rust {}).types.map (fun t => (t.name, t.body.marks)) =
      [("Node", [("Node", true), ("Tag", false)]), ("Tag", []), ("A", [("B", true)]), ("B", [("A", true)])] := by
  decide +kernel

end Lowering

end ContractBindings
