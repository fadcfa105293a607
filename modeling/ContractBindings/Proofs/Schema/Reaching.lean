import Mathlib.Logic.Relation
import ContractBindings.Proofs.Lookup
import ContractBindings.Proofs.Schema.Inside

/-!
# The search finds what is reached

The search over the edges of definitions takes a step for the head of its queue: what is found already is passed over, the
edges of anything else enter the queue (`Step`). Each definition's edges enter the queue once, so the length of the queue
and the number of edges of definitions not found yet bound the steps that are left, and the search takes all of them
until the queue is empty (`search_steps`).

What every step keeps is that all that is found or in the queue is reached, and that nothing reached is missed: the edges
of what is found are found or in the queue (`Searching`). With an empty queue this says that what is found is what is
reached over one or more edges (`mem_reachable_iff`), cycles or not. The edges of a graph are the references that stand
in its definitions (`SchemaGraph.mem_edges_iff_leads`).
-/

namespace ContractBindings.Edges

variable {edges : Edges} {found queue : List SchemaId} {x y : SchemaId}

/-- The number of edges of definitions that are not found yet. -/
def pending (found : List SchemaId) : Edges → Nat
  | [] => 0
  | (id, targets) :: rest => (if found.contains id then 0 else targets.length) + pending found rest

theorem pending_le_count (found : List SchemaId) : ∀ edges : Edges, pending found edges ≤ edges.count
  | [] => Nat.le_refl _
  | (id, targets) :: rest => by
    have ih := pending_le_count found rest
    have hcount : Edges.count ((id, targets) :: rest) = targets.length + Edges.count rest := by simp [count]
    rw [pending, hcount]
    split <;> omega

theorem pending_anti (id : SchemaId) (found : List SchemaId) : ∀ edges : Edges,
    pending (id :: found) edges ≤ pending found edges
  | [] => Nat.le_refl _
  | (k, targets) :: rest => by
    have ih := pending_anti id found rest
    rw [pending, pending]
    by_cases hk : found.contains k = true
    · have hk' : (id :: found).contains k = true := by
        rw [List.contains_cons, hk, Bool.or_true]
      rw [hk, hk']
      simpa using ih
    · rw [Bool.not_eq_true] at hk
      rw [hk]
      split <;> simp <;> omega

/-- The edges of a definition that is found are no longer pending. -/
theorem pending_found {id : SchemaId} (hid : found.contains id = false) : ∀ edges : Edges,
    pending (id :: found) edges + (Edges.of edges id).length ≤ pending found edges
  | [] => by simp [pending, Edges.of]
  | (k, targets) :: rest => by
    rw [pending, pending]
    by_cases hk : id = k
    · subst hk
      have hof : Edges.of ((id, targets) :: rest) id = targets := by simp [Edges.of]
      have hanti := pending_anti id found rest
      have hself : (id :: found).contains id = true := by simp
      rw [hof, hid, hself]
      simp only [↓reduceIte, Bool.false_eq_true]
      omega
    · have hne : (id == k) = false := by simpa using hk
      have hof : Edges.of ((k, targets) :: rest) id = Edges.of rest id := by simp [Edges.of, List.lookup_cons, hne]
      have ih := pending_found hid rest
      have hsame : (id :: found).contains k = found.contains k := by
        rw [List.contains_cons, BEq.comm, hne, Bool.false_or]
      rw [hof, hsame]
      omega

/-! ## Steps -/

/-- A step of the search, on the queue and what is found: the head of the queue is passed over or its edges enter. -/
inductive Step (edges : Edges) : List SchemaId × List SchemaId → List SchemaId × List SchemaId → Prop
  | passed {id : SchemaId} {queue found : List SchemaId} : id ∈ found → Step edges (id :: queue, found) (queue, found)
  | entered {id : SchemaId} {queue found : List SchemaId} : id ∉ found →
    Step edges (id :: queue, found) (queue ++ edges.of id, id :: found)

/-- With enough steps the search runs until its queue is empty. -/
theorem search_steps : ∀ (fuel : Nat) (queue found : List SchemaId), queue.length + pending found edges ≤ fuel →
    Relation.ReflTransGen (Step edges) (queue, found) ([], edges.search fuel queue found)
  | 0, queue, found, hfuel => by
    obtain rfl : queue = [] := List.length_eq_zero_iff.1 (by omega)
    rw [search]
  | fuel + 1, [], found, _ => by rw [search]
  | fuel + 1, id :: queue, found, hfuel => by
    rw [List.length_cons] at hfuel
    rw [search]
    cases hid : found.contains id with
    | true =>
      have hrest := search_steps fuel queue found (by omega)
      exact .head (.passed (by simpa using hid)) hrest
    | false =>
      have hpending := pending_found hid edges
      have hlength : (queue ++ edges.of id).length + pending (id :: found) edges ≤ fuel := by
        rw [List.length_append]
        omega
      have hrest := search_steps fuel (queue ++ edges.of id) (id :: found) hlength
      exact .head (.entered (by simpa using hid)) hrest

/-- A search runs from the edges of its start until its queue is empty. -/
theorem reachable_steps (edges : Edges) (x : SchemaId) :
    Relation.ReflTransGen (Step edges) (edges.of x, []) ([], edges.reachable x) := by
  have hcount := pending_le_count [] edges
  have hfound : pending [x] edges + (edges.of x).length ≤ pending [] edges := pending_found rfl edges
  exact search_steps _ (edges.of x) [] (by omega)

/-! ## What is found -/

/-- A search that started at a definition: what is found, each once, or in the queue is reached from there, and nothing that
is reached is missed. -/
structure Searching (edges : Edges) (x : SchemaId) (s : List SchemaId × List SchemaId) : Prop where
  reached : ∀ y, y ∈ s.1 ∨ y ∈ s.2 → Relation.TransGen (fun x y => y ∈ edges.of x) x y
  start : ∀ y ∈ edges.of x, y ∈ s.1 ∨ y ∈ s.2
  closed : ∀ z ∈ s.2, ∀ y ∈ edges.of z, y ∈ s.1 ∨ y ∈ s.2
  nodup : s.2.Nodup

theorem Searching.init (edges : Edges) (x : SchemaId) : Searching edges x (edges.of x, []) where
  reached y h := .single (h.resolve_right List.not_mem_nil)
  start y h := .inl h
  closed z h := by cases h
  nodup := List.nodup_nil

theorem Searching.step {s s' : List SchemaId × List SchemaId} (h : Searching edges x s) (hstep : Step edges s s') :
    Searching edges x s' := by
  cases hstep with
  | @passed id queue found hid =>
    have hkeep {y : SchemaId} (hy : y ∈ id :: queue ∨ y ∈ found) : y ∈ queue ∨ y ∈ found := by
      rcases hy with hy | hy
      · exact (List.mem_cons.1 hy).elim (fun heq => .inr (heq ▸ hid)) .inl
      · exact .inr hy
    exact {
      reached := fun y hy => h.reached y (hy.imp (List.mem_cons_of_mem id) fun hy => hy)
      start := fun y hy => hkeep (h.start y hy)
      closed := fun z hz y hy => hkeep (h.closed z hz y hy)
      nodup := h.nodup }
  | @entered id queue found hid =>
    have hkeep {y : SchemaId} (hy : y ∈ id :: queue ∨ y ∈ found) : y ∈ queue ++ edges.of id ∨ y ∈ id :: found := by
      rcases hy with hy | hy
      · exact (List.mem_cons.1 hy).elim (fun heq => .inr (heq ▸ List.mem_cons_self))
          fun hy => .inl (List.mem_append_left _ hy)
      · exact .inr (List.mem_cons_of_mem id hy)
    have hhead := h.reached id (.inl List.mem_cons_self)
    exact {
      reached := by
        rintro y (hy | hy)
        · rcases List.mem_append.1 hy with hy | hy
          · exact h.reached y (.inl (List.mem_cons_of_mem id hy))
          · exact hhead.tail hy
        · rcases List.mem_cons.1 hy with rfl | hy
          · exact hhead
          · exact h.reached y (.inr hy)
      start := fun y hy => hkeep (h.start y hy)
      closed := by
        intro z hz y hy
        rcases List.mem_cons.1 hz with rfl | hz
        · exact .inl (List.mem_append_right _ hy)
        · exact hkeep (h.closed z hz y hy)
      nodup := List.nodup_cons.2 ⟨hid, h.nodup⟩ }

theorem Searching.run {s s' : List SchemaId × List SchemaId} (h : Searching edges x s)
    (hrun : Relation.ReflTransGen (Step edges) s s') : Searching edges x s' := by
  induction hrun with
  | refl => exact h
  | tail _ hstep ih => exact ih.step hstep

theorem searching_reachable (edges : Edges) (x : SchemaId) : Searching edges x ([], edges.reachable x) :=
  (Searching.init edges x).run (reachable_steps edges x)

/-- What is found is what is reached over one or more edges. -/
theorem mem_reachable_iff : y ∈ edges.reachable x ↔ Relation.TransGen (fun x y => y ∈ edges.of x) x y := by
  have hs := searching_reachable edges x
  constructor
  · exact fun hy => hs.reached y (.inr hy)
  · intro h
    induction h with
    | single hy => exact (hs.start _ hy).resolve_left List.not_mem_nil
    | tail _ hy ih => exact (hs.closed _ ih _ hy).resolve_left List.not_mem_nil

end ContractBindings.Edges

/-! ## The references of a graph -/

namespace ContractBindings.SchemaGraph

/-- A reference to the one definition stands in the other, at any depth. -/
def Leads (g : SchemaGraph) (x y : SchemaId) : Prop :=
  ∃ node, g.node? x = some node ∧
    (node.shape = .reference y ∨ ∃ m, node.shape.Holds m ∧ m.shape = .reference y)

/-- The edges of a definition are the references in it. -/
theorem mem_edges_iff_leads (g : SchemaGraph) {x y : SchemaId} : y ∈ Edges.of g.edges x ↔ g.Leads x y := by
  have hlookup : g.edges.lookup x = (g.get? x).map _ := lookup_map_key _ _ x g.definitions
  rw [Edges.of, hlookup, Leads, node?]
  cases g.get? x with
  | none => simp
  | some d =>
    cases hnode : d.node with
    | error e => simp [hnode, Except.toOption, sortedNames]
    | ok node =>
      simp [hnode, Except.toOption, mem_sortedIds, SchemaNode.references_eq, mem_references_iff]

/-- The search finds what a definition leads to over one or more references. -/
theorem mem_reachable_iff_leads (g : SchemaGraph) {x y : SchemaId} :
    y ∈ Edges.reachable g.edges x ↔ Relation.TransGen g.Leads x y := by
  have hedges : (fun x y => y ∈ Edges.of g.edges x) = g.Leads := by
    funext x y
    exact propext g.mem_edges_iff_leads
  rw [Edges.mem_reachable_iff, hedges]

end ContractBindings.SchemaGraph
