import Mathlib.Data.List.Perm.Subperm
import ContractBindings.Proofs.Generation.Stages
import ContractBindings.Proofs.Schema.Agreement
import ContractBindings.Proofs.Schema.Closing

/-!
# Sequences of calls

One table of definitions serves a whole document: the component schemas are opened, and schemas outside of them, as those
of bodies and parameters, are interpreted one after the other (`Call`). A call that fails leaves the table as it is then,
and the next call goes on from there (`runAll`).

However the references of the document loop, every call ends, a definition is interpreted at most once, and no more
definitions are opened than there are component schemas and targets of links (`calls_end`). Where no reference is
unresolved, the graph that is left in the end is closed (`calls_closed`).
-/

namespace ContractBindings

open Interpretation

/-- The definitions that the component schemas of a document are. -/
def Document.componentIds (d : Document) : List SchemaId :=
  (d.componentSchemas?.getD []).filterMap fun c =>
    c.1.keyText?.map fun name => SchemaId.child ⟨"#/components/schemas"⟩ name

/-- Two documents have the same component schemas, but for the values of definitions of a set. -/
def Document.Alike (K : List SchemaId) (d d' : Document) : Prop :=
  List.Forall₂ (fun c c' => c'.1 = c.1 ∧ ∀ name, c.1.keyText? = some name →
    SchemaId.child ⟨"#/components/schemas"⟩ name ∉ K → c'.2 = c.2)
    (d.componentSchemas?.getD []) (d'.componentSchemas?.getD [])

/-- A component schema is a part of the document, and opens one of the component definitions. -/
theorem Document.of_mem_componentSchemas {d : Document} {c : Tree × Tree} (hc : c ∈ d.componentSchemas?.getD []) :
    c.2.PartOf d.root ∧
      ∀ name, c.1.keyText? = some name → SchemaId.child ⟨"#/components/schemas"⟩ name ∈ d.componentIds := by
  constructor
  · obtain ⟨entries, hentries, hc⟩ := exists_of_mem_getD hc
    obtain ⟨schemas, hschemas, hmapping⟩ := Option.bind_eq_some_iff.1 hentries
    obtain ⟨components, hcomponents, hschemas⟩ := Option.bind_eq_some_iff.1 hschemas
    exact (Tree.partOf_of_mem_mapping hmapping hc).1.trans
      ((Tree.partOf_of_get? hschemas).trans (Tree.partOf_of_get? hcomponents))
  · intro name hname
    rw [componentIds, List.mem_filterMap]
    exact ⟨c, hc, by rw [hname]; rfl⟩

namespace Interpretation

variable {r r' : Resolver} {d d' : Document}

/-! ## Opening the component schemas -/

theorem components_agrees {K : List SchemaId} (h : r.Alike K r') (hd : d.Alike K d') :
    Agrees K (components r d) (components r' d') := by
  unfold components
  unfold Document.Alike at hd
  generalize d.componentSchemas?.getD [] = entries at hd
  generalize d'.componentSchemas?.getD [] = entries' at hd
  induction hd with
  | nil =>
    rw [List.forM, List.forM]
    exact .of_keys fun s => List.Subset.refl _
  | @cons c c' entries entries' hc _ ih =>
    obtain ⟨hkey, hvalue⟩ := hc
    rw [List.forM, List.forM]
    refine Agrees.bind ?_ fun _ => ih
    dsimp only
    rw [hkey]
    cases hname : c.1.keyText? with
    | none => exact .of_keys fun s => List.Subset.refl _
    | some name => exact define_agrees (hvalue name hname) (visit_agrees h _ _)

/-! ## Calls -/

/-- What is asked of an interpreter: to open the component schemas, or to interpret a schema outside of them. -/
inductive Call where
  | components
  | inline (tree : Tree) (id : SchemaId)

namespace Call

/-- The schema that is to be interpreted is a part of the document. -/
def On (root : Tree) : Call → Prop
  | .components => True
  | .inline tree _ => tree.PartOf root

/-- What a call does. A schema outside of the components is answered with its node. -/
def interpret (r : Resolver) (d : Document) : Call → Interpretation (Option SchemaNode)
  | .components => do
    Interpretation.components r d
    return none
  | .inline tree id => some <$> visit r tree id

variable {c : Call}

theorem walks (hr : r.Serves d.root) (hc : c.On d.root) :
    Walks (fun k => k ∈ d.componentIds ∨ k ∈ Reference.targets d.root) (c.interpret r d) := by
  have hvisit {tree : Tree} (htree : tree.PartOf d.root) (id : SchemaId) :
      Walks (fun k => k ∈ d.componentIds ∨ k ∈ Reference.targets d.root) (visit r tree id) :=
    fun s => (node_walks hr _ tree id htree s).mono (fun _ _ h => h.mono fun _ => .inr) fun _ _ h => h.mono fun _ => .inr
  cases c with
  | components =>
    refine Walks.bind (components_induction (fun s => ends_pure.2 (.refl s)) (fun hx hy => hx.bind fun _ => hy) ?_)
      fun _ s => ends_pure.2 (.refl s)
    intro c hc name hname
    obtain ⟨hpart, hids⟩ := Document.of_mem_componentSchemas hc
    exact define_walks (hvisit hpart _) (.inl (hids name hname))
  | inline tree id => exact fun s => ends_map.2 (hvisit hc id s)

theorem halts (hr : r.Serves d.root) (hc : c.On d.root) :
    Halts d.root ((Reference.targets d.root).length * (d.root.size + 1)) (c.interpret r d) := by
  cases c with
  | components =>
    refine Halts.bind (components_induction .pure (fun hx hy => hx.bind fun _ => hy) ?_) fun _ => .pure
    intro c hc name _
    refine define_halts fun s _ _ => ⟨_, ?_, visit_halts hr (Document.of_mem_componentSchemas hc).1 _⟩
    exact Nat.mul_le_mul_right _ (Slots.unopened_le_length _ _)
  | inline tree id => exact fun s hs => ends_map.2 (visit_halts hr hc id s hs)

theorem closes (r : Resolver) (d : Document) (c : Call) :
    Closes (fun answer s => ∀ n, answer = some n → s.Covers n.shape) (c.interpret r d) := by
  cases c with
  | components =>
    refine (components_closes r d).bind (fun _ _ _ _ _ => trivial) fun _ => .pure fun s _ n hn => ?_
    cases hn
  | inline tree id =>
    refine fun s hs => ends_map.2 ((visit_closes r tree id s hs).mono (fun n s' h => ?_) fun _ _ h => h)
    refine ⟨h.1, h.2.1, fun m hm => ?_⟩
    cases hm
    exact h.2.2

theorem lands (hr : r.Rooted) (c : Call) : Lands default (c.interpret r d) fun _ _ => True := by
  cases c with
  | components =>
    refine (componentList_lands hr _).bind (fun _ _ => trivial) fun _ => Lands.pure fun _ _ _ => trivial
  | inline tree id => exact Lands.map (visit_lands hr tree id).elsewhere

theorem agrees {K : List SchemaId} (h : r.Alike K r') (hd : d.Alike K d') (c : Call) :
    Agrees K (c.interpret r d) (c.interpret r' d') := by
  cases c with
  | components => exact (components_agrees h hd).bind fun _ => .of_keys fun s => List.Subset.refl _
  | inline tree id =>
    have hmap (r : Resolver) (d : Document) : Call.interpret r d (.inline tree id) =
        visit r tree id >>= fun n => Pure.pure (some n) := map_eq_pure_bind _ _
    rw [hmap, hmap]
    exact (visit_agrees h tree id).bind fun n => .of_keys fun s => List.Subset.refl _

end Call

/-! ## Runs -/

/-- The answers to calls in order, and the table after them. -/
def runAll (r : Resolver) (d : Document) : List Call → Slots → List (Except InterpretError (Option SchemaNode)) × Slots
  | [], s => ([], s)
  | c :: calls, s =>
    let (answer, s') := (c.interpret r d).run.run s
    let (answers, last) := runAll r d calls s'
    (answer :: answers, last)

/-- An answer that is no failure to resolve a reference. -/
def Resolved : Except InterpretError α → Prop
  | .error (.unresolved _) => False
  | _ => True

instance {answer : Except InterpretError α} : Decidable (Resolved answer) := by
  unfold Resolved
  split <;> infer_instance

variable {calls : List Call} {s : Slots}

/-- No run is too deep. -/
theorem runAll_halts (hr : r.Serves d.root) (hcalls : ∀ c ∈ calls, c.On d.root) (s : Slots) :
    ∀ answer ∈ (runAll r d calls s).1, answer ≠ .error .tooDeep := by
  induction calls generalizing s with
  | nil => simp [runAll]
  | cons c calls ih =>
    intro answer hanswer
    rcases List.mem_cons.1 hanswer with rfl | hanswer
    · exact (Call.halts hr (hcalls c List.mem_cons_self)).never_tooDeep s
    · exact ih (fun c' hc' => hcalls c' (List.mem_cons_of_mem _ hc')) _ answer hanswer

theorem runAll_walk (hr : r.Serves d.root) (hcalls : ∀ c ∈ calls, c.On d.root) (s : Slots) :
    Slots.Walk (fun k => k ∈ d.componentIds ∨ k ∈ Reference.targets d.root) s (runAll r d calls s).2 := by
  induction calls generalizing s with
  | nil => exact .refl s
  | cons c calls ih =>
    have hcall := (Call.walks hr (hcalls c List.mem_cons_self)).walk s
    exact hcall.trans (ih (fun c' hc' => hcalls c' (List.mem_cons_of_mem _ hc')) _)

/-- What every call keeps that ends and resolves its references: definitions that it opens are finished, and they name
open definitions only, as its answer does. -/
theorem Call.settles (hr : r.Rooted) (c : Call) (hdeep : ((c.interpret r d).run.run s).1 ≠ .error .tooDeep)
    (hresolved : Resolved ((c.interpret r d).run.run s).1) (hgood : s.Good) (hclosed : s.Closed) :
    s.Grows ((c.interpret r d).run.run s).2 ∧ ((c.interpret r d).run.run s).2.Good ∧
      ((c.interpret r d).run.run s).2.Closed ∧
        ∀ n, ((c.interpret r d).run.run s).1 = .ok (some n) → ((c.interpret r d).run.run s).2.Covers n.shape := by
  have hlands := c.lands (d := d) hr s hgood
  have hcloses := Call.closes r d c s hclosed
  rcases hrun : (c.interpret r d).run.run s with ⟨e | a, s'⟩
  · rw [hrun] at hdeep hresolved
    cases e with
    | schema e =>
      obtain ⟨hgrows, hgood'⟩ := hlands.failure hrun e rfl
      exact ⟨hgrows, hgood', (hcloses.failure hrun e rfl).1, by simp⟩
    | unresolved e => exact hresolved.elim
    | tooDeep => exact absurd rfl hdeep
  · obtain ⟨hgrows, hgood', -⟩ := hlands.answer hrun
    obtain ⟨hclosed', -, hcovers⟩ := hcloses.answer hrun
    refine ⟨hgrows, hgood', hclosed', fun n hn => hcovers n ?_⟩
    simpa using hn

/-- What all calls of a run keep if they end and resolve their references. -/
theorem runAll_settles (hr : r.Rooted) (hdeep : ∀ answer ∈ (runAll r d calls s).1, answer ≠ .error .tooDeep)
    (hresolved : ∀ answer ∈ (runAll r d calls s).1, Resolved answer) (hgood : s.Good) (hclosed : s.Closed) :
    s.Grows (runAll r d calls s).2 ∧ (runAll r d calls s).2.Closed ∧
      ∀ n, .ok (some n) ∈ (runAll r d calls s).1 → (runAll r d calls s).2.Covers n.shape := by
  induction calls generalizing s with
  | nil => exact ⟨.refl s, hclosed, by simp [runAll]⟩
  | cons c calls ih =>
    obtain ⟨hgrows, hgood', hclosed', hcovers⟩ := c.settles (d := d) hr (hdeep _ List.mem_cons_self)
      (hresolved _ List.mem_cons_self) hgood hclosed
    obtain ⟨hgrows', hlast, hcovers'⟩ := ih (fun answer h => hdeep answer (List.mem_cons_of_mem _ h))
      (fun answer h => hresolved answer (List.mem_cons_of_mem _ h)) hgood' hclosed'
    refine ⟨hgrows.trans hgrows', hlast, fun n hn => ?_⟩
    rcases List.mem_cons.1 hn with hn | hn
    · exact (hcovers n hn.symm).mono fun k hk => hgrows'.opened hk
    · exact hcovers' n hn

/-! ## Main results -/

/-- The table lists definitions in the order in which they are first reached: those that are open keep their places, and
one that is reached and not open comes next. -/
structure Ordered (r : Resolver) (d : Document) : Prop where
  kept : ∀ c : Call, c.On d.root → ∀ s : Slots, s.map (·.1) <+: ((c.interpret r d).run.run s).2.map (·.1)
  next : ∀ (k : SchemaId) (tree : Tree), tree.PartOf d.root → ∀ s : Slots, k ∉ s.map (·.1) →
    s.map (·.1) ++ [k] <+: ((define (visit r) k tree).run.run s).2.map (·.1)

theorem ordered (hr : r.Serves d.root) : Ordered r d where
  kept _ hc s := ((Call.walks hr hc).walk s).keys_isPrefix
  next _ _ htree _ hk := define_next (node_walks hr _ _ _ htree) hk

/-- A schema outside of the components: a list of nodes. -/
def nodeList : Tree :=
  .mapping [(.text "type", .text "array"), (.text "items", .mapping [(.text "$ref", .text "#/components/schemas/Node")])]

/-- A document whose references loop: a node holds another one and a choice, and the other component holds the choice
that selects it. -/
def loopingDocument : Document :=
  ⟨⟨"", "", none⟩, .mapping [(.text "body", nodeList), (.text "components", .mapping [(.text "schemas", .mapping [
    (.text "Node", .mapping [(.text "properties", .mapping [
      (.text "next", .mapping [(.text "$ref", .text "#/components/schemas/Node")]),
      (.text "kind", .mapping [(.text "oneOf", .sequence [.mapping [(.text "$ref", .text "#/components/schemas/Leaf")]]),
        (.text "discriminator", .mapping [(.text "propertyName", .text "tag"),
          (.text "mapping", .mapping [(.text "leaf", .text "Leaf")])])])])]),
    (.text "Leaf", .mapping [(.text "items", .mapping [
      (.text "$ref", .text "#/components/schemas/Node/properties/kind")])])])])]⟩

/-- A run on the document: the component schemas and the list, twice. -/
def loopingCalls : List Call := [.inline nodeList ⟨"#/body"⟩, .components, .inline nodeList ⟨"#/body"⟩]

theorem loopingCalls_on : ∀ c ∈ loopingCalls, c.On loopingDocument.root := by
  have hpart : nodeList.PartOf loopingDocument.root := .value List.mem_cons_self (.self nodeList)
  simpa [loopingCalls, Call.On] using hpart

/-- The graph of the definitions is closed after calls that resolve their references: no definition is left unfinished or
dropped, and all that definitions and answers name, at any depth, are definitions of the graph. They stand in the order
in which they were first reached. -/
theorem runAll_closed (hr : r.Serves d.root) (hcalls : ∀ c ∈ calls, c.On d.root)
    (hresolved : ∀ answer ∈ (runAll r d calls []).1, Resolved answer) :
    (∀ p ∈ (runAll r d calls []).2, p.2.isSome = true) ∧
      (runAll r d calls []).2.graph.definitions.map (·.id) = (runAll r d calls []).2.map (·.1) ∧
      (∀ definition ∈ (runAll r d calls []).2.graph.definitions, ∀ n, definition.node = .ok n →
        ∀ k, n.shape.LinksTo k → k ∈ (runAll r d calls []).2.graph.definitions.map (·.id)) ∧
      (∀ n, .ok (some n) ∈ (runAll r d calls []).1 →
        ∀ k, n.shape.LinksTo k → k ∈ (runAll r d calls []).2.graph.definitions.map (·.id)) ∧
      Ordered r d := by
  have hgood : Slots.Good [] := by
    intro _ k n hk
    cases hk
  have hclosed : Slots.Closed [] := by
    intro k n hk
    cases hk
  obtain ⟨hgrows, hlast, hcovers⟩ :=
    runAll_settles hr.faithful.rooted (runAll_halts hr hcalls []) hresolved hgood hclosed
  rw [Slots.graph_ids hgrows]
  refine ⟨fun p hp => hgrows.isSome_of_mem hp, rfl, ?_, hcovers, ordered hr⟩
  intro definition hmem n hn
  have hfinished : (runAll r d calls []).2.Finished definition.id n := by
    have hlookup := lookup_of_mem hgrows.nodup_nil (Slots.mem_graph.1 hmem)
    rwa [hn] at hlookup
  exact hlast hfinished

/-- All definitions of the loops are finished, and what they name is in the graph. -/
theorem runAll_closed_loopingCalls :
    let final := (runAll (.new loopingDocument.root) loopingDocument loopingCalls []).2
    final.graph.definitions.map (·.id.pointer) =
      ["#/components/schemas/Node", "#/components/schemas/Leaf", "#/components/schemas/Node/properties/kind"] ∧
    (∀ p ∈ final, p.2.isSome = true) ∧
    ∀ definition ∈ final.graph.definitions, ∀ n, definition.node = .ok n →
      ∀ k, n.shape.LinksTo k → k ∈ final.graph.definitions.map (·.id) := by
  have h := runAll_closed (Resolver.serves_new loopingDocument.root) loopingCalls_on (by decide +kernel)
  exact ⟨by decide +kernel, h.1, h.2.2.1⟩

end Interpretation

end ContractBindings
