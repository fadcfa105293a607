import Mathlib.Data.List.Dedup
import ContractBindings.Proofs.Schema.Confined

/-!
# How the table of definitions changes

Interpretation changes the table of definitions in steps of two kinds: a definition that is not open is opened at the
end of the table, or one that is being interpreted is finished (`Slots.Steps`). So the table lists the definitions in
the order in which they were opened (`Steps.keys_eq`), none is opened twice, and none is finished twice
(`Steps.nodup`).

Whatever becomes of an interpretation, the steps on its way open definitions that links of the document lead to, and
finish none but those (`node_walks`).
-/

namespace ContractBindings

open Interpretation

/-! ## Resolved links -/

namespace Reference

/-- The definitions that the links of a document lead to, each once. -/
def targets (root : Tree) : List SchemaId :=
  ((root.links .plain).filterMap fun text =>
    (resolve root text "#").toOption.map fun found => (⟨found.pointer⟩ : SchemaId)).dedup

theorem length_targets_le (root : Tree) : (targets root).length ≤ root.size := by
  have hdedup := (List.dedup_sublist ((root.links .plain).filterMap fun text =>
    (resolve root text "#").toOption.map fun found => (⟨found.pointer⟩ : SchemaId))).length_le
  have hfilter := List.length_filterMap_le
    (fun text => (resolve root text "#").toOption.map fun found => (⟨found.pointer⟩ : SchemaId)) (root.links .plain)
  have hlinks := Tree.length_links_le .plain root
  unfold targets
  omega

end Reference

/-- A resolver of a document, whatever it remembers. -/
structure Resolver.Serves (r : Resolver) (root : Tree) : Prop where
  root_eq : r.root = root
  bound_eq : r.bound = Reference.chainBound root
  faithful : r.Faithful

namespace Resolver

variable {r : Resolver} {root : Tree}

theorem serves_new (root : Tree) : (new root).Serves root := ⟨rfl, rfl, faithful_new root⟩

theorem serves_checkAll (root : Tree) : ((new root).checkAll).2.Serves root := by
  obtain ⟨hfaithful, hroot, hbound⟩ := faithful_checkAll root
  exact ⟨hroot, hbound, hfaithful⟩

/-- A resolver answers as the document tells. -/
theorem Serves.find_eq (h : r.Serves root) (text holder : String) :
    r.find text holder = Reference.resolve root text holder := by
  unfold find
  cases hknown : r.known.lookup text with
  | none =>
    dsimp only
    rw [h.root_eq, h.bound_eq, Reference.resolve]
  | some found =>
    have hchase := h.faithful _ (mem_of_lookup hknown)
    rw [h.root_eq, h.bound_eq] at hchase
    dsimp only
    rw [Reference.resolve, hchase]
    rfl

/-- What a resolver finds is a part of the document. -/
theorem Serves.partOf (h : r.Serves root) {text holder : String} {found : Reference.Resolved}
    (hf : r.find text holder = .ok found) : found.node.PartOf root := by
  have hchase := h.faithful.chase_of_find hf
  rw [h.root_eq] at hchase
  exact Tree.partOf_of_lookup (Reference.chase_spec hchase).2.1

/-- What a link leads to is a target, and a part of the document stands there. -/
theorem Serves.found (h : r.Serves root) {text holder : String} {found : Reference.Resolved}
    (hlink : text ∈ root.links .plain) (hf : r.find text holder = .ok found) :
    (⟨found.pointer⟩ : SchemaId) ∈ Reference.targets root ∧ found.node.PartOf root := by
  refine ⟨?_, h.partOf hf⟩
  have hchase := h.faithful.chase_of_find hf
  rw [Reference.targets, List.mem_dedup, List.mem_filterMap]
  rw [h.root_eq, h.bound_eq] at hchase
  refine ⟨text, hlink, ?_⟩
  rw [Reference.resolve, hchase]
  rfl

end Resolver

/-! ## Steps of the table -/

namespace Slots

/-- What happens to a definition. -/
inductive Event where
  | opened (id : SchemaId)
  | finished (id : SchemaId)
  deriving DecidableEq

/-- The definition that an event opens. -/
def Event.opened? : Event → Option SchemaId
  | .opened id => some id
  | .finished _ => none

/-- A table becomes another by events in order. -/
inductive Steps : List Event → Slots → Slots → Prop
  | refl (s : Slots) : Steps [] s s
  | opened {events : List Event} {s s' : Slots} {k : SchemaId} : k ∉ s.map (·.1) →
      Steps events (s ++ [(k, none)]) s' → Steps (.opened k :: events) s s'
  | finished {events : List Event} {s s' : Slots} {k : SchemaId} {answer : Except SchemaError SchemaNode} :
      s.lookup k = some none → Steps events (upsert s k (some answer)) s' → Steps (.finished k :: events) s s'

theorem keys_upsert_of_mem {κ α : Type} [BEq κ] [LawfulBEq κ] {l : List (κ × α)} {k : κ} {v : α}
    (h : k ∈ l.map (·.1)) : (upsert l k v).map (·.1) = l.map (·.1) := by
  induction l with
  | nil => cases h
  | cons p l ih =>
    rw [upsert]
    by_cases hk : p.1 = k
    · rw [hk, BEq.rfl, if_pos rfl, List.map_cons, List.map_cons, hk]
    · have hb : (p.1 == k) = false := by simpa using hk
      have hmem : k ∈ l.map (·.1) := (List.mem_cons.1 h).resolve_left fun he => hk he.symm
      rw [hb, if_neg Bool.false_ne_true, List.map_cons, List.map_cons, ih hmem]

namespace Steps

variable {events events' : List Event} {s s' s'' : Slots} {k : SchemaId}

theorem trans (h : Steps events s s') (h' : Steps events' s' s'') : Steps (events ++ events') s s'' := by
  induction h with
  | refl => exact h'
  | opened hk _ ih => exact .opened hk (ih h')
  | finished hk _ ih => exact .finished hk (ih h')

/-- The table lists the definitions in the order in which they were opened. -/
theorem keys_eq (h : Steps events s s') : s'.map (·.1) = s.map (·.1) ++ events.filterMap Event.opened? := by
  induction h with
  | refl => simp
  | opened _ _ ih => simp [ih, Event.opened?]
  | @finished events s s' k answer hk _ ih =>
    have hmem : k ∈ s.map (·.1) := lookup_isSome_iff.1 (by simp [hk])
    rw [ih, keys_upsert_of_mem hmem]
    rfl

theorem keys_subset (h : Steps events s s') : s.map (·.1) ⊆ s'.map (·.1) := by
  rw [h.keys_eq]
  exact List.subset_append_left _ _

/-- A definition that is open is not opened. -/
theorem opened_not_mem (h : Steps events s s') (hk : k ∈ s.map (·.1)) : .opened k ∉ events := by
  induction h with
  | refl => simp
  | @opened events s s' k' hk' _ ih =>
    have hrest : .opened k ∉ events := ih (by simp [hk])
    have hne : k ≠ k' := fun he => hk' (he ▸ hk)
    simpa [hne] using hrest
  | @finished events s s' k' answer hk' _ ih =>
    have hrest : .opened k ∉ events := ih ((mem_keys_upsert s).2 (.inl hk))
    simpa using hrest

/-- A definition that has content keeps it, and one that is not finished on the way keeps its state. -/
theorem lookup_eq (h : Steps events s s') (hk : k ∈ s.map (·.1)) (hfinished : .finished k ∉ events) :
    s'.lookup k = s.lookup k := by
  induction h with
  | refl => rfl
  | @opened events s s' k' hk' _ ih =>
    have hne : k ≠ k' := fun he => hk' (he ▸ hk)
    rw [ih (by simp [hk]) (fun hmem => hfinished (List.mem_cons_of_mem _ hmem)), ← upsert_of_not_mem hk',
      lookup_upsert_of_ne hne]
  | @finished events s s' k' answer hk' _ ih =>
    have hne : k ≠ k' := fun he => hfinished (he ▸ List.mem_cons_self)
    rw [ih ((mem_keys_upsert s).2 (.inl hk)) (fun hmem => hfinished (List.mem_cons_of_mem _ hmem)),
      lookup_upsert_of_ne hne]

/-- A definition that has content is not finished. -/
theorem finished_not_mem (h : Steps events s s') {v : Except SchemaError SchemaNode}
    (hk : s.lookup k = some (some v)) : .finished k ∉ events := by
  have hmem {s : Slots} {v : Except SchemaError SchemaNode} (hk : s.lookup k = some (some v)) : k ∈ s.map (·.1) :=
    lookup_isSome_iff.1 (by simp [hk])
  induction h with
  | refl => simp
  | @opened events s s' k' hk' _ ih =>
    have hne : k ≠ k' := fun he => hk' (he ▸ hmem hk)
    have hrest : .finished k ∉ events := ih (by rwa [← upsert_of_not_mem hk', lookup_upsert_of_ne hne])
    simpa using hrest
  | @finished events s s' k' answer hk' _ ih =>
    have hne : k ≠ k' := by
      rintro rfl
      rw [hk] at hk'
      cases hk'
    have hrest : .finished k ∉ events := ih (by rwa [lookup_upsert_of_ne hne])
    simpa [hne] using hrest

/-- No event happens twice. -/
theorem nodup (h : Steps events s s') : events.Nodup := by
  induction h with
  | refl => exact List.nodup_nil
  | @opened events s s' k hk hrest ih => exact List.nodup_cons.2 ⟨hrest.opened_not_mem (by simp), ih⟩
  | @finished events s s' k answer hk hrest ih =>
    exact List.nodup_cons.2 ⟨hrest.finished_not_mem (lookup_upsert_self s), ih⟩

end Steps

/-- On the way from one table to another definitions of a set are opened, and none but those are finished. -/
def Walk (T : SchemaId → Prop) (s s' : Slots) : Prop :=
  ∃ events, Steps events s s' ∧ (∀ k, .opened k ∈ events → T k) ∧ ∀ k, .finished k ∈ events → .opened k ∈ events

namespace Walk

variable {T : SchemaId → Prop} {s s' s'' : Slots} {k : SchemaId}

theorem refl (s : Slots) : Walk T s s := ⟨[], .refl s, by simp, by simp⟩

theorem mono {T' : SchemaId → Prop} (h : Walk T s s') (hT : ∀ k, T k → T' k) : Walk T' s s' := by
  obtain ⟨events, hsteps, hopened, hfinished⟩ := h
  exact ⟨events, hsteps, fun k hk => hT k (hopened k hk), hfinished⟩

theorem trans (h : Walk T s s') (h' : Walk T s' s'') : Walk T s s'' := by
  obtain ⟨events, hsteps, hopened, hfinished⟩ := h
  obtain ⟨events', hsteps', hopened', hfinished'⟩ := h'
  refine ⟨events ++ events', hsteps.trans hsteps', ?_, ?_⟩
  · intro k hk
    exact (List.mem_append.1 hk).elim (hopened k) (hopened' k)
  · intro k hk
    rcases List.mem_append.1 hk with hk | hk
    · exact List.mem_append_left _ (hfinished k hk)
    · exact List.mem_append_right _ (hfinished' k hk)

theorem keys_subset (h : Walk T s s') : s.map (·.1) ⊆ s'.map (·.1) := by
  obtain ⟨events, hsteps, -⟩ := h
  exact hsteps.keys_subset

/-- Definitions that were open keep their places. -/
theorem keys_isPrefix (h : Walk T s s') : s.map (·.1) <+: s'.map (·.1) := by
  obtain ⟨events, hsteps, -⟩ := h
  exact ⟨_, hsteps.keys_eq.symm⟩

/-- All definitions of a table that was empty differ and are of the set. -/
theorem keys_nodup (h : Walk T [] s) : (s.map (·.1)).Nodup ∧ ∀ k ∈ s.map (·.1), T k := by
  obtain ⟨events, hsteps, hopened, -⟩ := h
  have hkeys : s.map (·.1) = events.filterMap Event.opened? := by simpa using hsteps.keys_eq
  have hinjective : ∀ (a b : Event) (k : SchemaId), k ∈ a.opened? → k ∈ b.opened? → a = b := by
    intro a b k ha hb
    cases a <;> cases b <;> simp_all [Event.opened?]
  refine ⟨hkeys ▸ hsteps.nodup.filterMap hinjective, fun k hk => ?_⟩
  rw [hkeys] at hk
  obtain ⟨event, hevent, hid⟩ := List.mem_filterMap.1 hk
  cases event with
  | opened id =>
    cases hid
    exact hopened k hevent
  | finished id => cases hid

/-- Definitions that were open keep their state. -/
theorem lookup_eq (h : Walk T s s') (hk : k ∈ s.map (·.1)) : s'.lookup k = s.lookup k := by
  obtain ⟨events, hsteps, -, hfinished⟩ := h
  exact hsteps.lookup_eq hk fun hmem => hsteps.opened_not_mem hk (hfinished k hmem)

/-- Opening a definition, and what happens until it is finished. -/
theorem opened (hk : k ∉ s.map (·.1)) (hT : T k) (h : Walk T (upsert s k none) s') : Walk T s s' := by
  obtain ⟨events, hsteps, hopened, hfinished⟩ := h
  rw [upsert_of_not_mem hk] at hsteps
  refine ⟨.opened k :: events, .opened hk hsteps, ?_, ?_⟩
  · intro j hj
    rcases List.mem_cons.1 hj with hj | hj
    · cases hj
      exact hT
    · exact hopened j hj
  · intro j hj
    rcases List.mem_cons.1 hj with hj | hj
    · cases hj
    · exact List.mem_cons_of_mem _ (hfinished j hj)

/-- Opening a definition and finishing it. -/
theorem defined (hk : k ∉ s.map (·.1)) (hT : T k) (h : Walk T (upsert s k none) s')
    (answer : Except SchemaError SchemaNode) : Walk T s (upsert s' k (some answer)) := by
  have hopen : s'.lookup k = some none := by
    rw [h.lookup_eq ((mem_keys_upsert s).2 (.inr rfl)), lookup_upsert_self]
  obtain ⟨events, hsteps, hopened, hfinished⟩ := h
  rw [upsert_of_not_mem hk] at hsteps
  refine ⟨.opened k :: (events ++ [.finished k]), .opened hk (hsteps.trans (.finished hopen (.refl _))), ?_, ?_⟩
  · intro j hj
    rcases List.mem_cons.1 hj with hj | hj
    · cases hj
      exact hT
    · rcases List.mem_append.1 hj with hj | hj
      · exact hopened j hj
      · cases List.mem_singleton.1 hj
  · intro j hj
    rcases List.mem_cons.1 hj with hj | hj
    · cases hj
    · rcases List.mem_append.1 hj with hj | hj
      · exact List.mem_cons_of_mem _ (List.mem_append_left _ (hfinished j hj))
      · cases List.mem_singleton.1 hj
        exact List.mem_cons_self

end Walk

end Slots

namespace Interpretation

/-! ## Interpretations walk -/

/-- Whatever becomes of an interpretation, definitions of a set are opened on its way, and none but those finished. -/
def Walks (T : SchemaId → Prop) (x : Interpretation α) : Prop :=
  ∀ s : Slots, Ends x s (fun _ s' => Slots.Walk T s s') fun _ s' => Slots.Walk T s s'

variable {T : SchemaId → Prop}

/-- However an interpretation ends, the table after it is reached in steps. -/
theorem Walks.walk {x : Interpretation α} (hx : Walks T x) (s : Slots) : Slots.Walk T s (x.run.run s).2 := by
  have h := hx s
  rcases hrun : x.run.run s with ⟨e | a, s'⟩
  · exact h.failure hrun
  · exact h.answer hrun

theorem Walks.bind {x : Interpretation α} {f : α → Interpretation β} (hx : Walks T x) (hf : ∀ a, Walks T (f a)) :
    Walks T (x >>= f) := by
  refine fun s => ends_bind.2 ((hx s).mono (fun a s' h => ?_) fun _ _ h => h)
  exact (hf a s').mono (fun _ _ h' => h.trans h') fun _ _ h' => h.trans h'

theorem walks_flattened (id : SchemaId) (parts : List SchemaNode) : Walks T (flattened id parts) :=
  fun s => ends_flattened.2 ⟨fun _ _ => .refl s, fun _ _ => .refl s⟩

/-- A confined interpretation walks if the parts and the references do. -/
theorem Confined.walks {tree : Tree} {P : α → Slots → Prop} {x : Reading → Interpretation α} (h : Confined tree P x)
    {p : Reading} (hvisit : ∀ part id, part.PartOf tree → Walks T (p.visit part id))
    (hreference : ∀ text holder, text ∈ tree.links .plain →
      Walks T (Interpretation.reference p.resolver p.visit text holder)) :
    Walks T (x p) := by
  induction h with
  | pure _ => exact fun s => ends_pure.2 (.refl s)
  | throw => exact fun s => ends_throw.2 (.refl s)
  | visit hpart => exact hvisit _ _ hpart.partOf.1
  | reference hfollows => exact hreference _ _ hfollows.mem_links
  | composed _ ih => exact ih.bind fun parts => walks_flattened _ parts
  | bind _ _ _ ihx ihf => exact ihx.bind ihf
  | mono _ _ ih => exact ih

theorem define_walks {visit : Visit} {k : SchemaId} {tree : Tree} (hvisit : Walks T (visit tree k)) (hT : T k) :
    Walks T (define visit k tree) := by
  intro s
  rw [define]
  refine ends_bind.2 (ends_get.2 ?_)
  cases hopen : s.isOpen k with
  | true => exact ends_pure.2 (.refl s)
  | false =>
    have hnew : k ∉ s.map (·.1) := by
      rw [← lookup_isSome_iff]
      rw [Slots.isOpen] at hopen
      simp [hopen]
    refine ends_bind.2 (ends_modify.2 (ends_bind.2 (ends_catchSchema ?_)))
    refine (hvisit _).mono (fun n s' h => ?_) fun e s' h => ⟨fun err _ => ?_, fun _ => ?_⟩
    · exact ends_modify.2 (.defined hnew hT h _)
    · exact ends_modify.2 (.defined hnew hT h _)
    · exact .opened hnew hT h

/-- A definition that is reached and not open comes next. -/
theorem define_next {visit : Visit} {k : SchemaId} {tree : Tree} (hvisit : Walks T (visit tree k)) {s : Slots}
    (hk : k ∉ s.map (·.1)) : s.map (·.1) ++ [k] <+: ((define visit k tree).run.run s).2.map (·.1) := by
  have hends : Ends (define visit k tree) s (fun _ s' => s.map (·.1) ++ [k] <+: s'.map (·.1))
      fun _ s' => s.map (·.1) ++ [k] <+: s'.map (·.1) := by
    have hopen : s.isOpen k = false := by
      rw [Slots.isOpen, ← Bool.not_eq_true, lookup_isSome_iff]
      exact hk
    have hfirst : (upsert s k none).map (·.1) = s.map (·.1) ++ [k] := by simp [upsert_of_not_mem hk]
    have hlast {s' : Slots} (h : Slots.Walk T (upsert s k none) s') (answer : Except SchemaError SchemaNode) :
        s.map (·.1) ++ [k] <+: (upsert s' k (some answer)).map (·.1) := by
      have hmem : k ∈ s'.map (·.1) := h.keys_subset (by simp [hfirst])
      rw [Slots.keys_upsert_of_mem hmem, ← hfirst]
      exact h.keys_isPrefix
    rw [define]
    refine ends_bind.2 (ends_get.2 ?_)
    rw [hopen]
    refine ends_bind.2 (ends_modify.2 (ends_bind.2 (ends_catchSchema ?_)))
    refine (hvisit _).mono (fun n s' h => ?_) fun e s' h => ⟨fun err _ => ?_, fun _ => ?_⟩
    · exact ends_modify.2 (hlast h _)
    · exact ends_modify.2 (hlast h _)
    · exact hfirst ▸ h.keys_isPrefix
  rcases hrun : (define visit k tree).run.run s with ⟨e | a, s'⟩
  · exact hends.failure hrun
  · exact hends.answer hrun

/-- The interpretation of a part of a document opens definitions that links of the document lead to. -/
theorem node_walks {r : Resolver} {root : Tree} (hr : r.Serves root) (depth : Nat) :
    ∀ (tree : Tree) (id : SchemaId), tree.PartOf root → Walks (· ∈ Reference.targets root) (node r depth tree id) := by
  induction depth with
  | zero => exact fun tree id _ s => ends_throw.2 (.refl s)
  | succ depth ih =>
    intro tree id htree
    have hvisit : ∀ part id, part.PartOf tree → Walks (· ∈ Reference.targets root) (node r depth part id) :=
      fun part id hpart => ih part id (hpart.trans htree)
    refine (level_confined tree id).walks (p := ⟨r, node r depth⟩) hvisit fun text holder hlink => ?_
    unfold reference
    dsimp only
    split
    · next found hfound =>
      obtain ⟨htarget, hpart⟩ := hr.found (htree.links_subset hlink) hfound
      refine Walks.bind (define_walks (ih _ _ hpart) htarget) fun _ => ?_
      exact fun s => ends_pure.2 (.refl s)
    · exact fun s => ends_throw.2 (.refl s)

end Interpretation

end ContractBindings
