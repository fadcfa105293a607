import ContractBindings.Proofs.Schema.Walks

/-!
# Interpretation keeps the table closed

In a closed table the finished definitions name only definitions that are open. An interpretation keeps the table closed,
also where it ends with a schema error, and what it answers with names only open definitions (`Closes`): a reference
is answered after its target was opened, and a composition takes over what finished definitions hold.
-/

namespace ContractBindings

namespace Slots

variable {s : Slots} {k : SchemaId}

/-- Opening a definition keeps a table closed. -/
theorem Closed.opened (h : s.Closed) (hk : k ∉ s.map (·.1)) : Closed (upsert s k none) := by
  intro j n hj
  have hne : j ≠ k := by
    rintro rfl
    rw [Finished, lookup_upsert_self] at hj
    cases hj
  rw [Finished, lookup_upsert_of_ne hne] at hj
  have hcovers : s.Covers n.shape := h hj
  exact hcovers.mono fun x hx => (mem_keys_upsert s).2 (.inl hx)

/-- Finishing a definition with a node that names open definitions keeps a table closed. -/
theorem Closed.finished (h : s.Closed) {answer : Except SchemaError SchemaNode}
    (hanswer : ∀ n, answer = .ok n → s.Covers n.shape) : Closed (upsert s k (some answer)) := by
  intro j n hj
  have hcovers : s.Covers n.shape := by
    by_cases hne : j = k
    · rw [Finished, hne, lookup_upsert_self] at hj
      exact hanswer n (by simpa using hj)
    · rw [Finished, lookup_upsert_of_ne hne] at hj
      exact h hj
  exact hcovers.mono fun x hx => (mem_keys_upsert s).2 (.inl hx)

end Slots

namespace Interpretation

/-- An interpretation keeps the table closed, and with what is told its answer agrees. -/
def Closes (post : α → Slots → Prop) (x : Interpretation α) : Prop :=
  ∀ s : Slots, s.Closed →
    Ends x s (fun a s' => s'.Closed ∧ s.map (·.1) ⊆ s'.map (·.1) ∧ post a s')
      fun e s' => ∀ err, e = .schema err → s'.Closed ∧ s.map (·.1) ⊆ s'.map (·.1)

theorem Closes.mono {P P' : α → Slots → Prop} {x : Interpretation α} (hx : Closes P x) (h : ∀ a s, P a s → P' a s) :
    Closes P' x :=
  fun s hs => (hx s hs).mono (fun a s' ⟨hclosed, hkeys, hp⟩ => ⟨hclosed, hkeys, h a s' hp⟩) fun _ _ h => h

theorem Closes.pure {P : α → Slots → Prop} {a : α} (h : ∀ s, P a s) : Closes P (Pure.pure a) :=
  fun s hs => ends_pure.2 ⟨hs, List.Subset.refl _, h s⟩

theorem Closes.bind {P : α → Slots → Prop} {Q : β → Slots → Prop} {x : Interpretation α} {f : α → Interpretation β}
    (hx : Closes P x) (hP : Lasting P) (hf : ∀ a, Closes (fun b s => P a s → Q b s) (f a)) : Closes Q (x >>= f) := by
  intro s hs
  refine ends_bind.2 ((hx s hs).mono ?_ fun _ _ h => h)
  rintro a s' ⟨hclosed, hkeys, hp⟩
  refine (hf a s' hclosed).mono ?_ ?_
  · rintro b s'' ⟨hclosed', hkeys', hq⟩
    exact ⟨hclosed', List.Subset.trans hkeys hkeys', hq (hP a s' s'' hkeys' hp)⟩
  · intro e s'' h err he
    obtain ⟨hclosed', hkeys'⟩ := h err he
    exact ⟨hclosed', List.Subset.trans hkeys hkeys'⟩

/-- The shape of a part names what the part names, or what a finished definition names. -/
theorem covers_of_partShape {s : Slots} {part : SchemaNode} {shape : Shape} (hs : s.Closed)
    (hpart : s.Covers part.shape) (h : partShape? s part = some shape) :
    s.Covers shape := by
  rcases partShape_own_or_finished h with rfl | ⟨target, node, hnode, rfl⟩
  · exact hpart
  · exact hs hnode

/-- The shape that the parts of a composition become names what the parts name, or what finished definitions name. -/
theorem flattened_closes (id : SchemaId) (parts : List SchemaNode) :
    Closes (fun shape s => (∀ n ∈ parts, s.Covers n.shape) → s.Covers shape) (flattened id parts) := by
  refine fun s hs => ends_flattened.2 ⟨fun answer hanswer => ⟨hs, List.Subset.refl _, fun hparts => ?_⟩, ?_⟩
  · cases answer with
    | none => exact .of_children (by simp [Shape.ownLinks]) hparts
    | some merged =>
      obtain ⟨m, -, rfl⟩ := flatten_object hanswer
      refine .of_children (by simp [Shape.ownLinks]) ?_
      intro c hc
      obtain ⟨shape, hshape, hcs⟩ := (flatten_spec hanswer).2 c hc
      obtain ⟨part, hpart, hps⟩ := List.mem_map.1 hshape
      have hcovers : s.Covers shape := covers_of_partShape hs (hparts part hpart) hps
      exact hcovers.child hcs
  · exact fun _ _ _ _ => ⟨hs, List.Subset.refl _⟩

/-- A confined interpretation keeps the table closed if the parts and the references do. -/
theorem Confined.closes {tree : Tree} {P : α → Slots → Prop} {x : Reading → Interpretation α} (h : Confined tree P x)
    {p : Reading} (hvisit : ∀ part id, Closes (fun n s => s.Covers n.shape) (p.visit part id))
    (hreference : ∀ text holder,
      Closes (fun k s => k ∈ s.map (·.1)) (Interpretation.reference p.resolver p.visit text holder)) :
    Closes P (x p) := by
  induction h with
  | pure h => exact .pure h
  | throw =>
    intro s hs
    refine ends_throw.2 fun err _ => ?_
    exact ⟨hs, List.Subset.refl _⟩
  | visit _ => exact hvisit _ _
  | reference _ => exact hreference _ _
  | composed _ ih => exact ih.bind lasting_node.all fun parts => flattened_closes _ parts
  | bind _ hP _ ihx ihf => exact ihx.bind hP ihf
  | mono _ hmono ih => exact ih.mono hmono

theorem define_closes {visit : Visit} {k : SchemaId} {tree : Tree}
    (hvisit : Closes (fun n s => s.Covers n.shape) (visit tree k)) :
    Closes (fun _ s => k ∈ s.map (·.1)) (define visit k tree) := by
  intro s hs
  rw [define]
  refine ends_bind.2 (ends_get.2 ?_)
  cases hopen : s.isOpen k with
  | true => exact ends_pure.2 ⟨hs, List.Subset.refl _, lookup_isSome_iff.1 hopen⟩
  | false =>
    have hnew : k ∉ s.map (·.1) := by
      rw [← lookup_isSome_iff]
      rw [Slots.isOpen] at hopen
      simp [hopen]
    have hfirst : s.map (·.1) ⊆ (upsert s k none).map (·.1) := fun x hx => (mem_keys_upsert s).2 (.inl hx)
    have hlast (s' : Slots) (answer : Except SchemaError SchemaNode) :
        s'.map (·.1) ⊆ (upsert s' k (some answer)).map (·.1) := fun x hx => (mem_keys_upsert s').2 (.inl hx)
    refine ends_bind.2 (ends_modify.2 (ends_bind.2 (ends_catchSchema ?_)))
    refine (hvisit _ (hs.opened hnew)).mono ?_ ?_
    · rintro n s' ⟨hclosed, hkeys, hcovers⟩
      refine ends_modify.2 ⟨hclosed.finished ?_, ?_, (mem_keys_upsert s').2 (.inr rfl)⟩
      · rintro n' heq
        cases heq
        exact hcovers
      · exact List.Subset.trans hfirst (List.Subset.trans hkeys (hlast s' _))
    · refine fun e s' h => ⟨fun err he => ends_modify.2 ?_, fun hne err he => absurd he (hne err)⟩
      obtain ⟨hclosed, hkeys⟩ := h err he
      refine ⟨hclosed.finished (fun n heq => by cases heq), ?_, (mem_keys_upsert s').2 (.inr rfl)⟩
      exact List.Subset.trans hfirst (List.Subset.trans hkeys (hlast s' _))

theorem reference_closes (r : Resolver) {visit : Visit}
    (hvisit : ∀ tree id, Closes (fun n s => s.Covers n.shape) (visit tree id)) (text : String) (holder : SchemaId) :
    Closes (fun k s => k ∈ s.map (·.1)) (reference r visit text holder) := by
  unfold reference
  split
  · next found _ =>
    refine Closes.bind (define_closes (hvisit _ _)) (fun _ _ _ hs hk => hs hk) fun _ => ?_
    exact .pure fun s hk => hk
  · intro s hs
    refine ends_throw.2 fun err he => ?_
    cases he

/-- The interpretation of any tree keeps the table closed. -/
theorem node_closes (r : Resolver) (depth : Nat) : ∀ (tree : Tree) (id : SchemaId),
    Closes (fun n s => s.Covers n.shape) (node r depth tree id) := by
  induction depth with
  | zero =>
    intro tree id s hs
    refine ends_throw.2 fun err he => ?_
    cases he
  | succ depth ih =>
    intro tree id
    exact (level_confined tree id).closes (p := ⟨r, node r depth⟩) ih (reference_closes r ih)

theorem visit_closes (r : Resolver) (tree : Tree) (id : SchemaId) :
    Closes (fun n s => s.Covers n.shape) (visit r tree id) := node_closes r _ tree id

/-! ## Opening the component schemas -/

/-- What is kept by doing nothing, by sequencing and by opening each component schema is kept by opening them all. -/
theorem components_induction {r : Resolver} {d : Document} {Q : Interpretation Unit → Prop} (hpure : Q (pure ()))
    (hbind : ∀ {x y : Interpretation Unit}, Q x → Q y → Q (x >>= fun _ => y))
    (hdefine : ∀ c ∈ d.componentSchemas?.getD [], ∀ name, c.1.keyText? = some name →
      Q (define (visit r) (SchemaId.child ⟨"#/components/schemas"⟩ name) c.2)) : Q (components r d) := by
  unfold components
  generalize d.componentSchemas?.getD [] = entries at hdefine
  induction entries with
  | nil => exact hpure
  | cons c entries ih =>
    refine hbind ?_ (ih fun c' hc' => hdefine c' (List.mem_cons_of_mem _ hc'))
    dsimp only
    split
    · next name hname => exact hdefine c List.mem_cons_self name hname
    · exact hpure

theorem components_closes (r : Resolver) (d : Document) : Closes (fun _ _ => True) (components r d) := by
  refine components_induction (.pure fun _ => trivial) (fun hx hy => hx.bind (fun _ _ _ _ _ => trivial) fun _ => ?_) ?_
  · exact hy.mono fun _ _ _ _ => trivial
  · exact fun c _ name _ => (define_closes (visit_closes r _ _)).mono fun _ _ _ => trivial

end Interpretation

end ContractBindings
