import ContractBindings.Proofs.Document.Extension
import ContractBindings.Proofs.Schema.Agreement

/-!
# Interpretation of documents that are extended

Interpreting a schema opens the same definitions in an extended document, with the same content, as long as all of them
are the same schemas there (`visit_repeats`): the run is repeated step by step, and what was added is never looked at. So
the component schemas of the first document are opened in the second before those that were appended, and the table that
they leave is where the second goes on from (`components_extended`).
-/

namespace ContractBindings.Interpretation

variable {r r' : Resolver} {x y : Interpretation α}

/-! ## Definitions stay open -/

/-- What becomes of a definition that is opened. -/
def interpreted (x : Interpretation SchemaNode) (k : SchemaId) : Interpretation Unit := do
  let answer ← catchSchema x
  modify fun slots => upsert slots k (some answer)

/-- A definition that is not open is opened, and interpreted then. -/
theorem run_define_of_closed {s : Slots} {k : SchemaId} (hopen : s.isOpen k = false) (visit : Visit) (tree : Tree) :
    (define visit k tree).run.run s = (interpreted (visit tree k) k).run.run (upsert s k none) := by
  rw [define]
  simp only [ExceptT.run_bind, StateT.run_bind]
  change ((if (!s.isOpen k) = true then _ else pure PUnit.unit : Interpretation Unit)).run.run s = _
  rw [hopen]
  rfl

/-- An interpretation keeps the definitions open that it finds open. -/
def KeepsOpen (x : Interpretation α) : Prop := ∀ s : Slots, s.map (·.1) ⊆ (x.run.run s).2.map (·.1)

namespace KeepsOpen

theorem of_quiet (h : ∀ s : Slots, (x.run.run s).2 = s) : KeepsOpen x := fun s => by
  rw [h]
  exact List.Subset.refl _

theorem bind {f : α → Interpretation β} (hx : KeepsOpen x) (hf : ∀ a, KeepsOpen (f a)) : KeepsOpen (x >>= f) := by
  intro s
  have hkeys := hx s
  rcases hrun : x.run.run s with ⟨e | a, s'⟩
  · rw [hrun] at hkeys
    rwa [run_bind_of_error hrun]
  · rw [hrun] at hkeys
    rw [run_bind_of_ok hrun]
    exact List.Subset.trans hkeys (hf a s')

theorem catchSchema (h : KeepsOpen x) : KeepsOpen (catchSchema x) := by
  intro s
  have hkeys := h s
  rcases hrun : x.run.run s with ⟨e | a, s'⟩ <;> rw [run_catchSchema _ hrun] <;> rw [hrun] at hkeys
  · cases e <;> exact hkeys
  · exact hkeys

theorem upsert (k : SchemaId) (v : Option (Except SchemaError SchemaNode)) :
    KeepsOpen (modify fun slots => ContractBindings.upsert slots k v : Interpretation Unit) :=
  fun s _ hj => (mem_keys_upsert s).2 (.inl hj)

theorem interpreted {x : Interpretation SchemaNode} {k : SchemaId} (h : KeepsOpen x) : KeepsOpen (interpreted x k) :=
  h.catchSchema.bind fun answer => upsert k (some answer)

theorem define {visit : Visit} {k : SchemaId} {tree : Tree} (h : KeepsOpen (visit tree k)) :
    KeepsOpen (define visit k tree) := by
  intro s
  cases hopen : s.isOpen k with
  | true =>
    rw [run_define_of_open hopen]
    exact List.Subset.refl _
  | false =>
    rw [run_define_of_closed hopen]
    exact List.Subset.trans (upsert k none s) (h.interpreted _)

/-- A definition is open after it was opened. -/
theorem mem_keys_define {visit : Visit} {k : SchemaId} {tree : Tree} (h : KeepsOpen (visit tree k)) (s : Slots) :
    k ∈ ((Interpretation.define visit k tree).run.run s).2.map (·.1) := by
  cases hopen : s.isOpen k with
  | true =>
    rw [run_define_of_open hopen]
    exact Slots.isOpen_iff.1 hopen
  | false =>
    rw [run_define_of_closed hopen]
    exact h.interpreted _ ((mem_keys_upsert s).2 (.inr rfl))

theorem reference {visit : Visit} (h : ∀ tree id, KeepsOpen (visit tree id)) (text : String) (holder : SchemaId) :
    KeepsOpen (reference r visit text holder) := by
  unfold Interpretation.reference
  split
  · exact (define (h _ _)).bind fun _ => of_quiet fun _ => rfl
  · exact of_quiet fun _ => rfl

theorem node (r : Resolver) (depth : Nat) : ∀ tree id, KeepsOpen (node r depth tree id) := by
  induction depth with
  | zero => exact fun _ _ => of_quiet fun _ => rfl
  | succ depth ih =>
    intro tree id
    exact (level_confined tree id).related (fun x _ => KeepsOpen x) (p := ⟨r, Interpretation.node r depth⟩)
      (q := ⟨r, Interpretation.node r depth⟩) (fun _ hquiet => of_quiet hquiet) bind (fun part id _ => ih part id)
      fun text holder _ => reference ih text holder

end KeepsOpen

/-! ## Runs that are repeated -/

variable {T : SchemaId → Prop}

/-- Where the first interpretation opens only definitions of a set, and is not given up, the second runs in the same way.
-/
structure Repeats (T : SchemaId → Prop) (x y : Interpretation α) : Prop where
  keepsOpen : KeepsOpen x
  run_eq : ∀ s : Slots, (∀ e, (x.run.run s).1 = .error e → ∃ error, e = .schema error) →
    (∀ k ∈ (x.run.run s).2.map (·.1), T k) → y.run.run s = x.run.run s

namespace Repeats

theorem of_quiet (h : ∀ s : Slots, (x.run.run s).2 = s) : Repeats T x x := ⟨.of_quiet h, fun _ _ _ => rfl⟩

theorem bind {f g : α → Interpretation β} (hx : Repeats T x y) (hf : ∀ a, Repeats T (f a) (g a)) :
    Repeats T (x >>= f) (y >>= g) where
  keepsOpen := hx.keepsOpen.bind fun a => (hf a).keepsOpen
  run_eq := by
    intro s hended hopened
    have hsame := hx.run_eq s
    rcases hrun : x.run.run s with ⟨e | a, s'⟩
    · rw [run_bind_of_error hrun] at hended hopened ⊢
      rw [hrun] at hsame
      exact run_bind_of_error (hsame (fun e' he => hended e' (by cases he; rfl)) hopened)
    · rw [run_bind_of_ok hrun] at hended hopened ⊢
      rw [hrun] at hsame
      rw [run_bind_of_ok (hsame (fun e he => by cases he) fun k hk => hopened k ((hf a).keepsOpen s' hk))]
      exact (hf a).run_eq s' hended hopened

theorem catchSchema (h : Repeats T x y) : Repeats T (catchSchema x) (Interpretation.catchSchema y) where
  keepsOpen := h.keepsOpen.catchSchema
  run_eq := by
    intro s hended hopened
    have hsame := h.run_eq s
    rcases hrun : x.run.run s with ⟨e | a, s'⟩
    · rw [run_catchSchema _ hrun] at hended hopened ⊢
      rw [hrun] at hsame
      cases e with
      | schema error => rw [run_catchSchema _ (hsame (fun e he => ⟨error, by cases he; rfl⟩) hopened)]
      | unresolved u => rw [run_catchSchema _ (hsame (fun e he => hended e (by cases he; rfl)) hopened)]
      | tooDeep => rw [run_catchSchema _ (hsame (fun e he => hended e (by cases he; rfl)) hopened)]
    · rw [run_catchSchema _ hrun] at hopened ⊢
      rw [hrun] at hsame
      rw [run_catchSchema _ (hsame (fun e he => by cases he) hopened)]

/-- Opening a definition is repeated if its interpretation is. Only what is opened needs to be in the set. -/
theorem define {visit visit' : Visit} {k : SchemaId} {tree tree' : Tree} (hkeeps : KeepsOpen (visit tree k))
    (hvisit : T k → Repeats T (visit tree k) (visit' tree' k)) :
    Repeats T (define visit k tree) (Interpretation.define visit' k tree') where
  keepsOpen := hkeeps.define
  run_eq := by
    intro s hended hopened
    have hk := hopened k (hkeeps.mem_keys_define s)
    cases hopen : s.isOpen k with
    | true => rw [run_define_of_open hopen, run_define_of_open hopen]
    | false =>
      have hrepeats : Repeats T (interpreted (visit tree k) k) (interpreted (visit' tree' k) k) :=
        (hvisit hk).catchSchema.bind fun answer => ⟨.upsert k (some answer), fun _ _ _ => rfl⟩
      rw [run_define_of_closed hopen] at hended hopened
      rw [run_define_of_closed hopen, run_define_of_closed hopen]
      exact hrepeats.run_eq _ hended hopened

/-- Following a reference is repeated if it leads to the same pointer, and to the same schema if that is in the set. -/
theorem reference {visit visit' : Visit} {text : String} {holder : SchemaId}
    (hkeeps : ∀ tree id, KeepsOpen (visit tree id))
    (hfind : ∀ found, r.find text holder.pointer = .ok found → T ⟨found.pointer⟩ → ∃ node',
      r'.find text holder.pointer = .ok ⟨found.pointer, node'⟩ ∧
        Repeats T (visit found.node ⟨found.pointer⟩) (visit' node' ⟨found.pointer⟩)) :
    Repeats T (reference r visit text holder) (Interpretation.reference r' visit' text holder) := by
  refine ⟨.reference hkeeps text holder, fun s hended hopened => ?_⟩
  cases hfound : r.find text holder.pointer with
  | error u =>
    unfold Interpretation.reference at hended
    rw [hfound] at hended
    obtain ⟨error, herror⟩ := hended (.unresolved u) rfl
    cases herror
  | ok found =>
    have hdefined : Interpretation.reference r visit text holder =
        (Interpretation.define visit ⟨found.pointer⟩ found.node >>= fun _ => pure ⟨found.pointer⟩) := by
      rw [Interpretation.reference, hfound]
    rw [hdefined] at hended hopened ⊢
    have hmem : (⟨found.pointer⟩ : SchemaId) ∈ ((Interpretation.define visit ⟨found.pointer⟩ found.node >>= fun _ =>
        (pure ⟨found.pointer⟩ : Interpretation SchemaId)).run.run s).2.map (·.1) := by
      have hopen := (hkeeps found.node ⟨found.pointer⟩).mem_keys_define s
      rcases hrun : (Interpretation.define visit ⟨found.pointer⟩ found.node).run.run s with ⟨e | a, s'⟩
      · rw [run_bind_of_error hrun]
        rwa [hrun] at hopen
      · rw [run_bind_of_ok hrun]
        rwa [hrun] at hopen
    obtain ⟨node', hfound', hvisit⟩ := hfind found hfound (hopened _ hmem)
    have hdefined' : Interpretation.reference r' visit' text holder =
        (Interpretation.define visit' ⟨found.pointer⟩ node' >>= fun _ => pure ⟨found.pointer⟩) := by
      rw [Interpretation.reference, hfound']
    rw [hdefined']
    exact ((define (hkeeps _ _) fun _ => hvisit).bind fun _ => .of_quiet fun _ => rfl).run_eq s hended hopened

end Repeats

/-! ## Documents -/

/-- Opens the schemas of entries that have a name, in order. -/
def openAll (visit : Visit) (entries : Entries) : Interpretation Unit := entries.forM fun (key, schema) =>
  match key.keyText? with
  | some name => define visit (SchemaId.child ⟨"#/components/schemas"⟩ name) schema
  | none => pure ()

theorem openAll_append (visit : Visit) (entries more : Entries) :
    openAll visit (entries ++ more) = openAll visit entries >>= fun _ => openAll visit more := List.forM_append

theorem openAll_repeats {visit visit' : Visit} (h : ∀ tree id, Repeats T (visit tree id) (visit' tree id)) :
    ∀ entries : Entries, Repeats T (openAll visit entries) (openAll visit' entries)
  | [] => .of_quiet fun _ => rfl
  | (key, schema) :: entries => by
    refine Repeats.bind ?_ fun _ => openAll_repeats h entries
    dsimp only
    cases key.keyText? with
    | some name => exact .define (h _ _).keepsOpen fun _ => h _ _
    | none => exact .of_quiet fun _ => rfl

section Documents

variable {d d' : Document} (hd : d.Extends d') (hr : r.Serves d.root) (hr' : r'.Serves d'.root)

include hd hr hr'

/-- A reference that was resolved leads to the same pointer, if the same schema stands there. -/
theorem find_extended {text holder : String} {found : Reference.Resolved} (hfound : r.find text holder = .ok found)
    (hkeeps : d.Keeps d' ⟨found.pointer⟩) : ∃ node', r'.find text holder = .ok ⟨found.pointer, node'⟩ ∧
      Tree.Extended found.node node' ∧ found.node.SameSchema node' := by
  rw [hr.find_eq, Reference.resolve] at hfound
  cases hchase : Reference.chase d.root (Reference.chainBound d.root) [] text with
  | error cause =>
    rw [hchase] at hfound
    cases hfound
  | ok answer =>
    rw [hchase] at hfound
    cases hfound
    obtain ⟨-, hlookup, -⟩ := Reference.chase_spec hchase
    obtain ⟨node', hchase', hextended, hsame⟩ :=
      hd.extended.chase hd.extended.chainBound_le hchase fun node' hnode' => hkeeps _ _ hlookup hnode'
    refine ⟨node', ?_, hextended, hsame⟩
    rw [hr'.find_eq, Reference.resolve, hchase']
    rfl

theorem node_repeats (depth : Nat) : ∀ (depth' : Nat) (tree tree' : Tree) (id : SchemaId), depth ≤ depth' →
    Tree.Extended tree tree' → tree.SameSchema tree' →
      Repeats (d.Keeps d') (node r depth tree id) (node r' depth' tree' id) := by
  induction depth with
  | zero =>
    intro depth' tree tree' id _ _ _
    refine ⟨.node r 0 tree id, fun s hended _ => ?_⟩
    obtain ⟨error, herror⟩ := hended .tooDeep rfl
    cases herror
  | succ depth ih =>
    intro depth' tree tree' id hdepth hextended hsame
    obtain ⟨lower, rfl⟩ : ∃ lower, depth' = lower + 1 := ⟨depth' - 1, by omega⟩
    have hlower : depth ≤ lower := Nat.le_of_succ_le_succ hdepth
    rw [node, node, hextended.level_eq hsame]
    refine (level_confined tree id).related (Repeats (d.Keeps d')) (p := ⟨r, node r depth⟩) (q := ⟨r', node r' lower⟩)
      (fun _ hquiet => .of_quiet hquiet) .bind (fun part id _ => ih lower part part id hlower (.refl part) fun _ _ => rfl) ?_
    intro text holder _
    refine .reference (KeepsOpen.node r depth) fun found hfound hkeeps => ?_
    obtain ⟨node', hfound', hextended, hsame⟩ := find_extended hd hr hr' hfound hkeeps
    exact ⟨node', hfound', ih lower _ _ _ hlower hextended hsame⟩

/-- Interpreting a schema opens the same definitions in the extended document, if they are the same schemas there. -/
theorem visit_repeats (tree : Tree) (id : SchemaId) : Repeats (d.Keeps d') (visit r tree id) (visit r' tree id) := by
  have hsize := hd.extended.size_le
  unfold visit
  refine node_repeats hd hr hr' _ _ tree tree id ?_ (.refl tree) fun _ _ => rfl
  rw [hr.root_eq, hr'.root_eq, bound, bound]
  exact Nat.mul_le_mul (by omega) (by omega)

/-- The component schemas of the document are opened as before, and those that were appended after them. -/
theorem components_extended {slots : Slots} (hslots : (components r d).run.run [] = (.ok (), slots))
    (hkeeps : ∀ k ∈ slots.map (·.1), d.Keeps d' k) :
    ∃ more : Entries, (components r' d').run.run [] = (openAll (visit r') more).run.run slots := by
  have hcomponents (r : Resolver) (d : Document) : components r d = openAll (visit r) (d.componentSchemas?.getD []) := rfl
  rw [hcomponents] at hslots ⊢
  cases hentries : d.componentSchemas? with
  | none =>
    rw [hentries] at hslots
    obtain rfl : [] = slots := congrArg (·.2) hslots
    exact ⟨_, rfl⟩
  | some entries =>
    obtain ⟨more, hmore⟩ := hd.componentSchemas hentries
    rw [hentries, Option.getD_some] at hslots
    rw [hmore, Option.getD_some, openAll_append]
    refine ⟨more, run_bind_of_ok (a := ()) ?_⟩
    rw [(openAll_repeats (visit_repeats hd hr hr') entries).run_eq [] ?_ ?_, hslots]
    · rw [hslots]
      exact fun e he => by cases he
    · rwa [hslots]

end Documents

end ContractBindings.Interpretation
