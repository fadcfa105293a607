import ContractBindings.Proofs.Schema.Depth

/-!
# What an interpretation does not depend on

The value of a definition is read when it is opened and never again. To say so, two interpretations are compared that
read alike but for the values of definitions that are open (`Resolver.Alike`): from any table with these definitions in
it they run the same (`node_agrees`). The table may be one in the middle of a run, so this holds also of what happens
while the definition itself is being interpreted.

The second of the two may have more depth left, so the bound for the depth does not show either (`visit_deeper`).
-/

namespace ContractBindings

open Interpretation

/-- Two resolvers of one document answer alike, but for the values of definitions of a set. -/
structure Resolver.Alike (K : List SchemaId) (r r' : Resolver) : Prop where
  root_eq : r'.root = r.root
  found : ∀ {text holder answer}, r.find text holder = .ok answer →
    ∃ answer', r'.find text holder = .ok answer' ∧ answer'.pointer = answer.pointer ∧
      (⟨answer.pointer⟩ ∉ K → answer'.node = answer.node)
  missing : ∀ {text holder e}, r.find text holder = .error e → r'.find text holder = .error e

theorem Resolver.alike_refl (K : List SchemaId) (r : Resolver) : Resolver.Alike K r r :=
  ⟨rfl, fun h => ⟨_, h, rfl, fun _ => rfl⟩, id⟩

namespace Interpretation

variable {K : List SchemaId} {r r' : Resolver}

/-- Where the definitions of a set are open, the second interpretation runs as the first, unless that is too deep. -/
def Agrees (K : List SchemaId) (x y : Interpretation α) : Prop :=
  ∀ s : Slots, K ⊆ s.map (·.1) → (x.run.run s).1 ≠ .error .tooDeep →
    y.run.run s = x.run.run s ∧ K ⊆ (x.run.run s).2.map (·.1)

theorem Agrees.of_keys {x : Interpretation α} (h : ∀ s, s.map (·.1) ⊆ (x.run.run s).2.map (·.1)) : Agrees K x x :=
  fun s hs _ => ⟨rfl, List.Subset.trans hs (h s)⟩

theorem Agrees.bind {x y : Interpretation α} {f g : α → Interpretation β} (hx : Agrees K x y)
    (hf : ∀ a, Agrees K (f a) (g a)) : Agrees K (x >>= f) (y >>= g) := by
  intro s hs hdeep
  have hsame := hx s hs
  rcases hrun : x.run.run s with ⟨e | a, s'⟩
  · rw [run_bind_of_error hrun] at hdeep ⊢
    rw [hrun] at hsame
    have hne : e ≠ .tooDeep := by simpa using hdeep
    obtain ⟨heq, hkeys⟩ := hsame (by simpa using hne)
    exact ⟨run_bind_of_error heq, hkeys⟩
  · rw [run_bind_of_ok hrun] at hdeep ⊢
    rw [hrun] at hsame
    obtain ⟨heq, hkeys⟩ := hsame (by simp)
    rw [run_bind_of_ok heq]
    exact hf a s' hkeys hdeep

/-- A confined interpretation agrees for two readings if the parts and the references do. -/
theorem Confined.agrees {tree : Tree} {P : α → Slots → Prop} {x : Reading → Interpretation α} (h : Confined tree P x)
    (p p' : Reading) (hvisit : ∀ part id, Agrees K (p.visit part id) (p'.visit part id))
    (hreference : ∀ text holder, Agrees K (Interpretation.reference p.resolver p.visit text holder)
      (Interpretation.reference p'.resolver p'.visit text holder)) :
    Agrees K (x p) (x p') :=
  h.related (Agrees K) (fun _ hquiet => .of_keys fun s => by rw [hquiet]; exact List.Subset.refl _) .bind
    (fun part id _ => hvisit part id) fun text holder _ => hreference text holder

theorem Agrees.catchSchema {x y : Interpretation α} (h : Agrees K x y) :
    Agrees K (catchSchema x) (Interpretation.catchSchema y) := by
  intro s hs hdeep
  have hsame := h s hs
  rcases hrun : x.run.run s with ⟨e | a, s'⟩
  · rw [run_catchSchema _ hrun] at hdeep ⊢
    have hne : e ≠ .tooDeep := by
      rintro rfl
      exact hdeep rfl
    rw [hrun] at hsame
    obtain ⟨heq, hkeys⟩ := hsame (by simpa using hne)
    rw [run_catchSchema _ heq]
    cases e <;> exact ⟨rfl, hkeys⟩
  · rw [hrun] at hsame
    obtain ⟨heq, hkeys⟩ := hsame (by simp)
    rw [run_catchSchema _ hrun, run_catchSchema _ heq]
    exact ⟨rfl, hkeys⟩

/-- Nothing is done about a definition that is open. -/
theorem run_define_of_open {s : Slots} {k : SchemaId} (hopen : s.isOpen k = true) (visit : Visit) (tree : Tree) :
    (define visit k tree).run.run s = (.ok (), s) := by
  rw [define]
  simp only [ExceptT.run_bind, StateT.run_bind]
  change ((if (!s.isOpen k) = true then _ else pure PUnit.unit : Interpretation Unit)).run.run s = _
  rw [hopen]
  rfl

/-- Opening a definition does not depend on its value if it is open. -/
theorem define_agrees {visit visit' : Visit} {k : SchemaId} {tree tree' : Tree}
    (htree : k ∉ K → tree' = tree) (hvisit : Agrees K (visit tree k) (visit' tree k)) :
    Agrees K (define visit k tree) (define visit' k tree') := by
  have hset (v : Option (Except SchemaError SchemaNode)) (x : Interpretation Unit)
      (hx : x = modify fun slots => upsert slots k v) : Agrees K x x := by
    subst hx
    exact .of_keys fun s j hj => (mem_keys_upsert s).2 (.inl hj)
  intro s hs
  by_cases hopen : s.isOpen k = true
  · intro _
    rw [run_define_of_open hopen, run_define_of_open hopen]
    exact ⟨rfl, hs⟩
  · have hk : k ∉ K := fun hmem => hopen (Slots.isOpen_iff.2 (hs hmem))
    rw [htree hk]
    refine Agrees.bind (x := get) (.of_keys fun s => List.Subset.refl _) (fun found => ?_) s hs
    split
    · refine Agrees.bind (hset none _ rfl) fun _ => hvisit.catchSchema.bind fun answer => ?_
      exact hset (some answer) _ rfl
    · exact .of_keys fun s => List.Subset.refl _

/-- The interpretation of a tree does not depend on the values of open definitions, nor on the depth if that is enough.
-/
theorem node_agrees (h : r.Alike K r') (depth : Nat) : ∀ (depth' : Nat) (tree : Tree) (id : SchemaId),
    depth ≤ depth' → Agrees K (node r depth tree id) (node r' depth' tree id) := by
  induction depth with
  | zero => exact fun depth' tree id _ s _ hdeep => absurd rfl hdeep
  | succ depth ih =>
    intro depth' tree id hdepth
    obtain ⟨lower, rfl⟩ : ∃ lower, depth' = lower + 1 := ⟨depth' - 1, by omega⟩
    have hvisit : ∀ part id, Agrees K (node r depth part id) (node r' lower part id) :=
      fun part id => ih lower part id (by omega)
    refine (level_confined tree id).agrees ⟨r, node r depth⟩ ⟨r', node r' lower⟩ hvisit ?_
    intro text holder
    unfold reference
    dsimp only
    cases hfind : r.find text holder.pointer with
    | error e =>
      rw [h.missing hfind]
      exact .of_keys fun s => List.Subset.refl _
    | ok found =>
      obtain ⟨found', hfind', hpointer, hnode⟩ := h.found hfind
      rw [hfind']
      dsimp only
      rw [hpointer]
      exact (define_agrees hnode (hvisit _ _)).bind fun _ => .of_keys fun s => List.Subset.refl _

theorem visit_agrees (h : r.Alike K r') (tree : Tree) (id : SchemaId) :
    Agrees K (visit r tree id) (visit r' tree id) := by
  unfold visit
  rw [h.root_eq]
  exact node_agrees h _ _ tree id (Nat.le_refl _)

/-- More depth than the bound changes nothing. -/
theorem visit_deeper {root tree : Tree} (hr : r.Serves root) (htree : tree.PartOf root) (id : SchemaId) {depth : Nat}
    (hdepth : bound root ≤ depth) (s : Slots) : (node r depth tree id).run.run s = (visit r tree id).run.run s := by
  have hagrees : Agrees [] (visit r tree id) (node r depth tree id) := by
    unfold visit
    exact node_agrees (r.alike_refl []) _ _ tree id (by rwa [hr.root_eq])
  exact (hagrees s (List.nil_subset _) ((visit_halts hr htree id).never_tooDeep s)).1

end Interpretation

end ContractBindings
