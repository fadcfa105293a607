import ContractBindings.Proofs.Schema.Walks

/-!
# Interpretation ends

However references loop, the bound for the depth of interpretation is large enough. Each level of a definition is a
smaller part of the document, and each definition that a reference opens is one target less to open; so the number of
targets that are not open, times one more than the number of nodes of the document, together with the size of the tree,
goes down from level to level (`node_halts`). For the whole document the bound leaves room for both (`visit_halts`).
-/

namespace ContractBindings

open Interpretation

namespace Slots

/-- The number of definitions among some that are not open. -/
def unopened (s : Slots) (targets : List SchemaId) : Nat := targets.countP fun k => !s.isOpen k

variable {s s' : Slots} {targets : List SchemaId} {k : SchemaId}

theorem isOpen_iff : s.isOpen k = true ↔ k ∈ s.map (·.1) := lookup_isSome_iff

theorem isOpen_mono (h : s.map (·.1) ⊆ s'.map (·.1)) (hk : s.isOpen k = true) : s'.isOpen k = true :=
  isOpen_iff.2 (h (isOpen_iff.1 hk))

theorem unopened_le_length (s : Slots) (targets : List SchemaId) : s.unopened targets ≤ targets.length :=
  List.countP_le_length

theorem unopened_anti (h : s.map (·.1) ⊆ s'.map (·.1)) : s'.unopened targets ≤ s.unopened targets := by
  refine List.countP_mono_left fun k _ hk => ?_
  cases hopen : s.isOpen k with
  | false => rfl
  | true => simp [isOpen_mono h hopen] at hk

/-- Opening one of the definitions leaves fewer. -/
theorem unopened_lt (hmem : k ∈ targets) (hk : k ∉ s.map (·.1)) :
    (Slots.unopened (upsert s k none) targets) < s.unopened targets := by
  have hopen : isOpen (upsert s k none) k = true := isOpen_iff.2 ((mem_keys_upsert s).2 (.inr rfl))
  have hclosed : s.isOpen k = false := by simpa [← isOpen_iff] using hk
  have hkeys : s.map (·.1) ⊆ (upsert s k none).map (·.1) := fun x hx => (mem_keys_upsert s).2 (.inl hx)
  unfold unopened
  induction targets with
  | nil => cases hmem
  | cons first rest ih =>
    have hrest : unopened (upsert s k none) rest ≤ s.unopened rest := unopened_anti hkeys
    unfold unopened at hrest
    rw [List.countP_cons, List.countP_cons]
    by_cases hfirst : first = k
    · rw [hfirst, hopen, hclosed]
      simp only [Bool.not_true, Bool.not_false, Bool.false_eq_true, ↓reduceIte]
      omega
    · have hlt := ih ((List.mem_cons.1 hmem).resolve_left fun he => hfirst he.symm)
      have hsame : isOpen (upsert s k none) first = s.isOpen first := by
        rw [isOpen, isOpen, lookup_upsert_of_ne hfirst]
      rw [hsame]
      omega

end Slots

namespace Interpretation

variable {root : Tree}

/-- Where the targets that are not open leave a given room, an interpretation ends otherwise than for its depth. -/
def Halts (root : Tree) (room : Nat) (x : Interpretation α) : Prop :=
  ∀ s : Slots, s.unopened (Reference.targets root) * (root.size + 1) ≤ room →
    Ends x s (fun _ s' => s.map (·.1) ⊆ s'.map (·.1)) fun e s' => e ≠ .tooDeep ∧ s.map (·.1) ⊆ s'.map (·.1)

namespace Halts

variable {room : Nat}

theorem pure {a : α} : Halts root room (Pure.pure a : Interpretation α) :=
  fun _ _ => ends_pure.2 (List.Subset.refl _)

theorem throw {e : InterpretError} (he : e ≠ .tooDeep) : Halts root room (MonadExcept.throw e : Interpretation α) :=
  fun _ _ => ends_throw.2 ⟨he, List.Subset.refl _⟩

theorem bind {x : Interpretation α} {f : α → Interpretation β} (hx : Halts root room x)
    (hf : ∀ a, Halts root room (f a)) : Halts root room (x >>= f) := by
  intro s hs
  refine ends_bind.2 ((hx s hs).mono (fun a s' hkeys => ?_) fun _ _ h => h)
  have hroom : s'.unopened (Reference.targets root) * (root.size + 1) ≤ room :=
    Nat.le_trans (Nat.mul_le_mul_right _ (Slots.unopened_anti hkeys)) hs
  refine (hf a s' hroom).mono (fun _ _ hkeys' => List.Subset.trans hkeys hkeys') ?_
  exact fun e s'' ⟨he, hkeys'⟩ => ⟨he, List.Subset.trans hkeys hkeys'⟩

end Halts

theorem halts_flattened {room : Nat} (id : SchemaId) (parts : List SchemaNode) :
    Halts root room (flattened id parts) :=
  fun _ _ => ends_flattened.2 ⟨fun _ _ => List.Subset.refl _, fun _ _ => ⟨by simp, List.Subset.refl _⟩⟩

/-- A confined interpretation ends if the parts and the references do. -/
theorem Confined.halts {tree : Tree} {P : α → Slots → Prop} {x : Reading → Interpretation α} (h : Confined tree P x)
    {p : Reading} {room : Nat}
    (hvisit : ∀ part id, part.PartOf tree → part.size < tree.size → Halts root room (p.visit part id))
    (hreference : ∀ text holder, text ∈ tree.links .plain →
      Halts root room (Interpretation.reference p.resolver p.visit text holder)) :
    Halts root room (x p) := by
  induction h with
  | pure _ => exact .pure
  | throw => exact .throw (by simp)
  | visit hpart => exact hvisit _ _ hpart.partOf.1 hpart.partOf.2
  | reference hfollows => exact hreference _ _ hfollows.mem_links
  | composed _ ih => exact ih.bind fun parts => halts_flattened _ parts
  | bind _ _ _ ihx ihf => exact ihx.bind ihf
  | mono _ _ ih => exact ih

/-- Opening a definition ends if its interpretation does, in the room that is left then. -/
theorem define_halts {visit : Visit} {k : SchemaId} {tree : Tree} {room : Nat}
    (hvisit : ∀ s : Slots, k ∉ s.map (·.1) → s.unopened (Reference.targets root) * (root.size + 1) ≤ room →
      ∃ left, Slots.unopened (upsert s k none) (Reference.targets root) * (root.size + 1) ≤ left ∧
        Halts root left (visit tree k)) :
    Halts root room (define visit k tree) := by
  intro s hs
  rw [define]
  refine ends_bind.2 (ends_get.2 ?_)
  cases hopen : s.isOpen k with
  | true => exact ends_pure.2 (List.Subset.refl _)
  | false =>
    have hnew : k ∉ s.map (·.1) := by
      rw [← Slots.isOpen_iff, hopen]
      exact Bool.false_ne_true
    have hfirst : s.map (·.1) ⊆ (upsert s k none).map (·.1) := fun x hx => (mem_keys_upsert s).2 (.inl hx)
    have hlast (s' : Slots) (answer : Except SchemaError SchemaNode) :
        s'.map (·.1) ⊆ (upsert s' k (some answer)).map (·.1) := fun x hx => (mem_keys_upsert s').2 (.inl hx)
    obtain ⟨left, hleft, hhalts⟩ := hvisit s hnew hs
    refine ends_bind.2 (ends_modify.2 (ends_bind.2 (ends_catchSchema ?_)))
    refine (hhalts _ hleft).mono (fun n s' hkeys => ?_) fun e s' h => ⟨fun err _ => ?_, fun _ => ?_⟩
    · exact ends_modify.2 (List.Subset.trans hfirst (List.Subset.trans hkeys (hlast s' _)))
    · exact ends_modify.2 (List.Subset.trans hfirst (List.Subset.trans h.2 (hlast s' _)))
    · exact ⟨h.1, List.Subset.trans hfirst h.2⟩

/-- Interpretation ends where the depth leaves room for the targets that are not open and for the tree. -/
theorem node_halts {r : Resolver} (hr : r.Serves root) (depth : Nat) : ∀ (tree : Tree) (id : SchemaId) (room : Nat),
    tree.PartOf root → room + tree.size ≤ depth → Halts root room (node r depth tree id) := by
  induction depth with
  | zero =>
    intro tree id room _ hdepth
    have hpos := tree.size_pos
    omega
  | succ depth ih =>
    intro tree id room htree hdepth
    refine (level_confined tree id).halts (p := ⟨r, node r depth⟩) ?_ ?_
    · intro part id hpart hlt
      exact ih part id room (hpart.trans htree) (by omega)
    · intro text holder hlink
      unfold reference
      dsimp only
      split
      · next found hfound =>
        obtain ⟨htarget, hpart⟩ := hr.found (htree.links_subset hlink) hfound
        refine Halts.bind (define_halts fun s hnew hs => ?_) fun _ => .pure
        -- the definition takes the room of one target, which is enough for its own levels
        have hlt := Nat.mul_le_mul_right (root.size + 1) (Slots.unopened_lt htarget hnew)
        rw [Nat.succ_mul] at hlt
        have hsize := hpart.size_le
        have hpos := tree.size_pos
        exact ⟨room - (root.size + 1), by omega, ih _ _ _ hpart (by omega)⟩
      · exact .throw (by simp)

/-- The interpretation of a part of the document ends. -/
theorem visit_halts {r : Resolver} (hr : r.Serves root) {tree : Tree} (htree : tree.PartOf root) (id : SchemaId) :
    Halts root ((Reference.targets root).length * (root.size + 1)) (visit r tree id) := by
  have htargets := Nat.mul_le_mul_right (root.size + 1) (Reference.length_targets_le root)
  have hsize := htree.size_le
  have hbound : bound root = root.size * (root.size + 1) + 2 * root.size + 2 := by
    simp only [bound, Nat.mul_add, Nat.add_mul]
    omega
  unfold visit
  rw [hr.root_eq]
  exact node_halts hr _ tree id _ htree (by omega)

/-- What ends with any number of targets to open ends from every table. -/
theorem Halts.never_tooDeep {x : Interpretation α}
    (h : Halts root ((Reference.targets root).length * (root.size + 1)) x) (s : Slots) :
    (x.run.run s).1 ≠ .error .tooDeep := by
  have hends := h s (Nat.mul_le_mul_right _ (s.unopened_le_length _))
  intro heq
  exact (hends.failure (Prod.ext heq rfl)).1 rfl

end Interpretation

end ContractBindings
