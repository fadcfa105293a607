import ContractBindings.Proofs.Schema.Walks

/-!
# What the check of all references covers

A check passes if every reference that occurs in a document leads to a node (`Faithful.resolveAll_spec`). The references
of all that is shown in the document occur in it, so a resolver that passed the check finds them all, whoever asks
(`find_of_checkAll`).
-/

namespace ContractBindings.Resolver

open Reference

/-- References that are resolved in order, none of which fails, all lead to nodes. -/
theorem Faithful.resolveAll_spec : ∀ (all : List Occurrence) {r r' : Resolver}, r.Faithful →
    r.resolveAll all = (.ok (), r') → ∀ o ∈ all, ∃ found, chase r.root r.bound [] o.reference = .ok found
  | [], _, _, _, _ => by simp
  | first :: rest, r, r', h, hall => by
    obtain ⟨hnext, hroot, hbound⟩ := h.resolve first.reference first.holder
    rw [Resolver.resolveAll] at hall
    split at hall
    · next found next hresolve =>
      have hfind : r.find first.reference first.holder = .ok found := congrArg Prod.fst hresolve
      rw [hresolve] at hnext hroot hbound
      intro o ho
      rcases List.mem_cons.1 ho with rfl | ho
      · exact ⟨found, h.chase_of_find hfind⟩
      · rw [← hroot, ← hbound]
        exact hnext.resolveAll_spec rest hall o ho
    · cases hall

/-- After a check that passed, the references of all that is shown in the document are found. -/
theorem find_of_checkAll {root tree : Tree} {count : Nat} {r : Resolver} (h : (new root).checkAll = (.ok count, r))
    (htree : tree.Shown root) {text : String} (ht : tree.Refers text) (holder : String) :
    ∃ found, r.find text holder = .ok found := by
  have hserves : r.Serves root := by
    have hchecked := serves_checkAll root
    rwa [h] at hchecked
  unfold checkAll at h
  dsimp only at h
  split at h
  · next last hall =>
    obtain ⟨o, ho, rfl⟩ := htree.occurs ht "#"
    obtain ⟨found, hfound⟩ := (faithful_new root).resolveAll_spec _ hall o ho
    refine ⟨found, ?_⟩
    rw [hserves.find_eq, Reference.resolve, show chase root (chainBound root) [] o.reference = .ok found from hfound]
    rfl
  · cases h

end ContractBindings.Resolver
