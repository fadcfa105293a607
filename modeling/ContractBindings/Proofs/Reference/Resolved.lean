import ContractBindings.Proofs.Lookup
import ContractBindings.Reference.Resolver

/-!
# What references resolve to

A resolver answers as if it remembered nothing, since all it remembers are answers (`Resolver.Faithful`). The end of a
chain is a node of the document at a pointer, and no alias (`chase_spec`); a reference to such a node ends at once
(`chase_self`).
-/

namespace ContractBindings

open Reference

/-- The end of a chain: a pointer of the document, and the node there, which is no alias. -/
theorem Reference.chase_spec {root : Tree} : ∀ {fuel : Nat} {passed : List String} {current : String}
    {found : Resolved}, chase root fuel passed current = .ok found →
      found.pointer.toList.head? = some '#' ∧ Pointer.lookup? root found.pointer = some found.node ∧
        aliasTarget? found.node = none
  | 0, _, _, _, h => by cases h
  | fuel + 1, passed, current, found, h => by
    rw [chase] at h
    split at h
    · cases h
    · next hhash =>
      split at h
      · cases h
      · split at h
        · cases h
        · next node hnode =>
          split at h
          · exact chase_spec h
          · next halias =>
            cases h
            exact ⟨by simpa using hhash, hnode, halias⟩

/-- A reference to a node that is no alias ends there. -/
theorem Reference.chase_self {root node : Tree} {fuel : Nat} {passed : List String} {current : String}
    {found : Resolved} (h : chase root fuel passed current = .ok found) (hnode : Pointer.lookup? root current = some node)
    (halias : aliasTarget? node = none) : found.pointer = current := by
  cases fuel with
  | zero => cases h
  | succ fuel =>
    rw [chase] at h
    split at h
    · cases h
    · split at h
      · cases h
      · rw [hnode] at h
        dsimp only at h
        rw [halias] at h
        cases h
        rfl

namespace Resolver

variable {r : Resolver}

/-- Resolved references lead to pointers of nodes. -/
def Rooted (r : Resolver) : Prop :=
  ∀ reference holder found, r.find reference holder = .ok found → found.pointer.toList.head? = some '#'

/-- All that a resolver remembers are answers. -/
def Faithful (r : Resolver) : Prop := ∀ p ∈ r.known, chase r.root r.bound [] p.1 = .ok p.2

/-- A faithful resolver finds the end of the chain. -/
theorem Faithful.chase_of_find (h : r.Faithful) {reference holder : String} {found : Resolved}
    (hf : r.find reference holder = .ok found) : chase r.root r.bound [] reference = .ok found := by
  unfold find at hf
  split at hf
  · next resolved hk =>
    cases hf
    exact h _ (mem_of_lookup hk)
  · cases hc : chase r.root r.bound [] reference with
    | error e =>
      rw [hc] at hf
      cases hf
    | ok resolved =>
      rw [hc] at hf
      exact congrArg Except.ok (Except.ok.inj hf)

/-- Chains end at pointers of nodes. -/
theorem Faithful.rooted (h : r.Faithful) : r.Rooted := fun _ _ _ hf => (chase_spec (h.chase_of_find hf)).1

theorem faithful_new (root : Tree) : (new root).Faithful := by simp [Faithful, new]

theorem Faithful.resolve (h : r.Faithful) (reference holder : String) :
    (r.resolve reference holder).2.Faithful ∧ (r.resolve reference holder).2.root = r.root ∧
      (r.resolve reference holder).2.bound = r.bound := by
  unfold Resolver.resolve
  cases hf : r.find reference holder with
  | error e => exact ⟨h, rfl, rfl⟩
  | ok found =>
    dsimp only [remember]
    split
    · exact ⟨h, rfl, rfl⟩
    · refine ⟨fun p hp => ?_, rfl, rfl⟩
      rcases List.mem_cons.1 hp with rfl | hp
      · exact h.chase_of_find hf
      · exact h p hp

theorem Faithful.resolveAll : ∀ (all : List Occurrence) {r : Resolver}, r.Faithful →
    (r.resolveAll all).2.Faithful ∧ (r.resolveAll all).2.root = r.root ∧ (r.resolveAll all).2.bound = r.bound
  | [], r, h => ⟨h, rfl, rfl⟩
  | o :: rest, r, h => by
    obtain ⟨hstep, hroot, hbound⟩ := h.resolve o.reference o.holder
    rw [Resolver.resolveAll]
    split
    · next r' hr =>
      rw [hr] at hstep hroot hbound
      obtain ⟨hlast, hroot', hbound'⟩ := hstep.resolveAll rest
      exact ⟨hlast, hroot'.trans hroot, hbound'.trans hbound⟩
    · next r' hr =>
      rw [hr] at hstep hroot hbound
      exact ⟨hstep, hroot, hbound⟩

/-- The resolver of a document after all references were checked. -/
theorem faithful_checkAll (root : Tree) : ((new root).checkAll).2.Faithful ∧ ((new root).checkAll).2.root = root ∧
    ((new root).checkAll).2.bound = chainBound root := by
  have h := (faithful_new root).resolveAll (occurrences root "#")
  unfold checkAll
  dsimp only
  split
  · next r' hr =>
    rw [show (new root).root = root from rfl] at hr
    rw [hr] at h
    exact h
  · next e r' hr =>
    rw [show (new root).root = root from rfl] at hr
    rw [hr] at h
    exact h

end Resolver

end ContractBindings
