import Mathlib.Data.List.Nodup
import Mathlib.Data.List.Perm.Subperm
import ContractBindings.Model.OfGraph

/-!
# Spreading failures over the edges

Spreading adds failures to those there were, each with its diagnostic and each forced by an edge (`Spreads`). What it
ends with is the least set that contains the failures there were and every definition with an edge into it: nothing is
added without need (`Spreads.least`), and since every pass but the last adds a failure, the passes are enough to add all
(`spread_closed`).
-/

namespace ContractBindings.Lowering

variable {edges : Edges} {ids failed new new' : List SchemaId} {diagnostics diagnostics' : List Diagnostic}

/-- Failures are errors about the definitions that failed, in the order in which they failed. -/
def Reports (diagnostics : List Diagnostic) (failed : List SchemaId) : Prop :=
  diagnostics.map (·.unit) = failed.reverse.map (·.pointer) ∧ ∀ d ∈ diagnostics, d.isError = true

theorem Reports.append (h : Reports diagnostics failed) (h' : Reports diagnostics' new) :
    Reports (diagnostics ++ diagnostics') (new ++ failed) := by
  refine ⟨by rw [List.map_append, h.1, h'.1, List.reverse_append, List.map_append], ?_⟩
  intro d hd
  rcases List.mem_append.mp hd with hd | hd
  · exact h.2 d hd
  · exact h'.2 d hd

/-- The definitions `new` are failures besides those before, latest first, with their diagnostics. -/
structure Spreads (edges : Edges) (ids failed new : List SchemaId) (diagnostics : List Diagnostic) : Prop where
  subset : new ⊆ ids
  nodup : new.Nodup
  fresh : ∀ x ∈ new, x ∉ failed
  reports : Reports diagnostics new
  /-- A set that contains the failures before, and a definition with every edge into it, contains the new ones. -/
  least : ∀ P : SchemaId → Prop, (∀ x ∈ failed, P x) → (∀ x ∈ ids, ∀ y ∈ edges.of x, P y → P x) → ∀ x ∈ new, P x

namespace Spreads

theorem refl (edges : Edges) (ids failed : List SchemaId) : Spreads edges ids failed [] [] where
  subset := List.nil_subset _
  nodup := List.nodup_nil
  fresh := by simp
  reports := ⟨rfl, by simp⟩
  least := by simp

theorem trans (h : Spreads edges ids failed new diagnostics)
    (h' : Spreads edges ids (new ++ failed) new' diagnostics') :
    Spreads edges ids failed (new' ++ new) (diagnostics ++ diagnostics') where
  subset := List.append_subset.2 ⟨h'.subset, h.subset⟩
  nodup := List.nodup_append.2 ⟨h'.nodup, h.nodup, fun x hx y hy hxy =>
    h'.fresh x hx (List.mem_append_left _ (hxy ▸ hy))⟩
  fresh := by
    intro x hx
    rcases List.mem_append.mp hx with hx | hx
    · exact fun hf => h'.fresh x hx (List.mem_append_right _ hf)
    · exact h.fresh x hx
  reports := h.reports.append h'.reports
  least := by
    intro P hP hclosed x hx
    have hnew := h.least P hP hclosed
    rcases List.mem_append.mp hx with hx | hx
    · refine h'.least P ?_ hclosed x hx
      intro y hy
      rcases List.mem_append.mp hy with hy | hy
      · exact hnew y hy
      · exact hP y hy
    · exact hnew x hx

/-- One definition with an edge to a failure. -/
theorem step {id broken : SchemaId} (hid : id ∈ ids) (hf : id ∉ failed) (hb : brokenEdge edges failed id = some broken) :
    Spreads edges ids failed [id] [dependencySkipped id.pointer broken] where
  subset := by simpa using hid
  nodup := List.nodup_singleton _
  fresh := by simpa using hf
  reports := ⟨rfl, by simp [dependencySkipped, Diagnostic.error, Diagnostic.isError]⟩
  least := by
    intro P hP hclosed x hx
    obtain rfl := List.mem_singleton.1 hx
    have hmem : broken ∈ edges.of x := List.mem_of_find?_eq_some hb
    have hbroken : failed.contains broken = true := List.find?_some (p := failed.contains) hb
    exact hclosed x hid broken hmem (hP broken (by simpa using hbroken))

/-- No more definitions fail than there are. -/
theorem length_le (h : Spreads edges ids failed new diagnostics) : new.length ≤ ids.length :=
  (List.subperm_of_subset h.nodup h.subset).length_le

end Spreads

/-- The failures are closed: a definition with an edge into them is one of them. -/
def Closed (edges : Edges) (ids failed : List SchemaId) : Prop :=
  ∀ x ∈ ids, x ∉ failed → ∀ y ∈ edges.of x, y ∉ failed

/-- A pass spreads failures among the definitions it passes over. -/
theorem spreadOnce_spreads (edges : Edges) {ids : List SchemaId} :
    ∀ (failed : List SchemaId) (some : List SchemaId), some ⊆ ids →
      ∃ new, (spreadOnce edges failed some).1 = new ++ failed ∧
        Spreads edges ids failed new (spreadOnce edges failed some).2
  | failed, [], _ => ⟨[], rfl, .refl edges ids failed⟩
  | failed, id :: rest, hsub => by
    have hid : id ∈ ids := hsub List.mem_cons_self
    have hrest : rest ⊆ ids := fun _ hx => hsub (List.mem_cons_of_mem _ hx)
    rw [spreadOnce]
    split
    · next broken hb =>
      have hnot : id ∉ failed := by
        intro hf
        simp [hf] at hb
      have hstep := Spreads.step hid hnot (by simpa [hnot] using hb)
      obtain ⟨new, hnew, hs⟩ := spreadOnce_spreads edges (id :: failed) rest hrest
      exact ⟨new ++ [id], by simp [hnew], hstep.trans hs⟩
    · exact spreadOnce_spreads edges failed rest hrest

/-- A pass that finds nothing passes over closed failures. -/
theorem spreadOnce_closed (edges : Edges) : ∀ (failed ids : List SchemaId),
    (spreadOnce edges failed ids).2 = [] → (spreadOnce edges failed ids).1 = failed ∧ Closed edges ids failed
  | _, [], _ => ⟨rfl, by simp [Closed]⟩
  | failed, id :: rest, h => by
    rw [spreadOnce] at h ⊢
    split at h
    · cases h
    · next hnone =>
      obtain ⟨hsame, hclosed⟩ := spreadOnce_closed edges failed rest h
      refine ⟨hsame, ?_⟩
      intro x hx hf
      rcases List.mem_cons.mp hx with rfl | hx
      · simpa [hf, brokenEdge] using hnone
      · exact hclosed x hx hf

/-- Spreading in passes, whatever their number. -/
theorem spread_spreads (edges : Edges) (ids : List SchemaId) : ∀ (fuel : Nat) (failed : List SchemaId),
    ∃ new, (spread edges ids fuel failed).1 = new ++ failed ∧
      Spreads edges ids failed new (spread edges ids fuel failed).2
  | 0, failed => ⟨[], rfl, .refl edges ids failed⟩
  | fuel + 1, failed => by
    obtain ⟨new, hnew, hs⟩ := spreadOnce_spreads edges failed ids (List.Subset.refl ids)
    obtain ⟨further, hfurther, ht⟩ := spread_spreads edges ids fuel (spreadOnce edges failed ids).1
    rw [spread]
    dsimp only
    split
    · next hempty =>
      rw [List.isEmpty_iff.1 hempty] at hs
      exact ⟨new, hnew, hs⟩
    · rw [hnew] at hfurther ht ⊢
      exact ⟨further ++ new, by rw [hfurther, List.append_assoc], hs.trans ht⟩

/-- Enough passes end with closed failures: each pass but the last adds one, and there are no more of them than
definitions. -/
theorem spread_closed (edges : Edges) (ids : List SchemaId) :
    ∀ (fuel : Nat) {start new : List SchemaId} {diagnostics : List Diagnostic},
      Spreads edges ids start new diagnostics → ids.length < new.length + fuel →
        Closed edges ids (spread edges ids fuel (new ++ start)).1
  | 0, start, new, _, hs, hlt => by
    have := hs.length_le
    omega
  | fuel + 1, start, new, _, hs, hlt => by
    obtain ⟨further, hfurther, ht⟩ := spreadOnce_spreads edges (new ++ start) ids (List.Subset.refl ids)
    rw [spread]
    dsimp only
    split
    · next hempty =>
      obtain ⟨hsame, hclosed⟩ := spreadOnce_closed edges (new ++ start) ids (List.isEmpty_iff.1 hempty)
      rw [hsame]
      exact hclosed
    · next hne =>
      have hpos : 0 < further.length := by
        refine List.length_pos_iff.2 fun hnil => hne ?_
        have hreports := ht.reports.1
        rw [hnil] at hreports
        simpa using hreports
      have hlen : ids.length < (further ++ new).length + fuel := by
        rw [List.length_append]
        omega
      have := spread_closed edges ids fuel (hs.trans ht) hlen
      rwa [List.append_assoc, ← hfurther] at this

end ContractBindings.Lowering
