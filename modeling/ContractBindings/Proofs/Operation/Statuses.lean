import ContractBindings.Model.Lowering
import ContractBindings.Proofs.Lookup
import ContractBindings.Proofs.Operation.Extracted

/-!
# Statuses of responses

The responses of an extracted operation stand under different statuses in their normal form (`DistinctStatuses`,
`document_statuses`): `default`, or a text without small letters. Identifiers are made of statuses in small letters, which
is no loss for a status in its normal form (`responseNames_injective`).
-/

namespace ContractBindings

open Naming

/-! ## Normal forms -/

/-- A status in its normal form. -/
def NormalStatus (status : String) : Prop := status = "default" ∨ ∀ c ∈ status.toList, c.isLower = false

theorem normalStatus_normalizeStatus (status : String) : NormalStatus (normalizeStatus status) := by
  unfold normalizeStatus
  dsimp only
  split
  · exact .inl rfl
  · refine .inr fun c hc => ?_
    rw [String.toList_ofList] at hc
    obtain ⟨d, -, rfl⟩ := List.mem_map.1 hc
    exact not_isLower_toUpper d

/-- Texts without small letters are told apart by their small letters. -/
theorem map_toLower_injective {cs ds : List Char} (hcs : ∀ c ∈ cs, c.isLower = false) (hds : ∀ d ∈ ds, d.isLower = false)
    (h : cs.map Char.toLower = ds.map Char.toLower) : cs = ds := by
  have hback {cs : List Char} (hcs : ∀ c ∈ cs, c.isLower = false) : (cs.map Char.toLower).map Char.toUpper = cs := by
    rw [List.map_map]
    exact (List.map_congr_left fun c hc => toUpper_toLower (hcs c hc)).trans (List.map_id cs)
  rw [← hback hcs, h, hback hds]

/-- Different statuses in their normal form have different identifiers. -/
theorem responseNames_injective {status status' : String} (h : NormalStatus status) (h' : NormalStatus status')
    (hident : (Lowering.responseNames status).2 = (Lowering.responseNames status').2) : status = status' := by
  have hother (s : String) : "default" ≠ "status_" ++ s := by
    intro heq
    have hlist := congrArg String.toList heq
    rw [String.toList_append] at hlist
    cases hlist
  unfold Lowering.responseNames at hident
  split at hident
  · next hstatus =>
    split at hident
    · next hstatus' => exact (beq_iff_eq.1 hstatus).trans (beq_iff_eq.1 hstatus').symm
    · exact absurd hident (hother _)
  · next hstatus =>
    split at hident
    · exact absurd hident.symm (hother _)
    · next hstatus' =>
      have hlist := congrArg String.toList hident
      simp only [String.toList_append, String.toList_ofList] at hlist
      have hsmall := h.resolve_left fun heq => hstatus (beq_iff_eq.2 heq)
      have hsmall' := h'.resolve_left fun heq => hstatus' (beq_iff_eq.2 heq)
      exact String.toList_inj.1 (map_toLower_injective hsmall hsmall' (List.append_cancel_left hlist))

/-- Different statuses have different variants, in any form. -/
theorem responseVariants_injective {status status' : String}
    (h : (Lowering.responseNames status).1 = (Lowering.responseNames status').1) : status = status' := by
  have hother (s : String) : "Default" ≠ "Status" ++ s := by
    intro heq
    have hlist := congrArg String.toList heq
    rw [String.toList_append] at hlist
    cases hlist
  by_cases hstatus : status = "default" <;> by_cases hstatus' : status' = "default"
  · rw [hstatus, hstatus']
  · simp [Lowering.responseNames, hstatus, hstatus', hother] at h
  · simp [Lowering.responseNames, hstatus, hstatus', (hother _).symm] at h
  · simpa [Lowering.responseNames, hstatus, hstatus'] using h

/-- Responses under different statuses, each in its normal form. -/
structure DistinctStatuses (responses : List (String × Response)) : Prop where
  nodup : (responses.map (·.1)).Nodup
  normal : ∀ status ∈ responses.map (·.1), NormalStatus status

theorem DistinctStatuses.upsert {responses : List (String × Response)} (h : DistinctStatuses responses) (status : String)
    (response : Response) : DistinctStatuses (upsert responses (normalizeStatus status) response) where
  nodup := nodup_upsert h.nodup
  normal other hother := by
    rcases (mem_keys_upsert responses).1 hother with hother | hsame
    · exact h.normal other hother
    · rw [hsame]
      exact normalStatus_normalizeStatus status

theorem DistinctStatuses.nil : DistinctStatuses [] := ⟨List.nodup_nil, fun _ h => by cases h⟩

namespace Extraction

/-! ## Extraction -/

theorem responses_statuses (r : Resolver) (unit base : String) (entries : Entries) :
    Yields (responses r unit base entries) DistinctStatuses fun _ => True := by
  unfold responses
  refine Yields.foldlM_keeps entries (fun (key, entry) _ before hbefore => ?_) [] .nil
  dsimp only
  split
  · exact .pure hbefore
  · refine Yields.trivial.after fun declared => ?_
    split
    · exact Yields.trivial.after fun _ => .pure (hbefore.upsert _ _)
    · exact .pure (hbefore.upsert _ _)

theorem withResponses_statuses (r : Resolver) (unit pointer : String) (node : Entries) (parameters : List Parameter)
    (body : Option RequestBody) : Yields (withResponses r unit pointer node parameters body)
      (fun parts => DistinctStatuses parts.responses) fun _ => True := by
  have hpure (responses : List (String × Response)) (h : DistinctStatuses responses) :
      Yields (pure (⟨parameters, body, responses⟩ : Parts) : Build Parts)
        (fun parts => DistinctStatuses parts.responses) fun _ => True := .pure h
  unfold withResponses
  split
  · exact (responses_statuses r unit _ _).bind hpure
  · exact (Yields.pure .nil).bind hpure
  · exact (Yields.pure .nil).bind hpure
  · exact Yields.bind (.throw trivial) hpure

theorem parts_statuses (r : Resolver) (unit pointer pathPointer : String) (node : Entries) (shared : Option Tree) :
    Yields (parts r unit pointer pathPointer node shared) (fun parts => DistinctStatuses parts.responses)
      fun _ => True := by
  unfold parts
  refine Yields.trivial.after fun first => Yields.trivial.after fun parameters => ?_
  cases node.get? "requestBody" with
  | some entry => exact Yields.trivial.after fun body => withResponses_statuses r unit pointer node parameters body
  | none => exact Yields.trivial.after fun body => withResponses_statuses r unit pointer node parameters body

/-- The operations so far have their responses under different statuses. -/
structure ByStatus (s : Extraction) : Prop where
  orderly : s.slots.Orderly
  distinct : ∀ o ∈ s.operations, DistinctStatuses o.responses

theorem Kept.byStatus {s s' : Extraction} (h : Kept s s') (hs : s.ByStatus) : s'.ByStatus :=
  ⟨h.orderly, h.operations ▸ hs.distinct⟩

theorem Step.byStatus {r : Resolver} (hr : r.Rooted) {naming : OperationNaming} {entry : OperationEntry}
    {s s' : Extraction} (h : Step r naming entry s s') (hs : s.ByStatus) : s'.ByStatus := by
  have hstart : (entry.labelled naming s).ByStatus := ⟨hs.orderly, hs.distinct⟩
  cases h with
  | built _ _ hrun hs' =>
    have hkept := (Builds.entryParts hr naming entry _ _ hstart.orderly).answer hrun
    have hparts := (parts_statuses _ _ _ _ _ _ _).answer hrun
    obtain ⟨horderly, hdistinct⟩ := hkept.1.byStatus hstart
    subst hs'
    exact ⟨horderly, List.forall_mem_append.2 ⟨hdistinct, List.forall_mem_singleton.2 hparts⟩⟩
  | left _ _ hrun hs' =>
    have hkept := (Builds.entryParts hr naming entry _ _ hstart.orderly).failure hrun _ rfl
    obtain ⟨horderly, hdistinct⟩ := hkept.1.byStatus hstart
    subst hs'
    exact ⟨horderly, hdistinct⟩

/-- The operations that are extracted have their responses under different statuses. -/
theorem document_statuses {r : Resolver} (hr : r.Rooted) (naming : OperationNaming) (d : Document) :
    Preserves ByStatus (document r naming d) :=
  document_preserves fun _ _ _ _ hs hstep => hstep.byStatus hr hs

end Extraction

end ContractBindings
