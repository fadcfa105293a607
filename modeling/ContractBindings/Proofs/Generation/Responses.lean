import ContractBindings.Proofs.Generation.Scopes
import ContractBindings.Proofs.Naming.Legal

/-!
# Names of the responses of a model

A response is named by its status alone: `Status` and the status, and `status_` and the status in small letters. So the
responses of an operation have different names, but these are names for a target exactly if the status is made of
characters that the target has in names (`model_responseNames`), which is not asked of a status: that of the key `4-4` is
`4-4` (`dashed_status_names`).
-/

namespace ContractBindings

open Naming Lowering
open Text (isIdentifierContinue)

/-- A variant is a Rust identifier exactly if its status is made of characters of identifiers. -/
theorem rustIdentifier_responseVariant_iff (status : String) :
    RustIdentifier (responseNames status).1 ↔ ∀ c ∈ status.toList, isIdentifierContinue c = true := by
  by_cases hdefault : status = "default"
  · subst hdefault
    have hword : Lettered "default" := by decide
    exact iff_of_true (rustIdentifier_of_capitalized ⟨'D', _, rfl, rfl⟩ (by decide) (by decide))
      fun c hc => (hword c hc).isIdentifierContinue
  · have hnames : (responseNames status).1 = "Status" ++ status := by simp [responseNames, hdefault]
    rw [hnames]
    exact rustIdentifier_append_iff ⟨'S', _, rfl, rfl⟩ (by decide) fun hself => by
      have hlist := congrArg String.toList hself
      rw [String.toList_append] at hlist
      cases hlist

/-- An identifier is the name of a field exactly if its status is made of letters, digits and underscores. -/
theorem fieldName_responseIdent_iff (status : String) : FieldName (responseNames status).2 ↔ Lettered status := by
  by_cases hdefault : status = "default"
  · subst hdefault
    exact iff_of_true (fieldName_of_lettered (by decide) rfl) (by decide)
  · have hnames : (responseNames status).2 = "status_" ++ String.ofList (status.toList.map Char.toLower) := by
      simp [responseNames, hdefault]
    rw [hnames, fieldName_append_iff (fieldName_of_lettered (by decide) rfl)]
    simp [Lettered, wordChar_toLower_iff]

namespace Generator

/-- The responses of an operation of a model have different variants and different identifiers. A variant is a Rust
identifier, and an identifier the name of a field, exactly if the status is made of what may stand in one. -/
theorem model_responseNames {g : Generator} {d : Document} {e : Extraction} {m : Model} (h : g.extraction d = .ok e)
    (hm : g.model e = .ok m) : ∀ o ∈ m.operations,
      (o.responses.map (·.variant)).Nodup ∧ (o.responses.map (·.ident)).Nodup ∧
      ∀ r ∈ o.responses, (RustIdentifier r.variant ↔ ∀ c ∈ r.status.toList, isIdentifierContinue c = true) ∧
        (FieldName r.ident ↔ Lettered r.status) := by
  have heq := model_eq hm
  subst heq
  intro o ho
  have hstatuses := extraction_statuses h
  obtain ⟨hnodup, hresponses⟩ := ofGraph_statuses e.slots.graph g.target g.config hstatuses o ho
  refine ⟨?_, ofGraph_responses_nodup e.slots.graph g.target g.config hstatuses o ho, fun r hr => ?_⟩
  · refine List.Nodup.map_on (fun r hr r' hr' hvariant => ?_) (List.Nodup.of_map _ hnodup)
    rw [(hresponses r hr).2.variant, (hresponses r' hr').2.variant] at hvariant
    exact List.inj_on_of_nodup_map hnodup hr hr' (responseVariants_injective hvariant)
  · obtain ⟨-, hnamed⟩ := hresponses r hr
    rw [hnamed.variant, hnamed.ident]
    exact ⟨rustIdentifier_responseVariant_iff r.status, fieldName_responseIdent_iff r.status⟩

/-- A document with keys of many forms: two for one status, one of letters that are not ASCII, and an empty one. -/
def statusesDocument : Document :=
  ⟨⟨"", "", none⟩, .mapping [(.text "paths", .mapping [(.text "/p", .mapping [(.text "get", .mapping [
    (.text "responses", .mapping [(.int 200, .mapping []), (.text " 4xx", .mapping []), (.text "200", .mapping []),
      (.text "DEFAULT", .mapping []), (.text "é", .mapping []), (.text "", .mapping []),
      (.text "4 x", .mapping [])])])])])]⟩

/-- The names of the responses of an operation. -/
def responseNamesOf (o : OperationDef) : List (String × String) := o.responses.map fun r => (r.variant, r.ident)

def statusesRun : messages.Run statusesDocument fun _ m => m.operations.map responseNamesOf where
  seen := [[("Status200", "status_200"), ("Status4XX", "status_4xx"), ("Default", "default"), ("Statusé", "status_é"),
    ("Status", "status_"), ("Status4 X", "status_4 x")]]
  seen_eq := by decide +kernel

theorem model_responseNames_statusesDocument : ∃ e m, messages.extraction statusesDocument = .ok e ∧
    messages.model e = .ok m ∧ m.operations.map responseNamesOf = statusesRun.seen ∧
    ∀ o ∈ m.operations, (o.responses.map (·.variant)).Nodup ∧ (o.responses.map (·.ident)).Nodup ∧
      ∀ r ∈ o.responses, (RustIdentifier r.variant ↔ ∀ c ∈ r.status.toList, isIdentifierContinue c = true) ∧
        (FieldName r.ident ↔ Lettered r.status) := by
  obtain ⟨e, m, he, hm, hseen⟩ := statusesRun.spec
  exact ⟨e, m, he, hm, hseen, model_responseNames he hm⟩

/-- The text of a contract with a response under the key `4-4`. -/
def dashedText : String :=
  "\x7b\"paths\":\x7b\"/p\":\x7b\"get\":\x7b\"responses\":\x7b\"4-4\":\x7b\x7d\x7d\x7d\x7d\x7d\x7d"

/-- The response is named by what is no identifier of Rust and no name of a field. -/
theorem dashed_status_names : ∃ d e m, Document.load dashedText .json = .ok d ∧ messages.extraction d = .ok e ∧
    messages.model e = .ok m ∧ m.operations.map responseNamesOf = [[("Status4-4", "status_4-4")]] ∧
    ¬ RustIdentifier "Status4-4" ∧ ¬ FieldName "status_4-4" := by
  have hrun : (Document.load dashedText .json).toOption.bind (fun d => (messages.extraction d).toOption.bind fun e =>
      (messages.model e).toOption.map fun m => m.operations.map responseNamesOf) =
      some [[("Status4-4", "status_4-4")]] := by
    decide +kernel
  obtain ⟨d, hd, hrun⟩ := Option.bind_eq_some_iff.1 hrun
  obtain ⟨e, he, hrun⟩ := Option.bind_eq_some_iff.1 hrun
  obtain ⟨m, hm, hnames⟩ := Option.map_eq_some_iff.1 hrun
  refine ⟨d, e, m, ok_of_toOption hd, ok_of_toOption he, ok_of_toOption hm, hnames, ?_, ?_⟩
  · exact mt (rustIdentifier_responseVariant_iff "4-4").1 fun hall => absurd (hall '-' (by decide)) (by decide)
  · exact mt (fieldName_responseIdent_iff "4-4").1 (by decide)

end Generator

end ContractBindings
