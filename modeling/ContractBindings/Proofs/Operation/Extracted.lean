import ContractBindings.Proofs.Naming.Capital
import ContractBindings.Proofs.Operation.Building

/-!
# Extracting the operations

What extraction does with one entry of `paths` is told once (`Extraction.Step`): its metadata is read, its identifier is
taken, its parts are built, and then the operation is put behind the others or left out with a diagnostic. The extraction
of a document takes such a step for every entry, in document order (`document_steps`), so what every step keeps, it keeps
(`document_preserves`).

Every entry under the name of a method has an identifier of its own, and extraction accounts for each: the entry becomes an
operation or is left out with one error, never both (`Extraction.Accounts`). The identifiers are those of the entries in
document order (`document_extracts`).
-/

namespace ContractBindings

open Naming

/-! ## Entries -/

/-- The operations among what stands under a key of `paths`: the path, the method and the entry of the method. -/
def Tree.operations : Tree → Tree → List (String × Method × Tree)
  | .mapping entries, key => entries.filterMap fun (name, tree) => do
    return (← key.asText?, ← name.asText?.bind Method.ofName?, tree)
  | _, _ => []

/-- The entries of `paths` that are operations, in document order. -/
def Document.operations (d : Document) : List (String × Method × Tree) :=
  (d.paths?.getD []).flatMap fun (key, item) => item.operations key

/-- The identifier of an entry of `paths`. -/
def OperationNaming.identify (naming : OperationNaming) (entry : String × Method × Tree) : String :=
  Extraction.identifier naming entry.2.1 entry.1
    (entry.2.2.asMapping?.bind fun node =>
      (Record.read operationRule (.mapping node)).toOption.bind fun record => record.text? "operationId")

/-- An entry of `paths` that is an operation, with the parameters that its path declares. -/
structure OperationEntry where
  path : String
  shared : Option Tree
  method : Method
  tree : Tree

/-- The operations among what stands under a key of `paths`. -/
def Tree.operationEntries : Tree → Tree → List OperationEntry
  | .mapping entries, key => entries.filterMap fun (name, tree) => do
    return ⟨← key.asText?, Entries.get? entries "parameters", ← name.asText?.bind Method.ofName?, tree⟩
  | _, _ => []

/-- The entries of `paths` that are operations, in document order. -/
def Document.entries (d : Document) : List OperationEntry :=
  (d.paths?.getD []).flatMap fun (key, item) => item.operationEntries key

namespace OperationEntry

/-- The pointer of the path. -/
def pathPointer (entry : OperationEntry) : String := Pointer.child "#/paths" entry.path

/-- The pointer of the entry. -/
def pointer (entry : OperationEntry) : String := Pointer.child entry.pathPointer entry.method.name

/-- The identifier of the entry. -/
def id (naming : OperationNaming) (entry : OperationEntry) : String :=
  naming.identify (entry.path, entry.method, entry.tree)

/-- The entry is a mapping with metadata in their form. -/
structure Holds (entry : OperationEntry) (node : Entries) (record : Record) : Prop where
  mapping : entry.tree.asMapping? = some node
  metadata : Record.read operationRule (.mapping node) = .ok record

/-- Building the parts of the operation. -/
def parts (r : Resolver) (naming : OperationNaming) (entry : OperationEntry) (node : Entries) :
    Extraction.Build Extraction.Parts :=
  Extraction.parts r (entry.id naming) entry.pointer entry.pathPointer node entry.shared

/-- The operation of an entry with its parts. -/
def operation (naming : OperationNaming) (entry : OperationEntry) (record : Record) (parts : Extraction.Parts) :
    Operation :=
  ⟨entry.id naming, entry.method, entry.path, record.text? "summary", record.text? "description",
    record.flag "deprecated", parts.parameters, parts.requestBody, parts.responses⟩

/-- The state in which the parts are built: the identifier is taken. -/
def labelled (naming : OperationNaming) (entry : OperationEntry) (s : Extraction) : Extraction :=
  { s with labels := (entry.id naming, entry.method.capitalName ++ " " ++ entry.path) :: s.labels }

theorem Holds.id_eq {entry : OperationEntry} {node : Entries} {record : Record} (h : entry.Holds node record)
    (naming : OperationNaming) :
    entry.id naming = Extraction.identifier naming entry.method entry.path (record.text? "operationId") := by
  simp [id, OperationNaming.identify, h.mapping, h.metadata, Except.toOption]

end OperationEntry

/-- The identifiers of the entries are those of the operations. -/
theorem Document.identify_operations (d : Document) (naming : OperationNaming) :
    d.operations.map naming.identify = d.entries.map (·.id naming) := by
  have hitem (key item : Tree) :
      (item.operations key).map naming.identify = (item.operationEntries key).map (·.id naming) := by
    cases item with
    | mapping entries =>
      rw [Tree.operations, Tree.operationEntries, List.map_filterMap, List.map_filterMap]
      refine List.filterMap_congr fun (name, tree) _ => ?_
      dsimp only
      cases key.asText? <;> cases name.asText?.bind Method.ofName? <;> rfl
    | _ => rfl
  rw [operations, entries, List.map_flatMap, List.map_flatMap]
  exact List.flatMap_congr fun (key, item) _ => hitem key item

namespace Extraction

/-! ## Identifiers -/

theorem smallChar_of_mem_pathWords {c : Char} : ∀ {last : Char} {cs : List Char}, c ∈ pathWords last cs → SmallChar c
  | _, [], h => by cases h
  | last, d :: cs, h => by
    rw [pathWords] at h
    split at h
    · exact smallChar_of_mem_pathWords h
    · split at h
      · next hd =>
        rcases List.mem_cons.1 h with rfl | h
        · exact smallChar_toLower hd
        · exact smallChar_of_mem_pathWords h
      · split at h
        · exact smallChar_of_mem_pathWords h
        · rcases List.mem_cons.1 h with rfl | h
          · exact ⟨rfl, .inr rfl⟩
          · exact smallChar_of_mem_pathWords h

theorem mem_of_mem_dropUnderscoreEnd {c : Char} : ∀ {cs : List Char}, c ∈ dropUnderscoreEnd cs → c ∈ cs
  | [], h => by cases h
  | d :: cs, h => by
    rw [dropUnderscoreEnd] at h
    split at h
    · split at h
      · cases h
      · exact List.mem_singleton.1 h ▸ List.mem_cons_self
    · rcases List.mem_cons.1 h with rfl | h
      · exact List.mem_cons_self
      · exact List.mem_cons_of_mem _ (mem_of_mem_dropUnderscoreEnd h)

theorem smallLettered_methodName (m : Method) : SmallLettered m.name := by
  cases m <;> simp [SmallLettered, SmallChar, Method.name]

/-- Identifiers of operations are small names. -/
theorem smallLettered_identifier (naming : OperationNaming) (method : Method) (path : String) (declared : Option String) :
    SmallLettered (identifier naming method path declared) := by
  have hpath : SmallLettered (pathIdentifier method path) := by
    intro c hc
    rw [pathIdentifier, String.toList_ofList] at hc
    rcases List.mem_append.1 (mem_of_mem_dropUnderscoreEnd hc) with hc | hc
    · exact smallLettered_methodName method c hc
    · exact smallChar_of_mem_pathWords hc
  unfold identifier
  split
  · exact smallLettered_snakeCase _
  · exact hpath

end Extraction

theorem OperationNaming.smallLettered_identify (naming : OperationNaming) (entry : String × Method × Tree) :
    SmallLettered (naming.identify entry) := Extraction.smallLettered_identifier _ _ _ _

namespace Extraction

variable {r : Resolver} {naming : OperationNaming} {entry : OperationEntry} {s s' : Extraction}

/-! ## Step by step -/

/-- What extraction does with an entry, unless the run ends. -/
inductive Step (r : Resolver) (naming : OperationNaming) (entry : OperationEntry) (s s' : Extraction) : Prop
  | built {node : Entries} {record : Record} {parts : Parts} {t : Extraction} : entry.Holds node record →
      entry.id naming ∉ s.labels.map (·.1) →
      ((entry.parts r naming node).run).run (entry.labelled naming s) = (.ok parts, t) →
      s' = { t with operations := t.operations ++ [entry.operation naming record parts] } → Step r naming entry s s'
  | left {node : Entries} {record : Record} {d : Diagnostic} {t : Extraction} : entry.Holds node record →
      entry.id naming ∉ s.labels.map (·.1) →
      ((entry.parts r naming node).run).run (entry.labelled naming s) = (.error (.skip d), t) →
      s' = { t with diagnostics := t.diagnostics ++ [d] } → Step r naming entry s s'

/-- Where building ends as told, so does the attempt: the operation is put behind the others, or a diagnostic recorded. -/
theorem attempt_ends {build : Build Operation} {P : Extraction → Prop}
    (h : Ends build s (fun o t => P { t with operations := t.operations ++ [o] })
      fun e t => ∀ d, e = .skip d → P { t with diagnostics := t.diagnostics ++ [d] }) :
    Ends (attempt build) s (fun _ s' => P s') fun _ _ => True := by
  unfold attempt
  refine ends_bind.2 (ends_get.2 ?_)
  rcases hrun : (build.run).run s with ⟨answer, t⟩
  refine ends_bind.2 (ends_set.2 ?_)
  cases answer with
  | ok o => exact ends_modify.2 (h.answer hrun)
  | error e =>
    cases e with
    | skip d => exact ends_modify.2 (h.failure hrun d rfl)
    | abort failure => exact ends_throw.2 trivial

theorem operation_steps (r : Resolver) (naming : OperationNaming) (entry : OperationEntry) (s : Extraction) :
    Ends (operation r naming entry.path entry.pathPointer entry.shared entry.method entry.tree) s
      (fun _ s' => Step r naming entry s s') fun _ _ => True := by
  unfold operation
  dsimp only
  split
  · exact ends_throw.2 trivial
  · next node hnode =>
    split
    · exact ends_throw.2 trivial
    · next record hrecord =>
      have hholds : entry.Holds node record := ⟨hnode, hrecord⟩
      rw [← hholds.id_eq naming]
      refine ends_bind.2 (ends_get.2 ?_)
      split
      · exact ends_throw.2 trivial
      · next hfree =>
        have hid : entry.id naming ∉ s.labels.map (·.1) := lookup_eq_none_iff.1 hfree
        refine ends_bind.2 (ends_modify.2 ?_)
        refine attempt_ends (ends_bind.2 (Ends.self.mono (fun parts t hrun => ?_) fun e t hrun d hd => ?_))
        · exact ends_pure.2 (.built hholds hid hrun rfl)
        · exact .left hholds hid (hd ▸ hrun) rfl

/-- Entries one after another. -/
inductive Steps (r : Resolver) (naming : OperationNaming) : List OperationEntry → Extraction → Extraction → Prop
  | nil {s : Extraction} : Steps r naming [] s s
  | cons {entry : OperationEntry} {rest : List OperationEntry} {s t u : Extraction} : Step r naming entry s t →
      Steps r naming rest t u → Steps r naming (entry :: rest) s u

theorem Steps.append {first rest : List OperationEntry} {s t u : Extraction} (h : Steps r naming first s t)
    (h' : Steps r naming rest t u) : Steps r naming (first ++ rest) s u := by
  induction h with
  | nil => exact h'
  | cons hstep _ ih => exact .cons hstep (ih h')

/-- Items that each stand for some entries stand for these together. -/
theorem forM_steps {f : γ → Extract Unit} {entries : γ → List OperationEntry}
    (hf : ∀ c s, Ends (f c) s (fun _ s' => Steps r naming (entries c) s s') fun _ _ => True) :
    ∀ (items : List γ) (s : Extraction),
      Ends (items.forM f) s (fun _ s' => Steps r naming (items.flatMap entries) s s') fun _ _ => True
  | [], _ => ends_pure.2 .nil
  | c :: items, s => ends_bind.2 ((hf c s).mono
      (fun _ t hfirst => (forM_steps hf items t).mono (fun _ _ hrest => hfirst.append hrest) fun _ _ h => h)
      fun _ _ h => h)

theorem pathItem_steps (r : Resolver) (naming : OperationNaming) (key item : Tree) (s : Extraction) :
    Ends (pathItem r naming key item) s (fun _ s' => Steps r naming (item.operationEntries key) s s') fun _ _ => True := by
  unfold pathItem
  split
  · exact ends_throw.2 trivial
  · next path hpath =>
    dsimp only
    split
    · exact ends_pure.2 .nil
    · next entries =>
      have hentries : (Tree.mapping entries).operationEntries key = entries.flatMap fun (name, tree) =>
          ((name.asText?.bind Method.ofName?).map fun method =>
            (⟨path, Entries.get? entries "parameters", method, tree⟩ : OperationEntry)).toList := by
        rw [Tree.operationEntries, List.filterMap_eq_flatMap_toList]
        refine List.flatMap_congr fun (name, tree) _ => ?_
        dsimp only
        rw [hpath]
        cases name.asText?.bind Method.ofName? <;> rfl
      rw [hentries]
      refine forM_steps (fun (name, tree) s => ?_) entries s
      dsimp only
      split
      · next method hmethod =>
        rw [hmethod]
        have hstep := operation_steps r naming ⟨path, Entries.get? entries "parameters", method, tree⟩ s
        exact hstep.mono (fun _ _ hstep => .cons hstep .nil) fun _ _ h => h
      · next hmethod =>
        rw [hmethod]
        exact ends_pure.2 .nil
    · exact ends_throw.2 trivial

/-- The extraction of a document is a step for every entry, in document order. -/
theorem document_steps (r : Resolver) (naming : OperationNaming) (d : Document) (s : Extraction) :
    Ends (document r naming d) s (fun _ s' => Steps r naming d.entries s s') fun _ _ => True :=
  forM_steps (fun (key, item) s => pathItem_steps r naming key item s) _ s

/-- An extraction that ends keeps a property of what is extracted so far. -/
def Preserves (I : Extraction → Prop) (x : Extract Unit) : Prop :=
  ∀ s, I s → Ends x s (fun _ s' => I s') fun _ _ => True

theorem Steps.keeps {I : Extraction → Prop} {entries : List OperationEntry} (h : Steps r naming entries s s')
    (hkeeps : ∀ entry ∈ entries, ∀ s s', I s → Step r naming entry s s' → I s') (hs : I s) : I s' := by
  induction h with
  | nil => exact hs
  | cons hstep _ ih =>
    exact ih (fun entry hentry => hkeeps entry (List.mem_cons_of_mem _ hentry)) (hkeeps _ List.mem_cons_self _ _ hs hstep)

/-- What every step keeps, the extraction of a document keeps. -/
theorem document_preserves {I : Extraction → Prop} {d : Document}
    (h : ∀ entry ∈ d.entries, ∀ s s', I s → Step r naming entry s s' → I s') :
    Preserves I (document r naming d) :=
  fun s hs => (document_steps r naming d s).mono (fun _ _ hsteps => hsteps.keeps h hs) fun _ _ h => h

/-- Building the parts of an entry is building for its identifier. -/
theorem Builds.entryParts (hr : r.Rooted) (naming : OperationNaming) (entry : OperationEntry) (node : Entries) :
    Builds (entry.id naming) (entry.parts r naming node) fun parts s => parts.Takes s := .parts hr _ _ _ _

/-! ## Accounting for every entry -/

/-- Identifiers differ, and every one is that of an operation or of an error. The schemas of operations are unnested, and refer
to definitions that are open. -/
structure Accounts (s : Extraction) : Prop where
  orderly : s.slots.Orderly
  takes : ∀ o ∈ s.operations, ∀ n ∈ o.schemas, s.slots.Takes n
  nodup : (s.labels.map (·.1)).Nodup
  perm : (s.operations.map (·.id) ++ (s.diagnostics.filter Diagnostic.isError).map (·.unit)).Perm (s.labels.map (·.1))

theorem Accounts.good {s : Extraction} (h : s.Accounts) : s.slots.Good := h.orderly.good

/-- Extraction of the entries with the given identifiers. A failure ends the run. -/
def Extracts (ids : List String) (x : Extract Unit) : Prop :=
  ∀ s : Extraction, s.Accounts →
    Ends x s (fun _ s' => s'.Accounts ∧ s.slots.Grows s'.slots ∧
      s'.labels.map (·.1) = ids.reverse ++ s.labels.map (·.1)) fun _ _ => True

/-- The errors are those from before. -/
theorem Kept.errors (h : Kept s s') :
    s'.diagnostics.filter Diagnostic.isError = s.diagnostics.filter Diagnostic.isError := by
  obtain ⟨notes, hs', hnotes⟩ := h.diagnostics
  have hnone : notes.filter Diagnostic.isError = [] := List.filter_eq_nil_iff.2 fun d hd => by simp [hnotes d hd]
  rw [hs', List.filter_append, hnone, List.append_nil]

/-- The schemas of the operations from before refer to definitions that are open. -/
theorem Kept.takes (h : Kept s s') (hs : ∀ o ∈ s.operations, ∀ n ∈ o.schemas, s.slots.Takes n) :
    ∀ o ∈ s'.operations, ∀ n ∈ o.schemas, s'.slots.Takes n := by
  rw [h.operations]
  exact fun o ho n hn => (hs o ho n hn).mono h.slots

/-- A step accounts for its entry: an operation or an error is put behind those from before, under a new identifier. -/
theorem Step.accounts (hr : r.Rooted) (h : Step r naming entry s s') (hs : s.Accounts) :
    s'.Accounts ∧ s.slots.Grows s'.slots ∧ s'.labels.map (·.1) = entry.id naming :: s.labels.map (·.1) := by
  have hperm : (s.operations.map (·.id) ++ (s.diagnostics.filter Diagnostic.isError).map (·.unit) ++
      [entry.id naming]).Perm (entry.id naming :: s.labels.map (·.1)) :=
    (List.perm_append_singleton _ _).trans (hs.perm.cons _)
  cases h with
  | built _ hid hrun hs' =>
    obtain ⟨hkept, hparts⟩ := (Builds.entryParts hr naming entry _ (entry.labelled naming s) hs.orderly).answer hrun
    have hlabels := congrArg (List.map (·.1)) hkept.labels
    subst hs'
    refine ⟨⟨hkept.orderly, fun o ho => ?_, ?_, ?_⟩, hkept.slots, hlabels⟩
    · rcases List.mem_append.1 ho with ho | ho
      · exact hkept.takes hs.takes o ho
      · rw [List.mem_singleton.1 ho]
        exact hparts.schemas
    · exact hlabels ▸ List.nodup_cons.2 ⟨hid, hs.nodup⟩
    · refine hlabels ▸ List.Perm.trans ?_ hperm
      rw [hkept.errors, hkept.operations, List.map_append, List.map_singleton, List.append_assoc, List.append_assoc]
      exact List.perm_append_comm.append_left _
  | left _ hid hrun hs' =>
    obtain ⟨hkept, herror, hunit⟩ := (Builds.entryParts hr naming entry _ (entry.labelled naming s) hs.orderly).failure hrun _ rfl
    have hlabels := congrArg (List.map (·.1)) hkept.labels
    subst hs'
    refine ⟨⟨hkept.orderly, hkept.takes hs.takes, ?_, ?_⟩, hkept.slots, hlabels⟩
    · exact hlabels ▸ List.nodup_cons.2 ⟨hid, hs.nodup⟩
    · refine hlabels ▸ List.Perm.trans (.of_eq ?_) hperm
      rw [hkept.operations, List.filter_append, hkept.errors]
      simp [herror, hunit, OperationEntry.labelled]

theorem Steps.accounts (hr : r.Rooted) {entries : List OperationEntry} (h : Steps r naming entries s s')
    (hs : s.Accounts) : s'.Accounts ∧ s.slots.Grows s'.slots ∧
      s'.labels.map (·.1) = (entries.map (·.id naming)).reverse ++ s.labels.map (·.1) := by
  induction h with
  | nil => exact ⟨hs, .refl _, rfl⟩
  | cons hstep _ ih =>
    obtain ⟨ht, hgrows, hlabels⟩ := hstep.accounts hr hs
    obtain ⟨hu, hgrows', hlabels'⟩ := ih ht
    exact ⟨hu, hgrows.trans hgrows', by simp [hlabels', hlabels]⟩

/-- Extraction of a document accounts for all its entries. -/
theorem document_extracts {r : Resolver} (hr : r.Rooted) (naming : OperationNaming) (d : Document) :
    Extracts (d.operations.map naming.identify) (document r naming d) := by
  rw [d.identify_operations naming]
  exact fun s hs => (document_steps r naming d s).mono (fun _ _ hsteps => hsteps.accounts hr hs) fun _ _ h => h

end Extraction

end ContractBindings
