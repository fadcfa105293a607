import ContractBindings.Proofs.Operation.Merging

/-!
# What extracted operations are made of

Every extracted operation is that of an entry of `paths`: its parameters and responses are what the entry declares, merged,
and the diagnostics about it are the warnings that the merging records (`OperationEntry.Declares`). Diagnostics are about
entries that were met, so none is about an entry that is met later, and what holds of an operation when it is built holds
of it in the end (`document_records`).
-/

namespace ContractBindings

namespace OperationEntry

/-- The places of the parameters that an operation has: those of its path, then its own. -/
def parameterPlaces (entry : OperationEntry) (node : Entries) : List (String × Tree) :=
  Extraction.parameterPlaces (Pointer.child entry.pathPointer "parameters") entry.shared ++
    Extraction.parameterPlaces (Pointer.child entry.pointer "parameters") (node.get? "parameters")

/-- The places of the responses of an operation, with their statuses. -/
def responsePlaces (entry : OperationEntry) (node : Entries) : List (String × String × Tree) :=
  Extraction.declaredResponses (Pointer.child entry.pointer "responses") (node.get? "responses")

/-- The operation is that of an entry with what the entry declares, and the diagnostics are those of its merging. -/
def Declares (r : Resolver) (naming : OperationNaming) (slots : Slots) (entry : OperationEntry) (o : Operation)
    (notes : List Diagnostic) : Prop :=
  ∃ node record parts, entry.Holds node record ∧ o = entry.operation naming record parts ∧
    parts.Declared r (entry.id naming) (entry.parameterPlaces node) (entry.responsePlaces node) slots notes

theorem Declares.mono {r : Resolver} {naming : OperationNaming} {slots slots' : Slots} {entry : OperationEntry}
    {o : Operation} {notes : List Diagnostic} (h : entry.Declares r naming slots o notes) (hs : slots.Grows slots') :
    entry.Declares r naming slots' o notes := by
  obtain ⟨node, record, parts, hholds, ho, hparts⟩ := h
  exact ⟨node, record, parts, hholds, ho, hparts.mono hs⟩

end OperationEntry

namespace Extraction

variable {r : Resolver} {naming : OperationNaming} {d : Document} {unit : String} {recorded : List Diagnostic}

/-! ## Diagnostics about a unit -/

/-- What was recorded after the given diagnostics is about a unit. -/
def NotesAbout (unit : String) (recorded : List Diagnostic) (s : Extraction) : Prop :=
  ∃ notes, s.diagnostics = recorded ++ notes ∧ ∀ x ∈ notes, x.unit = unit

theorem NotesAbout.add {s : Extraction} (h : NotesAbout unit recorded s) {x : Diagnostic} (hx : x.unit = unit) :
    NotesAbout unit recorded { s with diagnostics := s.diagnostics ++ [x] } := by
  obtain ⟨notes, hs, hnotes⟩ := h
  refine ⟨notes ++ [x], by rw [hs, List.append_assoc], fun y hy => ?_⟩
  rcases List.mem_append.1 hy with hy | hy
  · exact hnotes y hy
  · rw [List.mem_singleton.1 hy, hx]

theorem Blind.keeps {x : Build α} (hx : Blind x) : Keeps (NotesAbout unit recorded) x fun _ => True := by
  intro s hs
  have hafter {answer : Except Rejection α} {t : Extraction} (hrun : x.run.run s = (answer, t)) :
      NotesAbout unit recorded t := hs.imp fun _ hnotes => ⟨(hx.diagnostics hrun).trans hnotes.1, hnotes.2⟩
  exact Ends.self.mono (fun _ _ hrun => ⟨hafter hrun, trivial⟩) fun _ _ hrun => hafter hrun

theorem parameterList_notes (base : String) (before : List Parameter) (tree : Option Tree) :
    Keeps (NotesAbout unit recorded) (parameterList r unit base before tree) fun _ => True := by
  cases tree with
  | none => exact .pure trivial
  | some tree =>
    rw [parameterList]
    split
    · exact .throw _
    · exact .foldlM _ (fun c _ _ _ => (Blind.parameter c.2 _).keeps.after fun _ => .pure trivial) before trivial

theorem withResponses_notes (pointer : String) (node : Entries) (parameters : List Parameter)
    (body : Option RequestBody) :
    Keeps (NotesAbout unit recorded) (withResponses r unit pointer node parameters body) fun _ => True := by
  unfold withResponses
  split
  · refine Keeps.after ?_ fun _ => .pure trivial
    rw [responses_eq]
    refine .foldlM _ (fun c _ before _ => ?_) [] trivial
    unfold responseAfter
    split
    · exact .pure trivial
    · refine (Blind.response c.2 _).keeps.after fun declared => ?_
      split
      · exact Keeps.after (.modify fun s hs => hs.add rfl) fun _ => .pure trivial
      · exact .pure trivial
  · exact .pure trivial
  · exact .pure trivial
  · exact .throw _

/-- All that is recorded while an operation is built is about it. -/
theorem parts_notes (pointer pathPointer : String) (node : Entries) (shared : Option Tree) :
    Keeps (NotesAbout unit recorded) (parts r unit pointer pathPointer node shared) fun _ => True := by
  unfold parts
  refine (parameterList_notes _ _ _).after fun first => (parameterList_notes _ _ _).after fun merged => ?_
  cases node.get? "requestBody" with
  | some entry => exact (Blind.requestBody pointer entry).keeps.after fun body => withResponses_notes pointer node merged body
  | none => exact withResponses_notes pointer node merged none

/-! ## The run -/

/-- Diagnostics and operations are of entries that were met, and every operation is what an entry declares. -/
structure Recorded (r : Resolver) (naming : OperationNaming) (d : Document) (s : Extraction) : Prop where
  orderly : s.slots.Orderly
  units : ∀ x ∈ s.diagnostics, x.unit ∈ s.labels.map (·.1)
  ids : ∀ o ∈ s.operations, o.id ∈ s.labels.map (·.1)
  operations : ∀ o ∈ s.operations, ∃ entry ∈ d.entries,
    entry.Declares r naming s.slots o (s.diagnostics.filter fun x => x.unit == o.id)

theorem filter_unit_append {before notes : List Diagnostic} {id : String} (hnotes : ∀ x ∈ notes, x.unit = unit)
    (hid : id ≠ unit) : (before ++ notes).filter (fun x => x.unit == id) = before.filter fun x => x.unit == id := by
  have hnone : notes.filter (fun x => x.unit == id) = [] :=
    List.filter_eq_nil_iff.2 fun x hx => by simpa [hnotes x hx] using fun he => hid he.symm
  rw [List.filter_append, hnone, List.append_nil]

/-- An entry that is met adds diagnostics about itself, and leaves the operations before as they are. -/
theorem Recorded.grow {s s' : Extraction} (h : Recorded r naming d s) {entry : OperationEntry}
    (hid : entry.id naming ∉ s.labels.map (·.1)) (hlabels : s'.labels = (entry.labelled naming s).labels)
    (hslots : s.slots.Grows s'.slots) (horderly : s'.slots.Orderly)
    (hnotes : NotesAbout (entry.id naming) s.diagnostics s') {added : List Operation}
    (hoperations : s'.operations = s.operations ++ added)
    (hadded : ∀ o ∈ added, o.id = entry.id naming ∧ ∃ entry ∈ d.entries,
      entry.Declares r naming s'.slots o (s'.diagnostics.filter fun x => x.unit == o.id)) : Recorded r naming d s' := by
  obtain ⟨notes, hs', habout⟩ := hnotes
  have hmet {id : String} (hmem : id ∈ s.labels.map (·.1)) : id ∈ s'.labels.map (·.1) := by
    rw [hlabels]
    exact List.mem_cons_of_mem _ hmem
  have hnew : entry.id naming ∈ s'.labels.map (·.1) := by
    rw [hlabels]
    exact List.mem_cons_self
  refine ⟨horderly, fun x hx => ?_, fun o ho => ?_, fun o ho => ?_⟩
  · rw [hs'] at hx
    rcases List.mem_append.1 hx with hx | hx
    · exact hmet (h.units x hx)
    · exact habout x hx ▸ hnew
  · rw [hoperations] at ho
    rcases List.mem_append.1 ho with ho | ho
    · exact hmet (h.ids o ho)
    · exact (hadded o ho).1 ▸ hnew
  · rw [hoperations] at ho
    rcases List.mem_append.1 ho with ho | ho
    · obtain ⟨other, hother, hdeclares⟩ := h.operations o ho
      have hne : o.id ≠ entry.id naming := fun he => hid (he ▸ h.ids o ho)
      rw [hs', filter_unit_append habout hne]
      exact ⟨other, hother, hdeclares.mono hslots⟩
    · exact (hadded o ho).2

/-- What is recorded about a unit that was not met before are the notes about it. -/
theorem filter_unit_self {before notes : List Diagnostic} (hbefore : ∀ x ∈ before, x.unit ≠ unit)
    (hnotes : ∀ x ∈ notes, x.unit = unit) : (before ++ notes).filter (fun x => x.unit == unit) = notes := by
  have hnone : before.filter (fun x => x.unit == unit) = [] :=
    List.filter_eq_nil_iff.2 fun x hx => by simpa using hbefore x hx
  have hall : notes.filter (fun x => x.unit == unit) = notes :=
    List.filter_eq_self.2 fun x hx => by simpa using hnotes x hx
  rw [List.filter_append, hnone, hall, List.nil_append]

theorem Recorded.step (hr : r.Rooted) {entry : OperationEntry} (hentry : entry ∈ d.entries) {s s' : Extraction}
    (h : Recorded r naming d s) (hstep : Step r naming entry s s') : Recorded r naming d s' := by
  have hnone : NotesAbout (entry.id naming) s.diagnostics (entry.labelled naming s) := ⟨[], by simp [OperationEntry.labelled]⟩
  have horderly : (entry.labelled naming s).slots.Orderly := h.orderly
  cases hstep with
  | @built node record parts t hholds hid hrun hs' =>
    subst hs'
    have hkept : Kept (entry.labelled naming s) t := ((Builds.entryParts hr naming entry node _ horderly).answer hrun).1
    have habout : NotesAbout (entry.id naming) s.diagnostics t := ((parts_notes _ _ _ _ _ hnone).answer hrun).1
    obtain ⟨notes, hnotes, hdeclared⟩ := parts_declared hr horderly hrun
    refine h.grow hid hkept.labels hkept.slots hkept.orderly habout (congrArg (· ++ _) hkept.operations) fun o ho => ?_
    obtain rfl := List.mem_singleton.1 ho
    refine ⟨rfl, entry, hentry, node, record, parts, hholds, rfl, ?_⟩
    have hunit : ∀ x ∈ notes, x.unit = entry.id naming := by
      rw [hdeclared.notes]
      intro x hx
      obtain ⟨status, -, rfl⟩ := List.mem_map.1 hx
      rfl
    have hfilter : t.diagnostics.filter (fun x => x.unit == entry.id naming) = notes := by
      rw [hnotes]
      exact filter_unit_self (fun x hx he => hid (he ▸ h.units x hx)) hunit
    exact hfilter.symm ▸ hdeclared
  | @left node record x t hholds hid hrun hs' =>
    subst hs'
    obtain ⟨hkept, -, hunit⟩ := (Builds.entryParts hr naming entry node _ horderly).failure hrun x rfl
    have habout : NotesAbout (entry.id naming) s.diagnostics t := (parts_notes _ _ _ _ _ hnone).failure hrun
    have hoperations : t.operations = s.operations ++ [] := hkept.operations.trans (List.append_nil _).symm
    exact h.grow hid hkept.labels hkept.slots hkept.orderly (habout.add hunit) hoperations (by simp)

/-- The operations of a document are what its entries declare. -/
theorem document_records (hr : r.Rooted) (naming : OperationNaming) (d : Document) :
    Preserves (Recorded r naming d) (document r naming d) :=
  document_preserves fun _ hentry _ _ hs hstep => hs.step hr hentry hstep

end Extraction

end ContractBindings
