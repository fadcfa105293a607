import ContractBindings.Proofs.Model.Generated
import ContractBindings.Proofs.Model.Lockstep

/-!
# Operations that are rejected

An operation that cannot be lowered leaves nothing in the model, but the names that it was given stay taken
(`forsaken`). Without the rejected operations the others are lowered all the same, to types of the same schemas and to
operations of the same headers (`Assembly.Alike`); and to the very same types and operations exactly if they are given
none of the names that the rejected ones were given (`lowerOperations_beside`, `not_forsaken`).
-/

namespace ContractBindings

open Naming

/-- What identifies an operation and describes it. -/
def Operation.header (o : Operation) : String × Method × String × Option String × Option String × Bool :=
  (o.id, o.method, o.path, o.summary, o.description, o.deprecated)

/-- The names of the types of a model, and those that its operations claim for their own. -/
def Model.names (m : Model) : List String := m.types.map (·.name) ++ m.operations.flatMap OperationDef.names

namespace Lowering

/-- How lowering an operation ends after the operations so far. -/
def Assembly.attempt (c : Context) (a : Assembly) (o : Operation) : Except Diagnostic OperationDef × Draft :=
  ((lowerOperation (c.during a.inlineNames o.id) o).run).run (Draft.start a.registry)

/-- The operations that are not rejected, each after those before it. -/
def accepted (c : Context) (a : Assembly) : List Operation → List Operation
  | [] => []
  | o :: rest =>
    let others := accepted c (lowerOperations c a [o]) rest
    if (a.attempt c o).1.isOk then o :: others else others

/-- The snake forms of the names that were given to operations that are rejected. -/
def forsaken (c : Context) (a : Assembly) : List Operation → List String
  | [] => []
  | o :: rest =>
    let others := forsaken c (lowerOperations c a [o]) rest
    if (a.attempt c o).1.isOk then others
    else ((a.attempt c o).2.registry.taken.filter fun form => !a.registry.taken.contains form) ++ others

/-! ## One operation -/

/-- An operation is taken into the model with the types in it. -/
def Assembly.accept (a : Assembly) (operation : OperationDef) (draft : Draft) : Assembly :=
  ⟨draft.registry, draft.inlineNames.reverse ++ a.inlineNames,
    ⟨a.model.types ++ draft.types, a.model.operations ++ [operation], a.model.diagnostics ++ draft.warnings⟩⟩

/-- Of a rejected operation there are an error and the names that it was given. -/
def Assembly.dismiss (a : Assembly) (e : Diagnostic) (draft : Draft) : Assembly :=
  ⟨draft.registry, a.inlineNames, ⟨a.model.types, a.model.operations, a.model.diagnostics ++ [e]⟩⟩

variable {c : Context} {a a' : Assembly} {o : Operation} {operation : OperationDef} {e : Diagnostic} {draft : Draft}

section Cons

variable (rest : List Operation)

theorem lowerOperations_of_ok (h : a.attempt c o = (.ok operation, draft)) :
    lowerOperations c a (o :: rest) = lowerOperations c (a.accept operation draft) rest := by
  obtain ⟨b, hstep, heq⟩ := lowerOperations_cons c a o rest
  cases hstep with
  | added hrun =>
    obtain ⟨hok, rfl⟩ := Prod.mk.inj (hrun.symm.trans h)
    cases hok
    exact heq
  | failed hrun => cases (Prod.mk.inj (hrun.symm.trans h)).1

theorem lowerOperations_of_error (h : a.attempt c o = (.error e, draft)) :
    lowerOperations c a (o :: rest) = lowerOperations c (a.dismiss e draft) rest := by
  obtain ⟨b, hstep, heq⟩ := lowerOperations_cons c a o rest
  cases hstep with
  | added hrun => cases (Prod.mk.inj (hrun.symm.trans h)).1
  | failed hrun =>
    obtain ⟨herror, rfl⟩ := Prod.mk.inj (hrun.symm.trans h)
    cases herror
    exact heq

theorem accepted_of_ok (h : a.attempt c o = (.ok operation, draft)) :
    accepted c a (o :: rest) = o :: accepted c (a.accept operation draft) rest := by
  have hone : lowerOperations c a [o] = a.accept operation draft := lowerOperations_of_ok [] h
  simp [accepted, hone, h, Except.isOk, Except.toBool]

theorem accepted_of_error (h : a.attempt c o = (.error e, draft)) :
    accepted c a (o :: rest) = accepted c (a.dismiss e draft) rest := by
  have hone : lowerOperations c a [o] = a.dismiss e draft := lowerOperations_of_error [] h
  simp [accepted, hone, h, Except.isOk, Except.toBool]

theorem forsaken_of_ok (h : a.attempt c o = (.ok operation, draft)) :
    forsaken c a (o :: rest) = forsaken c (a.accept operation draft) rest := by
  have hone : lowerOperations c a [o] = a.accept operation draft := lowerOperations_of_ok [] h
  simp [forsaken, hone, h, Except.isOk, Except.toBool]

theorem forsaken_of_error (h : a.attempt c o = (.error e, draft)) :
    forsaken c a (o :: rest) = (draft.registry.taken.filter fun form => !a.registry.taken.contains form) ++
      forsaken c (a.dismiss e draft) rest := by
  have hone : lowerOperations c a [o] = a.dismiss e draft := lowerOperations_of_error [] h
  simp [forsaken, hone, h, Except.isOk, Except.toBool]

end Cons

/-- Names stay taken, whether an operation is rejected or not. -/
theorem le_attempt (c : Context) (a : Assembly) (o : Operation) : a.registry.Le (a.attempt c o).2.registry :=
  (lowerOperation_follows _ (fun _ => False) o).registry_le (Draft.start a.registry)

theorem le_of_attempt {answer : Except Diagnostic OperationDef} (h : a.attempt c o = (answer, draft)) :
    a.registry.Le draft.registry := by
  have hle := le_attempt c a o
  rwa [h] at hle

/-- An operation that is taken in brings the names that it was given. -/
theorem accept_names (h : a.attempt c o = (.ok operation, draft)) :
    a.model.names ⊆ (a.accept operation draft).model.names ∧
    (∀ name ∈ (a.accept operation draft).model.names, name ∈ a.model.names ∨
      Registry.Between a.registry draft.registry name) ∧
    ∀ form ∈ draft.registry.taken, form ∈ a.registry.taken ∨
      form ∈ (a.accept operation draft).model.names.map snakeCase := by
  obtain ⟨hnew, htaken⟩ := (lowerOperation_names _ o _).answer h
  obtain ⟨types, hg, -⟩ := (lowerOperation_lowers _ o _ (by simp [Draft.start])).answer h
  have htypes : draft.types = types := by simpa [Draft.start] using hg.types_eq
  have hinline : draft.inlineNames.map (·.2) = types.map (·.name) := by
    rw [hg.inlineNames_eq]
    simp [Draft.start]
  have hmem (name : String) : name ∈ (a.accept operation draft).model.names ↔
      name ∈ a.model.names ∨ name ∈ types.map (·.name) ++ operation.names := by
    simp only [Model.names, Assembly.accept, htypes, List.map_append, List.flatMap_append, List.flatMap_singleton,
      List.mem_append]
    tauto
  refine ⟨fun name hname => (hmem name).2 (.inl hname), fun name hname => ?_, fun form hform => ?_⟩
  · refine ((hmem name).1 hname).imp_right fun hname => ?_
    rcases List.mem_append.1 hname with hname | hname
    · obtain ⟨t, ht, rfl⟩ := List.mem_map.1 hname
      exact hg.claimed t ht
    · exact hnew name hname
  · refine (htaken form hform).imp_right fun hform => ?_
    rw [hinline] at hform
    obtain ⟨name, hname, rfl⟩ := List.mem_map.1 hform
    exact List.mem_map_of_mem ((hmem name).2 (.inr hname))

/-! ## Names in a run -/

theorem le_lowerOperations (c : Context) : ∀ (os : List Operation) (a : Assembly),
    a.registry.Le (lowerOperations c a os).registry
  | [], _ => .refl _
  | o :: os, a => by
    rcases hrun : a.attempt c o with ⟨e | operation, draft⟩
    · rw [lowerOperations_of_error os hrun]
      exact (le_of_attempt hrun).trans (le_lowerOperations c os (a.dismiss e draft))
    · rw [lowerOperations_of_ok os hrun]
      exact (le_of_attempt hrun).trans (le_lowerOperations c os (a.accept operation draft))

/-- The names of a model stay, and later ones are new. -/
theorem lowerOperations_names (c : Context) : ∀ (os : List Operation) (a : Assembly),
    a.model.names ⊆ (lowerOperations c a os).model.names ∧
    ∀ name ∈ (lowerOperations c a os).model.names, name ∈ a.model.names ∨ snakeCase name ∉ a.registry.taken
  | [], _ => ⟨List.Subset.refl _, fun _ hname => .inl hname⟩
  | o :: os, a => by
    rcases hrun : a.attempt c o with ⟨e | operation, draft⟩
    · obtain ⟨hsub, hnew⟩ := lowerOperations_names c os (a.dismiss e draft)
      rw [lowerOperations_of_error os hrun]
      exact ⟨hsub, fun name hname => (hnew name hname).imp_right fun hfree h => hfree (le_of_attempt hrun h)⟩
    · obtain ⟨hsub, hnew⟩ := lowerOperations_names c os (a.accept operation draft)
      obtain ⟨hstay, hadded, -⟩ := accept_names hrun
      rw [lowerOperations_of_ok os hrun]
      refine ⟨List.Subset.trans hstay hsub, fun name hname => ?_⟩
      rcases hnew name hname with hname | hfree
      · exact (hadded name hname).imp_right fun hbetween => hbetween.1
      · exact .inr fun h => hfree (le_of_attempt hrun h)

/-- A name is taken after the operations if it was before, is one of the model, or was given to a rejected one. -/
theorem taken_lowerOperations (c : Context) : ∀ (os : List Operation) (a : Assembly),
    ∀ form ∈ (lowerOperations c a os).registry.taken, form ∈ a.registry.taken ∨
      form ∈ (lowerOperations c a os).model.names.map snakeCase ∨ form ∈ forsaken c a os
  | [], _ => fun _ hform => .inl hform
  | o :: os, a => by
    intro form hform
    rcases hrun : a.attempt c o with ⟨e | operation, draft⟩
    · rw [lowerOperations_of_error os hrun] at hform ⊢
      rw [forsaken_of_error os hrun, List.mem_append, List.mem_filter]
      rcases taken_lowerOperations c os _ form hform with hform | hform | hform
      · by_cases ha : form ∈ a.registry.taken
        · exact .inl ha
        · exact .inr (.inr (.inl ⟨hform, by simpa using ha⟩))
      · exact .inr (.inl hform)
      · exact .inr (.inr (.inr hform))
    · rw [lowerOperations_of_ok os hrun] at hform ⊢
      rw [forsaken_of_ok os hrun]
      rcases taken_lowerOperations c os _ form hform with hform | hform
      · refine ((accept_names hrun).2.2 form hform).imp_right fun hform => .inl ?_
        exact List.map_subset _ (lowerOperations_names c os _).1 hform
      · exact .inr hform

/-- What was taken before is given to no operation that is rejected. -/
theorem not_mem_forsaken (c : Context) : ∀ (os : List Operation) (a : Assembly) {form : String},
    form ∈ a.registry.taken → form ∉ forsaken c a os
  | [], _, _, _ => List.not_mem_nil
  | o :: os, a, form, hform => by
    rcases hrun : a.attempt c o with ⟨e | operation, draft⟩
    · rw [forsaken_of_error os hrun, List.mem_append, List.mem_filter]
      rintro (⟨-, hnot⟩ | hrest)
      · simp [hform] at hnot
      · exact not_mem_forsaken c os (a.dismiss e draft) (le_of_attempt hrun hform) hrest
    · rw [forsaken_of_ok os hrun]
      exact not_mem_forsaken c os (a.accept operation draft) (le_of_attempt hrun hform)

/-- A name that was given to a rejected operation is no name of the model. -/
theorem not_forsaken (c : Context) : ∀ (os : List Operation) (a : Assembly),
    (∀ name ∈ a.model.names, snakeCase name ∈ a.registry.taken) →
      ∀ name ∈ (lowerOperations c a os).model.names, snakeCase name ∉ forsaken c a os
  | [], _, _ => fun _ _ h => by cases h
  | o :: os, a, ha => by
    intro name hname
    rcases hrun : a.attempt c o with ⟨e | operation, draft⟩
    · rw [lowerOperations_of_error os hrun] at hname
      rw [forsaken_of_error os hrun, List.mem_append, List.mem_filter]
      have hrest := not_forsaken c os (a.dismiss e draft) (fun n hn => le_of_attempt hrun (ha n hn)) name hname
      rintro (⟨htaken, hnot⟩ | hform)
      · rcases (lowerOperations_names c os (a.dismiss e draft)).2 name hname with hold | hfree
        · simp [ha name hold] at hnot
        · exact hfree htaken
      · exact hrest hform
    · rw [lowerOperations_of_ok os hrun] at hname
      rw [forsaken_of_ok os hrun]
      refine not_forsaken c os (a.accept operation draft) (fun n hn => ?_) name hname
      exact ((accept_names hrun).2.1 n hn).elim (fun hn => le_of_attempt hrun (ha n hn)) fun hbetween => hbetween.2

/-! ## Without the rejected operations -/

/-- Two models so far that differ in names, in what types are made of inside and in diagnostics. -/
structure Assembly.Alike (a a' : Assembly) : Prop where
  inlineNames : a.inlineNames.map (·.1) = a'.inlineNames.map (·.1)
  types : a.model.types.map (fun t => (t.source, t.doc)) = a'.model.types.map fun t => (t.source, t.doc)
  operations : a.model.operations.map OperationDef.header = a'.model.operations.map OperationDef.header

/-- An operation that is not rejected in one of them is not rejected in the other. -/
theorem Assembly.Alike.accept (h : a.Alike a') (hrun : a.attempt c o = (.ok operation, draft)) :
    ∃ operation' draft', a'.attempt c o = (.ok operation', draft') ∧
      (a.accept operation draft).Alike (a'.accept operation' draft') := by
  have hagrees : (c.during a.inlineNames o.id).Agrees (c.during a'.inlineNames o.id) :=
    ⟨rfl, rfl, rfl, rfl, h.inlineNames, rfl, rfl⟩
  have hm := lowerOperation_together hagrees o (Draft.start a.registry) (Draft.start a'.registry) rfl
  change Matches _ (a.attempt c o) (a'.attempt c o) at hm
  rw [hrun] at hm
  rcases hrun' : a'.attempt c o with ⟨answer', draft'⟩
  rw [hrun'] at hm
  cases hm with
  | @answers _ operation' _ _ _ houtline =>
    have hheader := (lowerOperation_header _ o _).answer hrun
    have hheader' := (lowerOperation_header _ o _).answer hrun'
    simp only [Draft.outline, Prod.mk.injEq] at houtline
    exact ⟨operation', draft', rfl, by simp [Assembly.accept, h.inlineNames, houtline], by
      simp [Assembly.accept, h.types, houtline], by simp [Assembly.accept, h.operations, hheader, hheader']⟩

/-- Without the rejected operations the others are lowered all the same. -/
theorem lowerOperations_alike (c : Context) : ∀ (os : List Operation) {a a' : Assembly}, a.Alike a' →
    (lowerOperations c a os).Alike (lowerOperations c a' (accepted c a os)) ∧ forsaken c a' (accepted c a os) = []
  | [], _, _, h => ⟨h, rfl⟩
  | o :: os, a, a', h => by
    rcases hrun : a.attempt c o with ⟨e | operation, draft⟩
    · rw [lowerOperations_of_error os hrun, accepted_of_error os hrun]
      exact lowerOperations_alike c os ⟨h.inlineNames, h.types, h.operations⟩
    · obtain ⟨operation', draft', hrun', haccept⟩ := h.accept hrun
      rw [lowerOperations_of_ok os hrun, accepted_of_ok os hrun, lowerOperations_of_ok _ hrun', forsaken_of_ok _ hrun']
      exact lowerOperations_alike c os haccept

/-- Two models so far that differ in diagnostics and in names that only the first has taken. -/
structure Assembly.Beside (extra : List String) (a a' : Assembly) : Prop where
  registry : a.registry.Exceeds (· ∈ extra) a'.registry
  inlineNames : a.inlineNames = a'.inlineNames
  types : a.model.types = a'.model.types
  operations : a.model.operations = a'.model.operations

theorem Assembly.Beside.refl (a : Assembly) : Assembly.Beside [] a a := ⟨fun _ => by simp, rfl, rfl, rfl⟩

theorem Assembly.Beside.alike {extra : List String} (h : Assembly.Beside extra a a') : a.Alike a' :=
  ⟨congrArg _ h.inlineNames, congrArg _ h.types, congrArg _ h.operations⟩

/-- An operation is lowered to the same in both of them if the second gives it none of the names. -/
theorem Assembly.Beside.accept {extra : List String} (h : Assembly.Beside extra a a')
    (hrun : a.attempt c o = (.ok operation, draft)) {operation' : OperationDef} {draft' : Draft}
    (hrun' : a'.attempt c o = (.ok operation', draft')) (hfree : ∀ form ∈ draft'.registry.taken, form ∉ extra) :
    Assembly.Beside extra (a.accept operation draft) (a'.accept operation' draft') := by
  have hdraft : (a'.attempt c o).2 = draft' := congrArg Prod.snd hrun'
  rw [← hdraft] at hfree
  obtain ⟨r, hr, heq⟩ := (lowerOperation_follows (c.during a'.inlineNames o.id) (· ∈ extra) o).same
    (Draft.start a'.registry) a.registry h.registry hfree
  change r.Exceeds (· ∈ extra) (a'.attempt c o).2.registry at hr
  change _ = ((a'.attempt c o).1, { (a'.attempt c o).2 with registry := r }) at heq
  rw [hrun', ← h.inlineNames] at heq
  rw [hrun'] at hr
  cases hrun.symm.trans heq
  exact ⟨hr, congrArg (draft'.inlineNames.reverse ++ ·) h.inlineNames, congrArg (· ++ draft'.types) h.types,
    congrArg (· ++ [operation]) h.operations⟩

/-- A rejected operation leaves the names that it was given. -/
theorem Assembly.Beside.dismiss {extra : List String} (h : Assembly.Beside extra a a')
    (hrun : a.attempt c o = (.error e, draft)) :
    Assembly.Beside (extra ++ draft.registry.taken.filter fun form => !a.registry.taken.contains form)
      (a.dismiss e draft) a' := by
  refine { h with registry := fun form => ?_ }
  have hle : a.registry.Le draft.registry := le_of_attempt hrun
  have hbefore := h.registry form
  simp only [List.mem_append, List.mem_filter, Bool.not_eq_true', List.contains_eq_mem, decide_eq_false_iff_not]
  rw [← or_assoc, ← hbefore]
  constructor
  · intro hform
    by_cases ha : form ∈ a.registry.taken
    · exact .inl ha
    · exact .inr ⟨hform, ha⟩
  · exact fun hform => hform.elim (fun ha => hle ha) fun hnew => hnew.1

/-- Without the rejected operations the others are lowered to the same, if they are given none of the names that those
had taken. -/
theorem lowerOperations_beside (c : Context) : ∀ (os : List Operation) {extra : List String} {a a' : Assembly},
    Assembly.Beside extra a a' →
    (∀ form ∈ (lowerOperations c a' (accepted c a os)).registry.taken, form ∉ extra ++ forsaken c a os) →
      Assembly.Beside (extra ++ forsaken c a os) (lowerOperations c a os) (lowerOperations c a' (accepted c a os))
  | [], extra, _, _, h, _ => by simpa only [accepted, forsaken, lowerOperations, List.append_nil] using h
  | o :: os, extra, a, a', h, hfree => by
    rcases hrun : a.attempt c o with ⟨e | operation, draft⟩
    · rw [lowerOperations_of_error os hrun, accepted_of_error os hrun, forsaken_of_error os hrun, ← List.append_assoc]
      rw [accepted_of_error os hrun, forsaken_of_error os hrun, ← List.append_assoc] at hfree
      exact lowerOperations_beside c os (h.dismiss hrun) hfree
    · obtain ⟨operation', draft', hrun', -⟩ := h.alike.accept hrun
      rw [lowerOperations_of_ok os hrun, accepted_of_ok os hrun, forsaken_of_ok os hrun, lowerOperations_of_ok _ hrun']
      rw [accepted_of_ok os hrun, forsaken_of_ok os hrun, lowerOperations_of_ok _ hrun'] at hfree
      refine lowerOperations_beside c os (h.accept hrun hrun' fun form hform hextra => ?_) hfree
      exact hfree form (le_lowerOperations c _ (a'.accept operation' draft') hform) (List.mem_append_left _ hextra)

/-- Those that are not rejected are the operations of the model, in their order. -/
theorem accepted_spec (c : Context) : ∀ (os : List Operation) (a : Assembly), (accepted c a os).Sublist os ∧
    (lowerOperations c a os).model.operations.map OperationDef.header =
      a.model.operations.map OperationDef.header ++ (accepted c a os).map Operation.header
  | [], _ => ⟨.slnil, (List.append_nil _).symm⟩
  | o :: os, a => by
    rcases hrun : a.attempt c o with ⟨e | operation, draft⟩
    · rw [lowerOperations_of_error os hrun, accepted_of_error os hrun]
      obtain ⟨hsub, hheaders⟩ := accepted_spec c os (a.dismiss e draft)
      exact ⟨hsub.cons o, hheaders⟩
    · rw [lowerOperations_of_ok os hrun, accepted_of_ok os hrun]
      obtain ⟨hsub, hheaders⟩ := accepted_spec c os (a.accept operation draft)
      have hheader : operation.header = o.header := (lowerOperation_header _ o _).answer hrun
      refine ⟨hsub.cons_cons o, ?_⟩
      rw [hheaders]
      simp [Assembly.accept, hheader]

/-- The names of the model with all definitions are taken. -/
theorem taken_of_mem_names {g : SchemaGraph} {target : Target} {config : Config} {name : String}
    (hname : name ∈ (assembled g target config).model.names) :
    snakeCase name ∈ (assembled g target config).registry.taken := by
  have hoperations : (assembled g target config).model.operations = [] := (foldl_commit (kept g target config) _).2.2.1
  rw [Model.names, hoperations, List.flatMap_nil, List.append_nil] at hname
  obtain ⟨t, ht, rfl⟩ := List.mem_map.1 hname
  exact (assembled_claimed ht).1

end Lowering

end ContractBindings
