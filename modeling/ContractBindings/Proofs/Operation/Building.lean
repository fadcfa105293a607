import ContractBindings.Operation.Extraction
import ContractBindings.Proofs.Schema.Closing
import ContractBindings.Proofs.Schema.Nesting

/-!
# Building an operation

Building the parts of an operation only adds: definitions that it opens are finished, diagnostics that it records are
warnings, and the operations and identifiers so far stay as they are (`Extraction.Kept`). An operation is left out with
one error about it; any other failure ends the run (`Builds`). The schemas of the parts that are built are unnested, and
refer to definitions that are open (`Parts.Takes`).
-/

namespace ContractBindings

/-- The schemas of an operation. -/
def Operation.schemas (o : Operation) : List SchemaNode :=
  o.parameters.map (·.schema) ++ o.requestBody.toList.map (·.schema) ++ o.responses.filterMap (·.2.schema)

namespace Slots

/-- The finished definitions stand at their places, and what they name is open. -/
structure Orderly (s : Slots) : Prop where
  good : s.Good
  closed : s.Closed

/-- A schema outside of the definitions: it is unnested, and what it names is open. -/
structure Takes (s : Slots) (n : SchemaNode) : Prop where
  unnests : s.Unnests n
  covers : s.Covers n.shape

variable {s s' : Slots} {n : SchemaNode}

theorem Takes.mono (h : s.Takes n) (hs : s.Grows s') : s'.Takes n :=
  ⟨h.unnests.mono hs, h.covers.mono fun _ hk => hs.opened hk⟩

theorem takes_unknown (s : Slots) (id : SchemaId) : s.Takes (SchemaNode.unknown id) :=
  ⟨s.unnests_unknown id, covers_of_leaf rfl rfl⟩

end Slots

namespace Extraction

variable {s s' s'' : Extraction}

/-- What building keeps of an extraction. -/
structure Kept (s s' : Extraction) : Prop where
  slots : s.slots.Grows s'.slots
  orderly : s'.slots.Orderly
  operations : s'.operations = s.operations
  labels : s'.labels = s.labels
  diagnostics : ∃ w, s'.diagnostics = s.diagnostics ++ w ∧ ∀ d ∈ w, d.isError = false

theorem Kept.refl (h : s.slots.Orderly) : Kept s s := ⟨.refl _, h, rfl, rfl, [], by simp⟩

theorem Kept.trans (h : Kept s s') (h' : Kept s' s'') : Kept s s'' where
  slots := h.slots.trans h'.slots
  orderly := h'.orderly
  operations := h'.operations.trans h.operations
  labels := h'.labels.trans h.labels
  diagnostics := by
    obtain ⟨w, hw, hq⟩ := h.diagnostics
    obtain ⟨w', hw', hq'⟩ := h'.diagnostics
    refine ⟨w ++ w', by rw [hw', hw, List.append_assoc], fun d hd => ?_⟩
    exact (List.mem_append.1 hd).elim (hq d) (hq' d)

/-- What is told of schemas outside of the definitions holds of those of the parts of an operation. -/
structure Parts.Takes (parts : Parts) (s : Slots) : Prop where
  parameters : ∀ p ∈ parts.parameters, s.Takes p.schema
  requestBody : ∀ n ∈ parts.requestBody.toList.map (·.schema), s.Takes n
  responses : ∀ n ∈ parts.responses.filterMap (·.2.schema), s.Takes n

namespace Parts.Takes

variable {parts : Parts} {slots : Slots}

/-- The schemas of an operation are those of its parts. -/
theorem schemas {id path : String} {method : Method} {summary description : Option String} {deprecated : Bool}
    (h : parts.Takes slots) : ∀ n ∈ Operation.schemas ⟨id, method, path, summary, description, deprecated,
      parts.parameters, parts.requestBody, parts.responses⟩, slots.Takes n := by
  intro n hn
  rcases List.mem_append.1 hn with hn | hn
  · rcases List.mem_append.1 hn with hn | hn
    · obtain ⟨p, hp, rfl⟩ := List.mem_map.1 hn
      exact h.parameters p hp
    · exact h.requestBody n hn
  · exact h.responses n hn

end Parts.Takes

/-- The end of building the parts of an operation: the responses are built, and the parts put together. -/
def withResponses (r : Resolver) (unit pointer : String) (node : Entries) (parameters : List Parameter)
    (body : Option RequestBody) : Build Parts := do
  let responses ←
    match node.get? "responses" with
    | some (.mapping declared) => responses r unit (Pointer.child pointer "responses") declared
    | some .null | none => pure []
    | some _ => malformed (Pointer.child pointer "responses") .responsesNotMapping
  return ⟨parameters, body, responses⟩

/-- Building for a unit: it adds, with an answer as told, leaves the unit out with an error about it, or ends the run. -/
def Builds (unit : String) (x : Build α) (post : α → Slots → Prop) : Prop :=
  ∀ s : Extraction, s.slots.Orderly →
    Ends x s (fun a s' => Kept s s' ∧ post a s'.slots)
      fun e s' => ∀ d, e = .skip d → Kept s s' ∧ d.isError = true ∧ d.unit = unit

/-- What is told of an answer stays true while definitions grow. -/
def Persists (post : α → Slots → Prop) : Prop := ∀ {a s s'}, Slots.Grows s s' → post a s → post a s'

theorem persists_takes (schemas : α → List SchemaNode) :
    Persists fun (a : α) (s : Slots) => ∀ n ∈ schemas a, s.Takes n := fun hs h n hn => (h n hn).mono hs

namespace Builds

variable {unit : String} {x : Build α} {P P' : α → Slots → Prop}

theorem pure {a : α} (h : ∀ s, P a s) : Builds unit (Pure.pure a) P := fun _ hs => ends_pure.2 ⟨.refl hs, h _⟩

theorem abort (failure : Failure) : Builds unit (MonadExcept.throw (.abort failure) : Build α) P :=
  fun _ _ => ends_throw.2 fun _ h => by cases h

theorem malformed (pointer : String) (fault : StructureFault) :
    Builds unit (Extraction.malformed pointer fault : Build α) P := abort _

theorem skip (code : DiagnosticCode) (message : String) :
    Builds unit (Extraction.skip code unit message : Build α) P := by
  refine fun s hs => ends_throw.2 fun d hd => ?_
  cases hd
  exact ⟨.refl hs, rfl, rfl⟩

theorem mono (hx : Builds unit x P) (h : ∀ a s, P a s → P' a s) : Builds unit x P' :=
  fun s hs => (hx s hs).mono (fun a s' ⟨hk, hp⟩ => ⟨hk, h a s'.slots hp⟩) fun _ _ h => h

theorem bind {Q : β → Slots → Prop} {f : α → Build β} (hx : Builds unit x P) (hP : Persists P)
    (hf : ∀ a, Builds unit (f a) fun b s => P a s → Q b s) : Builds unit (x >>= f) Q := by
  refine fun s hs => ends_bind.2 ((hx s hs).mono (fun a s' ⟨hk, hp⟩ => ?_) fun _ _ h => h)
  refine (hf a s' hk.orderly).mono (fun b s'' ⟨hk', hq⟩ => ⟨hk.trans hk', hq (hP hk'.slots hp)⟩) fun e s'' h' d hd => ?_
  obtain ⟨hk', hd⟩ := h' d hd
  exact ⟨hk.trans hk', hd⟩

/-- Sequencing, where nothing is told of the first answer. -/
theorem after {Q : β → Slots → Prop} {f : α → Build β} (hx : Builds unit x fun _ _ => True)
    (hf : ∀ a, Builds unit (f a) Q) : Builds unit (x >>= f) Q :=
  bind hx (fun _ _ => trivial) fun a => (hf a).mono fun _ _ h _ => h

/-- A walk over a list that adds to a result: what each step keeps of the result, then and later, all of them keep. -/
theorem foldlM {Q : β → Slots → Prop} {f : β → γ → Build β}
    (hf : ∀ b c, Builds unit (f b c) fun b' s => ∀ s' : Slots, s.Grows s' → Q b s' → Q b' s') :
    ∀ (items : List γ) (b : β),
      Builds unit (items.foldlM f b) fun b' s => ∀ s' : Slots, s.Grows s' → Q b s' → Q b' s'
  | [], b => by
    rw [List.foldlM_nil]
    exact pure fun _ _ _ h => h
  | c :: items, b => by
    rw [List.foldlM_cons]
    refine bind (hf b c) ?_ fun b' => (foldlM hf items b').mono fun b'' s hlast hfirst s' hs hb => ?_
    · exact fun hs h s' hs' hb => h s' (hs.trans hs') hb
    · exact hlast s' hs (hfirst s' hs hb)

theorem note {d : Diagnostic} (hd : d.isError = false) : Builds unit (Extraction.note d) fun _ _ => True :=
  fun s hs => ends_modify.2 ⟨⟨.refl _, hs, rfl, rfl, [d], rfl, by simpa using hd⟩, trivial⟩

theorem record (rule : RecordRule) (pointer : String) (tree : Tree) :
    Builds unit (Extraction.record rule pointer tree) fun _ _ => True := by
  unfold Extraction.record
  split
  · exact pure fun _ => trivial
  · exact malformed _ _

section Documents

variable {r : Resolver}

/-- A schema of an operation is interpreted, and a schema error leaves the operation out. -/
theorem schema (hr : r.Rooted) (tree : Tree) (parent : String) :
    Builds unit (Extraction.schema r unit tree (Pointer.child parent "schema")) fun n s => s.Takes n := by
  intro s hs
  have hvisit := ((Interpretation.visit_lands hr tree (SchemaId.child ⟨parent⟩ "schema") s.slots hs.good).and
    (Interpretation.visit_unnests hr tree ⟨parent⟩ hs.good)).and
      (Interpretation.visit_closes r tree (SchemaId.child ⟨parent⟩ "schema") s.slots hs.closed)
  have hkept {slots : Slots} (hg : s.slots.Grows slots) (hgood : slots.Good) (hclosed : slots.Closed) :
      Kept s { s with slots := slots } := ⟨hg, ⟨hgood, hclosed⟩, rfl, rfl, [], by simp⟩
  unfold Extraction.schema
  refine ends_bind.2 (ends_get.2 ?_)
  rcases hrun : ((Interpretation.visit r tree ⟨Pointer.child parent "schema"⟩).run).run s.slots with ⟨answer, slots⟩
  refine ends_bind.2 (ends_set.2 ?_)
  cases answer with
  | ok node =>
    obtain ⟨⟨⟨hg, hgood, -⟩, hunnests⟩, hclosed, -, hcovers⟩ := hvisit.answer hrun
    exact ends_pure.2 ⟨hkept hg hgood hclosed, hunnests, hcovers⟩
  | error e =>
    cases e with
    | schema err =>
      obtain ⟨⟨hlands, -⟩, hcloses⟩ := hvisit.failure hrun
      obtain ⟨hg, hgood⟩ := hlands err rfl
      refine ends_throw.2 fun d hd => ?_
      cases hd
      exact ⟨hkept hg hgood (hcloses err rfl).1, rfl, rfl⟩
    | unresolved u => exact ends_throw.2 fun d hd => by cases hd
    | tooDeep => exact ends_throw.2 fun d hd => by cases hd

theorem follow (entry : Tree) (pointer : String) : Builds unit (Extraction.follow r entry pointer) fun _ _ => True := by
  unfold Extraction.follow
  split
  · split
    · exact pure fun _ => trivial
    · exact abort _
  · exact pure fun _ => trivial

theorem parameter (hr : r.Rooted) (entry : Tree) (pointer : String) :
    Builds unit (Extraction.parameter r unit entry pointer) fun p s => s.Takes p.schema := by
  unfold Extraction.parameter
  refine after (follow _ _) fun (pointer, entry) => ?_
  dsimp only
  split
  · exact skip _ _
  · split
    · exact skip _ _
    · split
      · exact bind (schema hr _ _) (fun hs h => h.mono hs) fun _ => pure fun _ h => h
      · exact bind (schema hr _ _) (fun hs h => h.mono hs) fun _ => pure fun _ h => h
      · exact bind (pure fun s => s.takes_unknown _) (fun hs h => h.mono hs) fun _ => pure fun _ h => h

theorem mem_mergeParameter {p q : Parameter} : ∀ {parameters : List Parameter}, q ∈ mergeParameter p parameters →
    q = p ∨ q ∈ parameters
  | [], h => .inl (List.mem_singleton.1 h)
  | first :: rest, h => by
    rw [mergeParameter] at h
    split at h
    · rcases List.mem_cons.1 h with rfl | h
      · exact .inl rfl
      · exact .inr (List.mem_cons_of_mem _ h)
    · rcases List.mem_cons.1 h with rfl | h
      · exact .inr List.mem_cons_self
      · exact (mem_mergeParameter h).imp_right (List.mem_cons_of_mem _)

theorem parameterList (hr : r.Rooted) (base : String) (before : List Parameter) (tree : Option Tree) :
    Builds unit (Extraction.parameterList r unit base before tree) fun parameters s =>
      ∀ s' : Slots, s.Grows s' → (∀ p ∈ before, s'.Takes p.schema) → ∀ p ∈ parameters, s'.Takes p.schema := by
  cases tree with
  | none => exact pure fun _ _ _ h => h
  | some tree =>
    rw [Extraction.parameterList]
    split
    · exact skip _ _
    · refine foldlM (Q := fun (merged : List Parameter) s => ∀ p ∈ merged, s.Takes p.schema)
        (fun merged (index, entry) => ?_) _ _
      refine bind (parameter hr _ _) (fun hs h => h.mono hs) fun p => pure fun s hp s' hs hmerged q hq => ?_
      rcases mem_mergeParameter hq with rfl | hq
      · exact hp.mono hs
      · exact hmerged q hq

theorem requestBody (hr : r.Rooted) (pointer : String) (entry : Tree) :
    Builds unit (Extraction.requestBody r unit pointer entry) fun body s =>
      ∀ n ∈ body.toList.map (·.schema), s.Takes n := by
  unfold Extraction.requestBody
  refine after (follow _ _) fun (pointer, entry) => after (record _ _ _) fun record => ?_
  split
  · exact pure fun _ => by simp
  · refine bind (schema hr _ _) (fun hs h => h.mono hs) fun n => pure fun s hn => ?_
    simpa using hn

theorem response (hr : r.Rooted) (entry : Tree) (pointer : String) :
    Builds unit (Extraction.response r unit entry pointer) fun response s =>
      ∀ n ∈ response.schema.toList, s.Takes n := by
  unfold Extraction.response
  refine after (follow _ _) fun (pointer, entry) => after (record _ _ _) fun record => ?_
  split
  · refine bind (schema hr _ _) (fun hs h => h.mono hs) fun n => pure fun s hn => ?_
    simpa using hn
  · exact pure fun _ => by simp

theorem responses (hr : r.Rooted) (base : String) (entries : Entries) :
    Builds unit (Extraction.responses r unit base entries) fun responses s =>
      ∀ n ∈ responses.filterMap (·.2.schema), s.Takes n := by
  unfold Extraction.responses
  refine (foldlM (Q := fun (before : List (String × Response)) s => ∀ n ∈ before.filterMap (·.2.schema), s.Takes n)
    (fun before (key, entry) => ?_) entries []).mono fun responses s h => h s (.refl s) (by simp)
  dsimp only
  split
  · exact pure fun _ _ _ h => h
  · refine bind (response hr _ _) (persists_takes _) fun declared => ?_
    have hdeclared (status : String) : ∀ s : Slots, (∀ n ∈ declared.schema.toList, s.Takes n) →
        ∀ s' : Slots, s.Grows s' → (∀ n ∈ before.filterMap (·.2.schema), s'.Takes n) →
          ∀ n ∈ (upsert before status declared).filterMap (·.2.schema), s'.Takes n := by
      intro s hnew s' hs hbefore n hn
      obtain ⟨p, hp, hschema⟩ := List.mem_filterMap.1 hn
      rcases eq_or_mem_of_mem_upsert hp with rfl | hp
      · exact (hnew n (by simpa using hschema)).mono hs
      · exact hbefore n (List.mem_filterMap.2 ⟨p, hp, hschema⟩)
    split
    · exact after (note rfl) fun _ => pure fun s => hdeclared _ s
    · exact pure fun s => hdeclared _ s

theorem withResponses (hr : r.Rooted) (pointer : String) (node : Entries) (parameters : List Parameter)
    (body : Option RequestBody) :
    Builds unit (Extraction.withResponses r unit pointer node parameters body) fun parts s =>
      (∀ p ∈ parameters, s.Takes p.schema) → (∀ n ∈ body.toList.map (·.schema), s.Takes n) → parts.Takes s := by
  have hparts : ∀ responses : List (String × Response),
      Builds unit (Pure.pure (⟨parameters, body, responses⟩ : Parts)) fun parts s =>
        (∀ n ∈ responses.filterMap (·.2.schema), s.Takes n) → (∀ p ∈ parameters, s.Takes p.schema) →
          (∀ n ∈ body.toList.map (·.schema), s.Takes n) → parts.Takes s :=
    fun responses => pure fun s hresponses hparameters hbody => ⟨hparameters, hbody, hresponses⟩
  unfold Extraction.withResponses
  split
  · exact bind (responses hr _ _) (persists_takes _) hparts
  · exact bind (pure fun s => by simp) (persists_takes _) hparts
  · exact bind (pure fun s => by simp) (persists_takes _) hparts
  · exact bind (malformed _ _) (persists_takes _) hparts

theorem parts (hr : r.Rooted) (pointer pathPointer : String) (node : Entries) (shared : Option Tree) :
    Builds unit (Extraction.parts r unit pointer pathPointer node shared) fun parts s => parts.Takes s := by
  have hpersists (before : List Parameter) : Persists fun (parameters : List Parameter) (s : Slots) =>
      ∀ s' : Slots, s.Grows s' → (∀ p ∈ before, s'.Takes p.schema) → ∀ p ∈ parameters, s'.Takes p.schema :=
    fun hs h s' hs' => h s' (hs.trans hs')
  have hall {first parameters : List Parameter} {body : Option RequestBody} {parts : Parts} {s : Slots}
      (h : (∀ p ∈ parameters, s.Takes p.schema) → (∀ n ∈ body.toList.map (·.schema), s.Takes n) → parts.Takes s)
      (hbody : ∀ n ∈ body.toList.map (·.schema), s.Takes n)
      (hparameters : ∀ s' : Slots, s.Grows s' → (∀ p ∈ first, s'.Takes p.schema) →
        ∀ p ∈ parameters, s'.Takes p.schema)
      (hfirst : ∀ s' : Slots, s.Grows s' → (∀ p ∈ ([] : List Parameter), s'.Takes p.schema) →
        ∀ p ∈ first, s'.Takes p.schema) : parts.Takes s :=
    h (hparameters s (.refl s) (hfirst s (.refl s) (by simp))) hbody
  unfold Extraction.parts
  refine bind (parameterList hr _ _ _) (hpersists _) fun first => ?_
  refine bind (parameterList hr _ _ _) (hpersists _) fun parameters => ?_
  cases node.get? "requestBody" with
  | some entry =>
    refine bind (requestBody hr _ _) (persists_takes _) fun body => ?_
    exact (withResponses hr pointer node parameters body).mono fun _ _ => hall
  | none =>
    refine bind (P := fun (body : Option RequestBody) s => ∀ n ∈ body.toList.map (·.schema), s.Takes n)
      (pure fun s => by simp) (persists_takes _) fun body => ?_
    exact (withResponses hr pointer node parameters body).mono fun _ _ => hall

end Documents

end Builds

end Extraction

end ContractBindings
