import ContractBindings.Proofs.Lookup
import ContractBindings.Proofs.Operation.Extracted

/-!
# Merging of declarations

The parameters of an operation are declared in two lists, its responses under keys of which several may mean one status.
Both are read in order and merged: what is declared again keeps its first place and takes its last declaration
(`Merges`). Reading the parts of an operation records nothing but one warning for every response that is declared again
(`parts_declared`).
-/

namespace ContractBindings

/-- The key of a parameter, which one list of parameters has once. -/
def Parameter.key (p : Parameter) : String × ParameterLocation := (p.name, p.location)

/-- What is declared, merged by keys: each key once, in the order of its first declarations, with its last. -/
structure Merges {α κ : Type} [BEq κ] (key : α → κ) (declared merged : List α) : Prop where
  order : merged.map key = (declared.map key).eraseDups
  last : ∀ a ∈ merged, (declared.filter fun b => key b == key a).getLast? = some a

theorem Merges.mem {α κ : Type} [BEq κ] {key : α → κ} {declared merged : List α} (h : Merges key declared merged) {a : α}
    (ha : a ∈ merged) : a ∈ declared :=
  (List.mem_filter.1 (List.mem_of_getLast? (h.last a ha))).1

namespace Extraction

/-! ## Reading without regard to diagnostics -/

/-- A computation that neither reads nor records diagnostics. -/
def Blind (x : Build α) : Prop := ∀ (s : Extraction) (ds : List Diagnostic),
  x.run.run { s with diagnostics := ds } = ((x.run.run s).1, { (x.run.run s).2 with diagnostics := ds })

namespace Blind

variable {r : Resolver} {unit : String} {x : Build α} {s t : Extraction}

theorem pure (a : α) : Blind (Pure.pure a) := fun _ _ => rfl

theorem throw (e : Rejection) : Blind (MonadExcept.throw e : Build α) := fun _ _ => rfl

theorem bind {f : α → Build β} (hx : Blind x) (hf : ∀ a, Blind (f a)) : Blind (x >>= f) := by
  intro s ds
  have hxs := hx s ds
  rcases hrun : x.run.run s with ⟨e | a, t⟩
  · rw [hrun] at hxs
    rw [run_bind_of_error hrun, run_bind_of_error hxs]
  · rw [hrun] at hxs
    rw [run_bind_of_ok hrun, run_bind_of_ok hxs]
    exact hf a t ds

theorem mapM {f : γ → Build α} (hf : ∀ c, Blind (f c)) : ∀ items : List γ, Blind (items.mapM f)
  | [] => by
    rw [List.mapM_nil]
    exact pure []
  | c :: items => by
    rw [List.mapM_cons]
    exact (hf c).bind fun a => (mapM hf items).bind fun as => pure (a :: as)

/-- A computation that records no diagnostics leaves those that are there. -/
theorem diagnostics (hx : Blind x) {answer : Except Rejection α} (h : x.run.run s = (answer, t)) :
    t.diagnostics = s.diagnostics := by
  have hsame := congrArg (fun p => p.2.diagnostics) (hx s s.diagnostics)
  rwa [h] at hsame

/-- An answer is given whatever was recorded. -/
theorem answer (hx : Blind x) {a : α} (h : x.run.run s = (.ok a, t)) (ds : List Diagnostic) :
    x.run.run { s with diagnostics := ds } = (.ok a, { t with diagnostics := ds }) := by
  have hxs := hx s ds
  rwa [h] at hxs

theorem schema (tree : Tree) (pointer : String) : Blind (Extraction.schema r unit tree pointer) := by
  intro s ds
  have hget (s : Extraction) : (get : Build Extraction).run.run s = (.ok s, s) := rfl
  unfold Extraction.schema
  rw [run_bind_of_ok (hget s), run_bind_of_ok (hget { s with diagnostics := ds })]
  rcases hrun : ((Interpretation.visit r tree ⟨pointer⟩).run).run s.slots with ⟨answer, slots⟩
  cases answer with
  | ok node => rfl
  | error e => cases e <;> rfl

theorem record (rule : RecordRule) (pointer : String) (tree : Tree) : Blind (Extraction.record rule pointer tree) := by
  unfold Extraction.record
  split
  · exact pure _
  · exact throw _

theorem follow (entry : Tree) (pointer : String) : Blind (Extraction.follow r entry pointer) := by
  unfold Extraction.follow
  split
  · split
    · exact pure _
    · exact throw _
  · exact pure _

theorem parameter (entry : Tree) (pointer : String) : Blind (Extraction.parameter r unit entry pointer) := by
  unfold Extraction.parameter
  refine (follow _ _).bind fun (pointer, entry) => ?_
  dsimp only
  split
  · exact throw _
  · split
    · exact throw _
    · split
      · exact (schema _ _).bind fun _ => pure _
      · exact (schema _ _).bind fun _ => pure _
      · exact (pure _).bind fun _ => pure _

theorem requestBody (pointer : String) (entry : Tree) : Blind (Extraction.requestBody r unit pointer entry) := by
  unfold Extraction.requestBody
  refine (follow _ _).bind fun (pointer, entry) => (record _ _ _).bind fun record => ?_
  split
  · exact pure _
  · exact (schema _ _).bind fun _ => pure _

theorem response (entry : Tree) (pointer : String) : Blind (Extraction.response r unit entry pointer) := by
  unfold Extraction.response
  refine (follow _ _).bind fun (pointer, entry) => (record _ _ _).bind fun record => ?_
  split
  · exact (schema _ _).bind fun _ => pure _
  · exact pure _

end Blind

/-! ## Parameters -/

theorem map_mergeParameter (p : Parameter) : ∀ parameters : List Parameter,
    (mergeParameter p parameters).map (fun q => (q.key, q)) = upsert (parameters.map fun q => (q.key, q)) p.key p
  | [] => rfl
  | q :: rest => by
    rw [mergeParameter, List.map_cons, upsert]
    by_cases h : q.key = p.key
    · have hsame : q.name = p.name ∧ q.location = p.location := Prod.mk.inj h
      simp [h, hsame]
    · have hother : ¬ (q.name = p.name ∧ q.location = p.location) := fun hsame => h (Prod.ext hsame.1 hsame.2)
      simp [h, hother, map_mergeParameter p rest]

/-- Parameters that are put in their places one after another are merged. -/
theorem merges_foldl_mergeParameter (declared : List Parameter) :
    Merges Parameter.key declared (declared.foldl (fun merged p => mergeParameter p merged) []) := by
  have hfold (before : List Parameter) :
      (declared.foldl (fun merged p => mergeParameter p merged) before).map (fun q => (q.key, q)) =
        (declared.map fun q => (q.key, q)).foldl (fun l e => upsert l e.1 e.2) (before.map fun q => (q.key, q)) := by
    induction declared generalizing before with
    | nil => rfl
    | cons p declared ih => rw [List.foldl_cons, ih, map_mergeParameter, List.map_cons, List.foldl_cons]
  have hentries := hfold []
  generalize declared.foldl (fun merged p => mergeParameter p merged) [] = merged at hentries
  constructor
  · have hkeys := congrArg (List.map Prod.fst) hentries
    rw [keys_foldl_upsert] at hkeys
    simpa [Function.comp_def] using hkeys
  · intro p hp
    have hmem : (p.key, p) ∈ merged.map fun q => (q.key, q) := List.mem_map_of_mem hp
    rw [hentries] at hmem
    have hlast := getLast?_filter_of_mem_foldl_upsert hmem
    rw [List.filter_map, List.getLast?_map] at hlast
    obtain ⟨q, hq, heq⟩ := Option.map_eq_some_iff.1 hlast
    obtain rfl := (Prod.mk.inj heq).2
    exact hq

/-- The entries of a list of parameters, with their pointers. -/
def parameterPlaces (base : String) : Option Tree → List (String × Tree)
  | none => []
  | some tree => (Interpretation.indexed (tree.asSequence?.getD [])).map fun (index, entry) =>
      (Pointer.child base (toString index), entry)

/-- Reading parameters one after another. -/
def readParameters (r : Resolver) (unit : String) (places : List (String × Tree)) : Build (List Parameter) :=
  places.mapM fun (pointer, entry) => parameter r unit entry pointer

theorem Blind.readParameters {r : Resolver} {unit : String} (places : List (String × Tree)) :
    Blind (readParameters r unit places) := .mapM (fun (pointer, entry) => Blind.parameter entry pointer) places

/-- A walk that reads an item and puts what it is read as into a result reads all items and then puts them. -/
theorem exists_run_mapM {f : γ → Build α} {put : β → α → β} : ∀ {items : List γ} {b b' : β} {s t : Extraction},
    (items.foldlM (fun b c => do return put b (← f c)) b).run.run s = (.ok b', t) →
      ∃ as, (items.mapM f).run.run s = (.ok as, t) ∧ b' = as.foldl put b
  | [], b, b', s, t, h => by
    cases h
    exact ⟨[], rfl, rfl⟩
  | c :: items, b, b', s, t, h => by
    rw [List.foldlM_cons] at h
    obtain ⟨b₁, s₁, hfirst, hrest⟩ := of_run_bind h
    obtain ⟨a, s₂, ha, hput⟩ := of_run_bind hfirst
    cases hput
    obtain ⟨as, has, rfl⟩ := exists_run_mapM hrest
    refine ⟨a :: as, ?_, rfl⟩
    rw [List.mapM_cons, run_bind_of_ok ha, run_bind_of_ok has]
    rfl

theorem readParameters_append (r : Resolver) (unit : String) (places places' : List (String × Tree)) :
    readParameters r unit (places ++ places') = do
      let declared ← readParameters r unit places
      let declared' ← readParameters r unit places'
      return declared ++ declared' := by
  simp [readParameters]

/-- The parameters of a list are read in order and put in their places among those before. -/
theorem parameterList_reads {r : Resolver} {unit base : String} {before merged : List Parameter} {tree : Option Tree}
    {s t : Extraction} (h : (parameterList r unit base before tree).run.run s = (.ok merged, t)) :
    ∃ declared, (readParameters r unit (parameterPlaces base tree)).run.run s = (.ok declared, t) ∧
      merged = declared.foldl (fun merged p => mergeParameter p merged) before := by
  cases tree with
  | none =>
    cases h
    exact ⟨[], rfl, rfl⟩
  | some tree =>
    rw [parameterList] at h
    split at h
    · cases h
    · next entries hentries =>
      rw [readParameters, parameterPlaces, hentries, List.mapM_map]
      exact exists_run_mapM h

/-- Parameters in the path are required. -/
theorem parameter_required (r : Resolver) (unit : String) (entry : Tree) (pointer : String) :
    Yields (parameter r unit entry pointer) (fun p => p.location = .path → p.required = true) fun _ => True := by
  unfold parameter
  refine Yields.trivial.after fun (pointer, entry) => ?_
  dsimp only
  split
  · exact .throw trivial
  · split
    · exact .throw trivial
    · have hrequired (location : ParameterLocation) (flag : Bool) :
          location = .path → (flag || location == .path) = true := by
        rintro rfl
        simp
      split
      · exact Yields.trivial.after fun _ => .pure (hrequired _ _)
      · exact Yields.trivial.after fun _ => .pure (hrequired _ _)
      · exact Yields.trivial.after fun _ => .pure (hrequired _ _)

/-! ## Responses -/

/-- The responses that a mapping declares under scalars: the status of each, its pointer and its entry. -/
def responsePlaces (base : String) (entries : Entries) : List (String × String × Tree) :=
  entries.filterMap fun (key, entry) => key.keyText?.map fun key => (normalizeStatus key, Pointer.child base key, entry)

/-- Reading responses one after another, each with its status. -/
def readResponses (r : Resolver) (unit : String) (places : List (String × String × Tree)) :
    Build (List (String × Response)) :=
  places.mapM fun (status, pointer, entry) => do return (status, ← response r unit entry pointer)

theorem readResponses_cons (r : Resolver) (unit status pointer : String) (entry : Tree)
    (places : List (String × String × Tree)) :
    readResponses r unit ((status, pointer, entry) :: places) = do
      let declared ← response r unit entry pointer
      let others ← readResponses r unit places
      return (status, declared) :: others := by
  simp [readResponses]

theorem Blind.readResponses {r : Resolver} {unit : String} (places : List (String × String × Tree)) :
    Blind (readResponses r unit places) :=
  .mapM (fun (_, pointer, entry) => (Blind.response entry pointer).bind fun _ => .pure _) places

/-- The warning that a status is declared again. -/
def repeatedResponse (unit status : String) : Diagnostic :=
  Diagnostic.warning .duplicateResponse unit
    ("response `" ++ status ++ "` is declared more than once, the last declaration is used")

/-- The statuses of a list that stand in it before, or were seen before it. -/
def repeats (seen : List String) : List String → List String
  | [] => []
  | status :: rest => if status ∈ seen then status :: repeats seen rest else repeats (seen ++ [status]) rest

/-- What is not repeated is distinct. -/
theorem length_repeats (statuses : List String) : ∀ seen : List String,
    (repeats seen statuses).length + (statuses.removeAll seen).eraseDups.length = statuses.length := by
  induction statuses with
  | nil => simp [repeats]
  | cons status rest ih =>
    intro seen
    rw [repeats, List.cons_removeAll]
    by_cases h : status ∈ seen
    · have hseen := ih seen
      simp only [h, ↓reduceIte, List.length_cons, List.contains_eq_mem, decide_true, reduceCtorEq]
      omega
    · have hnew := ih (seen ++ [status])
      rw [removeAll_append_singleton] at hnew
      simp only [h, ↓reduceIte, List.contains_eq_mem, decide_false, List.eraseDups_cons, List.length_cons]
      omega

/-- What one entry of a mapping adds to the responses before. -/
def responseAfter (r : Resolver) (unit base : String) (before : List (String × Response)) (c : Tree × Tree) :
    Build (List (String × Response)) :=
  match c.1.keyText? with
  | none => return before
  | some key => do
    let status := normalizeStatus key
    let declared ← response r unit c.2 (Pointer.child base key)
    if (before.lookup status).isSome then note (repeatedResponse unit status)
    return upsert before status declared

theorem responses_eq (r : Resolver) (unit base : String) (entries : Entries) :
    responses r unit base entries = entries.foldlM (responseAfter r unit base) [] := rfl

variable {r : Resolver} {unit base : String} {before merged : List (String × Response)} {s t : Extraction}

/-- An entry under a scalar is read, and the warning recorded if its status is there before. -/
theorem run_responseAfter {c : Tree × Tree} {key : String} (hkey : c.1.keyText? = some key)
    (h : (responseAfter r unit base before c).run.run s = (.ok merged, t)) :
    ∃ declared u, (response r unit c.2 (Pointer.child base key)).run.run s = (.ok declared, u) ∧
      merged = upsert before (normalizeStatus key) declared ∧
      t = { u with diagnostics := s.diagnostics ++
        if normalizeStatus key ∈ before.map (·.1) then [repeatedResponse unit (normalizeStatus key)] else [] } := by
  rw [responseAfter, hkey] at h
  obtain ⟨declared, u, hdeclared, hrest⟩ := of_run_bind h
  have hdiagnostics : u.diagnostics = s.diagnostics := (Blind.response _ _).diagnostics hdeclared
  refine ⟨declared, u, hdeclared, ?_⟩
  by_cases hseen : normalizeStatus key ∈ before.map (·.1)
  · rw [if_pos (lookup_isSome_iff.2 hseen)] at hrest
    cases hrest
    exact ⟨rfl, by rw [if_pos hseen, ← hdiagnostics]⟩
  · rw [if_neg (mt lookup_isSome_iff.1 hseen)] at hrest
    cases hrest
    exact ⟨rfl, by rw [if_neg hseen, ← hdiagnostics, List.append_nil]⟩

/-- The responses of a mapping are read in order and put in their places among those before, with one warning for every
status that is there before. -/
theorem responses_read : ∀ {entries : Entries} {before merged : List (String × Response)} {s t : Extraction},
    (entries.foldlM (responseAfter r unit base) before).run.run s = (.ok merged, t) →
      ∃ declared u, (readResponses r unit (responsePlaces base entries)).run.run s = (.ok declared, u) ∧
        merged = declared.foldl (fun l e => upsert l e.1 e.2) before ∧
        t = { u with diagnostics := s.diagnostics ++
          (repeats (before.map (·.1)) (declared.map (·.1))).map (repeatedResponse unit) }
  | [], before, merged, s, t, h => by
    cases h
    exact ⟨[], s, rfl, rfl, by simp [repeats]⟩
  | c :: entries, before, merged, s, t, h => by
    rw [List.foldlM_cons] at h
    obtain ⟨first, s₁, hfirst, hrest⟩ := of_run_bind h
    obtain ⟨declared, u, hread, hmerged, hnotes⟩ := responses_read hrest
    cases hkey : c.1.keyText? with
    | none =>
      rw [responseAfter, hkey] at hfirst
      cases hfirst
      have hplaces : responsePlaces base (c :: entries) = responsePlaces base entries := by simp [responsePlaces, hkey]
      exact ⟨declared, u, hplaces ▸ hread, hmerged, hnotes⟩
    | some key =>
      obtain ⟨one, s₂, hone, rfl, hs₁⟩ := run_responseAfter hkey hfirst
      have hplaces : responsePlaces base (c :: entries) =
          (normalizeStatus key, Pointer.child base key, c.2) :: responsePlaces base entries := by
        simp [responsePlaces, hkey]
      -- What was recorded in between makes no difference to what is read.
      have hsame := (Blind.readResponses (responsePlaces base entries)).answer hread s₂.diagnostics
      rw [hs₁] at hsame
      refine ⟨(normalizeStatus key, one) :: declared, { u with diagnostics := s₂.diagnostics }, ?_, ?_, ?_⟩
      · rw [hplaces, readResponses_cons, run_bind_of_ok hone]
        exact (run_bind_of_ok hsame).trans rfl
      · rw [hmerged, List.foldl_cons]
      · rw [hnotes, hs₁, List.map_cons, repeats]
        by_cases hseen : normalizeStatus key ∈ before.map (·.1)
        · simp [hseen, keys_upsert_of_mem hseen]
        · simp [hseen, upsert_of_not_mem hseen]

/-- Responses that are put in their places one after another are merged. -/
theorem merges_foldl_upsert (declared : List (String × Response)) :
    Merges Prod.fst declared (declared.foldl (fun l e => upsert l e.1 e.2) []) where
  order := by
    rw [keys_foldl_upsert]
    simp
  last _ h := getLast?_filter_of_mem_foldl_upsert h

/-! ## The parts of an operation -/

/-- A computation has an answer in a state of an extraction that comes to the given definitions. -/
def Gives (slots : Slots) (x : Build α) (a : α) : Prop :=
  ∃ s t : Extraction, s.slots.Orderly ∧ t.slots.Grows slots ∧ x.run.run s = (.ok a, t)

theorem Gives.mono {slots slots' : Slots} {x : Build α} {a : α} (h : Gives slots x a) (hs : slots.Grows slots') :
    Gives slots' x a := by
  obtain ⟨s, t, horderly, hg, hrun⟩ := h
  exact ⟨s, t, horderly, hg.trans hs, hrun⟩

/-- The places of the responses under the key of an operation. -/
def declaredResponses (base : String) : Option Tree → List (String × String × Tree)
  | some (.mapping entries) => responsePlaces base entries
  | _ => []

/-- What stands at the places is read and merged, with the warnings about responses that are declared again. -/
structure Parts.Declared (r : Resolver) (unit : String) (given : List (String × Tree))
    (answers : List (String × String × Tree)) (slots : Slots) (parts : Parts) (notes : List Diagnostic) : Prop where
  parameters : ∃ declared, Gives slots (readParameters r unit given) declared ∧
    Merges Parameter.key declared parts.parameters
  required : ∀ p ∈ parts.parameters, p.location = .path → p.required = true
  responses : ∃ declared, Gives slots (readResponses r unit answers) declared ∧
    declared.map Prod.fst = answers.map (·.1) ∧ Merges Prod.fst declared parts.responses
  notes : notes = (repeats [] (answers.map (·.1))).map (repeatedResponse unit)

theorem Parts.Declared.mono {given : List (String × Tree)} {answers : List (String × String × Tree)}
    {slots slots' : Slots} {parts : Parts} {notes : List Diagnostic}
    (h : parts.Declared r unit given answers slots notes) (hs : slots.Grows slots') :
    parts.Declared r unit given answers slots' notes where
  parameters := h.parameters.imp fun _ hd => ⟨hd.1.mono hs, hd.2⟩
  required := h.required
  responses := h.responses.imp fun _ hd => ⟨hd.1.mono hs, hd.2⟩
  notes := h.notes

/-- Each response is read with the status of its place. -/
theorem statuses_of_read : ∀ {places : List (String × String × Tree)} {declared : List (String × Response)}
    {s t : Extraction}, (readResponses r unit places).run.run s = (.ok declared, t) →
      declared.map Prod.fst = places.map (·.1)
  | [], _, _, _, h => by
    cases h
    rfl
  | (status, pointer, entry) :: places, declared, s, t, h => by
    rw [readResponses_cons] at h
    obtain ⟨one, s₁, -, hrest⟩ := of_run_bind h
    obtain ⟨others, s₂, hothers, hlist⟩ := of_run_bind hrest
    cases hlist
    rw [List.map_cons, List.map_cons, statuses_of_read hothers]

/-- All that is read of parameters has what reading one gives. -/
theorem readParameters_required (places : List (String × Tree)) :
    Yields (readParameters r unit places) (fun declared => ∀ p ∈ declared, p.location = .path → p.required = true)
      fun _ => True := by
  induction places with
  | nil => exact .pure (by simp)
  | cons place places ih =>
    rw [readParameters, List.mapM_cons]
    exact (parameter_required r unit _ _).bind fun p hp => ih.bind fun ps hps => .pure (List.forall_mem_cons.2 ⟨hp, hps⟩)

/-- Both lists of parameters are read in a row and merged. -/
theorem parameterLists_merge {base base' : String} {tree tree' : Option Tree} {first merged : List Parameter}
    {s s' t : Extraction} (hfirst : (parameterList r unit base [] tree).run.run s = (.ok first, s'))
    (hmerged : (parameterList r unit base' first tree').run.run s' = (.ok merged, t)) :
    ∃ declared, (readParameters r unit (parameterPlaces base tree ++ parameterPlaces base' tree')).run.run s =
      (.ok declared, t) ∧ t.diagnostics = s.diagnostics ∧ Merges Parameter.key declared merged := by
  obtain ⟨declared, hdeclared, rfl⟩ := parameterList_reads hfirst
  obtain ⟨declared', hdeclared', rfl⟩ := parameterList_reads hmerged
  have hsame := (Blind.readParameters _).diagnostics hdeclared
  refine ⟨declared ++ declared', ?_, ((Blind.readParameters _).diagnostics hdeclared').trans hsame, ?_⟩
  · rw [readParameters_append, run_bind_of_ok hdeclared, run_bind_of_ok hdeclared']
    rfl
  · rw [← List.foldl_append]
    exact merges_foldl_mergeParameter _

/-- The declared responses are read and merged. -/
theorem withResponses_merge {pointer : String} {node : Entries} {parameters : List Parameter} {body : Option RequestBody}
    {built : Parts} (hs : s.slots.Orderly)
    (h : (withResponses r unit pointer node parameters body).run.run s = (.ok built, t)) :
    built.parameters = parameters ∧
      t.diagnostics = s.diagnostics ++ (repeats [] ((declaredResponses (Pointer.child pointer "responses")
        (node.get? "responses")).map (·.1))).map (repeatedResponse unit) ∧
      ∃ declared, Gives t.slots (readResponses r unit (declaredResponses (Pointer.child pointer "responses")
        (node.get? "responses"))) declared ∧ Merges Prod.fst declared built.responses := by
  have hnone : Gives s.slots (readResponses r unit []) [] := ⟨s, s, hs, .refl _, rfl⟩
  have hempty : Merges Prod.fst ([] : List (String × Response)) [] := merges_foldl_upsert []
  unfold withResponses at h
  split at h
  · next entries hentries =>
    rw [hentries]
    obtain ⟨responses, s', hresponses, hparts⟩ := of_run_bind h
    cases hparts
    obtain ⟨declared, u, hread, rfl, rfl⟩ := responses_read hresponses
    refine ⟨rfl, ?_, declared, ⟨s, u, hs, .refl _, hread⟩, merges_foldl_upsert declared⟩
    rw [declaredResponses, ← statuses_of_read hread]
    rfl
  · next hnull =>
    rw [hnull]
    cases h
    exact ⟨rfl, by simp [declaredResponses, repeats], [], hnone, hempty⟩
  · next hnull =>
    rw [hnull]
    cases h
    exact ⟨rfl, by simp [declaredResponses, repeats], [], hnone, hempty⟩
  · cases h

/-- Building the parts of an operation reads and merges what is declared, and records nothing else. -/
theorem parts_declared (hr : r.Rooted) {pointer pathPointer : String} {node : Entries} {shared : Option Tree}
    {built : Parts} (hs : s.slots.Orderly) (h : (parts r unit pointer pathPointer node shared).run.run s = (.ok built, t)) :
    ∃ notes, t.diagnostics = s.diagnostics ++ notes ∧ built.Declared r unit
      (parameterPlaces (Pointer.child pathPointer "parameters") shared ++
        parameterPlaces (Pointer.child pointer "parameters") (node.get? "parameters"))
      (declaredResponses (Pointer.child pointer "responses") (node.get? "responses")) t.slots notes := by
  unfold parts at h
  obtain ⟨first, s₁, hfirst, h⟩ := of_run_bind h
  obtain ⟨merged, s₂, hmerged, h⟩ := of_run_bind h
  have hk₁ : Kept s s₁ := ((Builds.parameterList hr _ _ _ s hs).answer hfirst).1
  have hk₂ : Kept s₁ s₂ := ((Builds.parameterList hr _ _ _ s₁ hk₁.orderly).answer hmerged).1
  obtain ⟨declared, hread, hparameters, hmerges⟩ := parameterLists_merge hfirst hmerged
  have hbody : ∃ body s₃, Kept s₂ s₃ ∧ s₃.diagnostics = s₂.diagnostics ∧
      (withResponses r unit pointer node merged body).run.run s₃ = (.ok built, t) := by
    cases hrequest : node.get? "requestBody" with
    | some entry =>
      rw [hrequest] at h
      obtain ⟨body, s₃, hbody, h⟩ := of_run_bind h
      have hblind : Blind (requestBody r unit pointer entry) := .requestBody pointer entry
      exact ⟨body, s₃, ((Builds.requestBody hr _ _ s₂ hk₂.orderly).answer hbody).1, hblind.diagnostics hbody, h⟩
    | none =>
      rw [hrequest] at h
      exact ⟨none, s₂, .refl hk₂.orderly, rfl, h⟩
  obtain ⟨body, s₃, hk₃, hsame, h⟩ := hbody
  have hk₄ : Kept s₃ t := ((Builds.withResponses hr _ _ _ _ s₃ hk₃.orderly).answer h).1
  obtain ⟨rfl, hnotes, declared', hread', hmerges'⟩ := withResponses_merge hk₃.orderly h
  have hrequired := (readParameters_required _ s).answer hread
  refine ⟨_, hnotes.trans (by rw [hsame, hparameters]), ⟨declared, ⟨s, s₂, hs, hk₃.slots.trans hk₄.slots, hread⟩, hmerges⟩,
    fun p hp => hrequired p (hmerges.mem hp), ⟨declared', hread', ?_, hmerges'⟩, rfl⟩
  obtain ⟨s', t', -, -, hrun⟩ := hread'
  exact statuses_of_read hrun

end Extraction

end ContractBindings
