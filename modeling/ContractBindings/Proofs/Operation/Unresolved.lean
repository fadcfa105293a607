import ContractBindings.Proofs.Operation.Extracted
import ContractBindings.Proofs.Reference.Checked

/-!
# References that fail after the check

The check of a document resolves the references of all that a walk over the document comes to. Interpretation and
extraction reach schemas, parameters, bodies and responses in ways of their own, but only what such a walk comes to too
(`Tree.Shown`): they pass into a mapping under keys that are texts. So what can still fail to resolve is a text that is
no reference, and the one such text that is followed is what a tag of a discriminator selects
(`checked_unresolved`).
-/

namespace ContractBindings

open Interpretation

namespace Tree

/-- The tree is a tagged value. -/
def isTagged : Tree → Bool
  | .tagged _ _ => true
  | _ => false

mutual

/-- No key of a mapping in the tree is a tagged value. -/
def plainKeys : Tree → Bool
  | .sequence items => plainKeysOfItems items
  | .mapping entries => plainKeysOfEntries entries
  | .tagged _ value => value.plainKeys
  | _ => true

/-- No key of a mapping in the items of a sequence is a tagged value. -/
def plainKeysOfItems : List Tree → Bool
  | [] => true
  | item :: rest => item.plainKeys && plainKeysOfItems rest

/-- No key of the entries of a mapping, or of a mapping in their values, is a tagged value. -/
def plainKeysOfEntries : List (Tree × Tree) → Bool
  | [] => true
  | (key, value) :: rest => !key.isTagged && value.plainKeys && plainKeysOfEntries rest

end

theorem plainKeys_of_mem_items {item : Tree} : ∀ {items : List Tree}, plainKeysOfItems items = true → item ∈ items →
    item.plainKeys = true
  | [], _, hmem => by cases hmem
  | first :: rest, h, hmem => by
    rw [plainKeysOfItems, Bool.and_eq_true] at h
    rcases List.mem_cons.1 hmem with rfl | hmem
    · exact h.1
    · exact plainKeys_of_mem_items h.2 hmem

theorem plainKeys_of_mem_entries {key value : Tree} : ∀ {entries : Entries}, plainKeysOfEntries entries = true →
    (key, value) ∈ entries → key.isTagged = false ∧ value.plainKeys = true
  | [], _, hmem => by cases hmem
  | first :: rest, h, hmem => by
    rw [plainKeysOfEntries, Bool.and_eq_true, Bool.and_eq_true, Bool.not_eq_true'] at h
    rcases List.mem_cons.1 hmem with rfl | hmem
    · exact h.1
    · exact plainKeys_of_mem_entries h.2 hmem

theorem plainKeys_untag (tree : Tree) : tree.untag.plainKeys = tree.plainKeys := by
  induction tree using untag.induct with
  | case1 tag value ih => rw [untag, ih, plainKeys]
  | case2 tree hno =>
    unfold untag
    split
    · next tag value => exact absurd rfl (hno tag value)
    · rfl

theorem Shown.plainKeys {part tree : Tree} (h : part.Shown tree) (htree : tree.plainKeys = true) :
    part.plainKeys = true := by
  induction h with
  | self => exact htree
  | item hmem _ ih =>
    rw [Tree.plainKeys] at htree
    exact ih (plainKeys_of_mem_items htree hmem)
  | value hmem _ _ ih =>
    rw [Tree.plainKeys] at htree
    exact ih (plainKeys_of_mem_entries htree hmem).2
  | tagged _ ih =>
    rw [Tree.plainKeys] at htree
    exact ih htree

/-- A tag of a discriminator in the tree selects the text. -/
def Tags (root : Tree) (text : String) : Prop := ∃ schema, Shown schema root ∧ schema.Selects text

/-- A key that reads as a text is one, so what stands under it is shown. -/
theorem Shown.under_text {root tree key value : Tree} {entries : Entries} {name : String} (htree : tree.Shown root)
    (hkeys : root.plainKeys = true) (hentries : tree.asMapping? = some entries) (hmem : (key, value) ∈ entries)
    (hkey : key.asText? = some name) : value.Shown root := by
  have hplain : plainKeysOfEntries entries = true := by
    have huntag := plainKeys_untag tree
    rwa [untag_of_asMapping? hentries, htree.plainKeys hkeys, Tree.plainKeys] at huntag
  have hkey' := (plainKeys_of_mem_entries hplain hmem).1
  have htext : key.keyText? = some name := by
    cases key <;> simp_all [asText?, untag, keyText?, isTagged]
  exact (shown_of_mem_mapping hentries hmem htext).trans htree

end Tree

variable {root : Tree} {r : Resolver}

/-- The resolver finds the references of all that is shown in the document. -/
def Resolver.Finds (r : Resolver) (root : Tree) : Prop :=
  ∀ tree : Tree, tree.Shown root → ∀ text, tree.Refers text → ∀ holder, ∃ found, r.find text holder = .ok found

/-- What a reference leads to is shown in the document. -/
theorem Resolver.Serves.shown (h : r.Serves root) {text holder : String} {found : Reference.Resolved}
    (hf : r.find text holder = .ok found) : found.node.Shown root := by
  have hchase := h.faithful.chase_of_find hf
  rw [h.root_eq] at hchase
  exact Tree.shown_of_lookup (Reference.chase_spec hchase).2.1

theorem Resolver.reference_of_find_error {text holder : String} {u : Unresolved} (h : r.find text holder = .error u) :
    u.reference = text := by
  unfold find at h
  split at h
  · cases h
  · cases hc : Reference.chase r.root r.bound [] text with
    | error cause =>
      rw [hc] at h
      cases h
      rfl
    | ok found =>
      rw [hc] at h
      cases h

/-- A failure that is for a reference is for what a tag selects. -/
def BlamesTags (root : Tree) (unresolved : Unresolved → ε) (e : ε) : Prop :=
  ∀ u, e = unresolved u → root.Tags u.reference

/-! ## Interpretation -/

namespace Interpretation

/-- A confined interpretation fails as told if the parts and the references do. -/
theorem Confined.yields {tree : Tree} {P : α → Slots → Prop} {x : Reading → Interpretation α} (h : Confined tree P x)
    {p : Reading} {failed : InterpretError → Prop} (hschema : ∀ e, failed (.schema e))
    (hvisit : ∀ part id, part.Subschema tree → Yields (p.visit part id) (fun _ => True) failed)
    (hreference : ∀ text holder, tree.Follows text →
      Yields (Interpretation.reference p.resolver p.visit text holder) (fun _ => True) failed) :
    Yields (x p) (fun _ => True) failed := by
  induction h with
  | pure _ => exact .pure trivial
  | throw => exact .throw (hschema _)
  | visit hpart => exact hvisit _ _ hpart
  | reference hfollows => exact hreference _ _ hfollows
  | composed _ ih => exact ih.after fun parts s => ends_flattened.2 ⟨fun _ _ => trivial, fun e _ => hschema e⟩
  | bind _ _ _ ihx ihf => exact ihx.after ihf
  | mono _ _ ih => exact ih

theorem define_yields {visit : Visit} {k : SchemaId} {tree : Tree} {failed : InterpretError → Prop}
    (hvisit : Yields (visit tree k) (fun _ => True) failed) :
    Yields (define visit k tree) (fun _ => True) failed := by
  intro s
  rw [define]
  refine ends_bind.2 (ends_get.2 ?_)
  split
  · refine ends_bind.2 (ends_modify.2 (ends_bind.2 (ends_catchSchema ?_)))
    refine (hvisit _).mono (fun n s' _ => ends_modify.2 trivial) fun e s' h => ?_
    exact ⟨fun err _ => ends_modify.2 trivial, fun _ => h⟩
  · exact ends_pure.2 trivial

/-- The interpretation of what is shown fails for no reference but those of tags. -/
theorem node_yields (hr : r.Serves root) (hfinds : r.Finds root) (depth : Nat) : ∀ (tree : Tree) (id : SchemaId),
    tree.Shown root → Yields (node r depth tree id) (fun _ => True) (BlamesTags root .unresolved) := by
  induction depth with
  | zero => exact fun tree id _ => .throw fun u hu => by cases hu
  | succ depth ih =>
    intro tree id htree
    refine (level_confined tree id).yields (p := ⟨r, node r depth⟩) (fun e u hu => by cases hu)
      (fun part id hpart => ih part id (hpart.shown.trans htree)) fun text holder hfollows => ?_
    unfold reference
    dsimp only
    split
    · next found hfound => exact (define_yields (ih _ _ (hr.shown hfound))).after fun _ => .pure trivial
    · next e he =>
      refine .throw fun u hu => ?_
      cases hu
      rcases hfollows with hrefers | hselects
      · obtain ⟨found, hfound⟩ := hfinds tree htree text hrefers holder.pointer
        rw [hfound] at he
        cases he
      · rw [Resolver.reference_of_find_error he]
        exact ⟨tree, htree, hselects⟩

theorem components_yields {d : Document} (hr : r.Serves d.root) (hfinds : r.Finds d.root) :
    Yields (components r d) (fun _ => True) (BlamesTags d.root .unresolved) := by
  refine Yields.forM _ fun c hc => ?_
  dsimp only
  split
  · next name hname =>
    obtain ⟨entries, hentries, hc⟩ := exists_of_mem_getD hc
    obtain ⟨schemas, hschemas, hmapping⟩ := Option.bind_eq_some_iff.1 hentries
    obtain ⟨holder, hholder, hschemas⟩ := Option.bind_eq_some_iff.1 hschemas
    have hshown : c.2.Shown d.root := (Tree.shown_of_mem_mapping hmapping hc hname).trans
      ((Tree.shown_of_tree_get? hschemas).trans (Tree.shown_of_tree_get? hholder))
    exact define_yields (node_yields hr hfinds _ _ _ hshown)
  · exact .pure trivial

end Interpretation

/-! ## Extraction -/

namespace Extraction

/-- Building fails for no reference but those of tags. -/
abbrev Builds.Yields (root : Tree) (x : Build α) (ok : α → Prop) : Prop :=
  ContractBindings.Yields x ok (BlamesTags root fun u => .abort (.unresolved u))

section Building

variable {unit : String}

theorem malformed_yields (pointer : String) (fault : StructureFault) (ok : α → Prop) :
    Builds.Yields root (malformed pointer fault) ok := .throw fun u hu => by cases hu

theorem skip_yields (code : DiagnosticCode) (message : String) (ok : α → Prop) :
    Builds.Yields root (skip code unit message) ok := .throw fun u hu => by cases hu

theorem record_yields (rule : RecordRule) (pointer : String) (tree : Tree) :
    Builds.Yields root (record rule pointer tree) fun _ => True := by
  unfold record
  split
  · exact .pure trivial
  · exact malformed_yields _ _ _

theorem schema_yields (hr : r.Serves root) (hfinds : r.Finds root) {tree : Tree} (htree : tree.Shown root)
    (pointer : String) : Builds.Yields root (schema r unit tree pointer) fun _ => True := by
  intro s
  have hnode := node_yields hr hfinds (bound r.root) tree ⟨pointer⟩ htree s.slots
  unfold schema
  refine ends_bind.2 (ends_get.2 ?_)
  rcases hrun : ((visit r tree ⟨pointer⟩).run).run s.slots with ⟨answer, slots⟩
  refine ends_bind.2 (ends_set.2 ?_)
  cases answer with
  | ok node => exact ends_pure.2 trivial
  | error e =>
    have hblames := hnode.failure hrun
    cases e with
    | schema err => exact ends_throw.2 fun u hu => by cases hu
    | unresolved unresolved =>
      refine ends_throw.2 fun u hu => ?_
      cases hu
      exact hblames _ rfl
    | tooDeep => exact ends_throw.2 fun u hu => by cases hu

/-- An entry that is a reference is found, and what it stands for is shown. -/
theorem follow_yields (hr : r.Serves root) (hfinds : r.Finds root) {entry : Tree} (hentry : entry.Shown root)
    (pointer : String) : Builds.Yields root (follow r entry pointer) fun place => place.2.Shown root := by
  unfold follow
  split
  · next text htext =>
    obtain ⟨target, htarget, hname⟩ := Option.bind_eq_some_iff.1 htext
    obtain ⟨entries, hentries, hget⟩ := Option.bind_eq_some_iff.1 htarget
    have hrefers : entry.Refers text := ⟨entries, hentries, Option.bind_eq_some_iff.2 ⟨target, hget, hname⟩⟩
    obtain ⟨found, hfound⟩ := hfinds entry hentry text hrefers pointer
    rw [hfound]
    exact .pure (hr.shown hfound)
  · exact .pure hentry

/-- The schema of the media type that is used is shown. -/
theorem shown_of_media (hkeys : root.plainKeys = true) {entry : Tree} (hentry : entry.Shown root) {type : String}
    {tree : Tree} (h : media? entry = some (type, tree)) : tree.Shown root := by
  obtain ⟨content, hcontent, hpick⟩ := Option.bind_eq_some_iff.1 h
  obtain ⟨holder, hholder, hmapping⟩ := Option.bind_eq_some_iff.1 hcontent
  have hshown : holder.Shown root := (Tree.shown_of_tree_get? hholder).trans hentry
  unfold pickMedia at hpick
  split at hpick
  · next schema hschema =>
    cases hpick
    obtain ⟨media, hmedia, hschema⟩ := Option.bind_eq_some_iff.1 hschema
    exact (Tree.shown_of_tree_get? hschema).trans ((Tree.shown_of_get? hmapping hmedia).trans hshown)
  · obtain ⟨⟨key, media⟩, hmem, hfound⟩ := List.exists_of_findSome?_eq_some hpick
    obtain ⟨name, hname, hfound⟩ := Option.bind_eq_some_iff.1 hfound
    obtain ⟨schema, hschema, hfound⟩ := Option.bind_eq_some_iff.1 hfound
    cases hfound
    exact (Tree.shown_of_tree_get? hschema).trans (hshown.under_text hkeys hmapping hmem hname)

/-- What ends the building of an operation ends the run. -/
theorem attempt_yields {build : Build Operation} (h : Builds.Yields root build fun _ => True) :
    Yields (attempt build) (fun _ => True) (BlamesTags root .unresolved) := by
  intro s
  have hbuild := h s
  unfold attempt
  refine ends_bind.2 (ends_get.2 ?_)
  rcases hrun : (build.run).run s with ⟨answer, s'⟩
  refine ends_bind.2 (ends_set.2 ?_)
  cases answer with
  | ok operation => exact ends_modify.2 trivial
  | error e =>
    have hblames := hbuild.failure hrun
    cases e with
    | skip d => exact ends_modify.2 trivial
    | abort failure =>
      refine ends_throw.2 fun u hu => ?_
      subst hu
      exact hblames u rfl

variable (hkeys : root.plainKeys = true) (hr : r.Serves root) (hfinds : r.Finds root)

include hkeys hr hfinds

theorem parameter_yields {entry : Tree} (hentry : entry.Shown root) (pointer : String) :
    Builds.Yields root (parameter r unit entry pointer) fun _ => True := by
  unfold parameter
  refine (follow_yields hr hfinds hentry pointer).bind fun (pointer, entry) hshown => ?_
  dsimp only at hshown ⊢
  split
  · exact skip_yields _ _ _
  · split
    · exact skip_yields _ _ _
    · split
      · next tree htree =>
        have htree : tree.Shown root := (Tree.shown_of_tree_get? htree).trans hshown
        exact (schema_yields hr hfinds htree _).after fun _ => .pure trivial
      · next tree _ hmedia =>
        exact (schema_yields hr hfinds (shown_of_media hkeys hshown hmedia) _).after fun _ => .pure trivial
      · exact .pure trivial

theorem parameterList_yields (base : String) (before : List Parameter) {tree : Option Tree}
    (htree : ∀ list ∈ tree, list.Shown root) :
    Builds.Yields root (parameterList r unit base before tree) fun _ => True := by
  cases tree with
  | none => exact .pure trivial
  | some tree =>
    rw [parameterList]
    split
    · exact skip_yields _ _ _
    · next items hitems =>
      refine .foldlM _ (fun c hc merged => ?_) before
      have hshown : c.2.Shown root := (Tree.shown_of_mem_sequence hitems (mem_of_indexed hc)).trans (htree tree rfl)
      exact (parameter_yields hkeys hr hfinds hshown _).after fun _ => .pure trivial

theorem requestBody_yields {entry : Tree} (hentry : entry.Shown root) (pointer : String) :
    Builds.Yields root (requestBody r unit pointer entry) fun _ => True := by
  unfold requestBody
  refine (follow_yields hr hfinds hentry _).bind fun (pointer, entry) hshown => ?_
  refine (record_yields _ _ _).after fun record => ?_
  split
  · exact .pure trivial
  · next hmedia => exact (schema_yields hr hfinds (shown_of_media hkeys hshown hmedia) _).after fun _ => .pure trivial

theorem response_yields {entry : Tree} (hentry : entry.Shown root) (pointer : String) :
    Builds.Yields root (response r unit entry pointer) fun _ => True := by
  unfold response
  refine (follow_yields hr hfinds hentry _).bind fun (pointer, entry) hshown => ?_
  refine (record_yields _ _ _).after fun record => ?_
  split
  · next hmedia => exact (schema_yields hr hfinds (shown_of_media hkeys hshown hmedia) _).after fun _ => .pure trivial
  · exact .pure trivial

theorem responses_yields (base : String) {entries : Entries} (hentries : (Tree.mapping entries).Shown root) :
    Builds.Yields root (responses r unit base entries) fun _ => True := by
  unfold responses
  refine .foldlM _ (fun c hc before => ?_) []
  dsimp only
  split
  · exact .pure trivial
  · next name hname =>
    have hshown : c.2.Shown root := (Tree.shown_of_mem_mapping rfl hc hname).trans hentries
    refine (response_yields hkeys hr hfinds hshown _).after fun declared => ?_
    split
    · exact Yields.after (fun s => ends_modify.2 trivial) fun _ => .pure trivial
    · exact .pure trivial

theorem withResponses_yields (pointer : String) {node : Entries}
    (hnode : ∀ {key : String} {value : Tree}, node.get? key = some value → value.Shown root)
    (parameters : List Parameter) (body : Option RequestBody) : Builds.Yields root (do
      let responses ←
        match node.get? "responses" with
        | some (.mapping declared) => responses r unit (Pointer.child pointer "responses") declared
        | some .null | none => pure []
        | some _ => malformed (Pointer.child pointer "responses") .responsesNotMapping
      return (⟨parameters, body, responses⟩ : Parts)) fun _ => True := by
  split
  · next declared hdeclared =>
    exact (responses_yields hkeys hr hfinds _ (hnode hdeclared)).after fun _ => .pure trivial
  · exact .pure trivial
  · exact .pure trivial
  · exact (malformed_yields _ _ _).after fun _ => .pure trivial

theorem parts_yields (pointer pathPointer : String) {tree : Tree} {node : Entries} {shared : Option Tree}
    (htree : tree.Shown root) (hnode : tree.asMapping? = some node) (hshared : ∀ list ∈ shared, list.Shown root) :
    Builds.Yields root (parts r unit pointer pathPointer node shared) fun _ => True := by
  have hget {key : String} {value : Tree} (h : node.get? key = some value) : value.Shown root :=
    (Tree.shown_of_get? hnode h).trans htree
  unfold parts
  refine (parameterList_yields hkeys hr hfinds _ _ hshared).after fun first => ?_
  refine (parameterList_yields hkeys hr hfinds _ _ fun list hlist => hget hlist).after fun parameters => ?_
  cases hbody : node.get? "requestBody" with
  | some entry =>
    refine (requestBody_yields hkeys hr hfinds (hget hbody) _).after fun body => ?_
    exact withResponses_yields hkeys hr hfinds pointer hget parameters body
  | none => exact Yields.after (.pure trivial) fun body => withResponses_yields hkeys hr hfinds pointer hget parameters body

theorem operation_yields (naming : OperationNaming) (path pathPointer : String) {shared : Option Tree} (method : Method)
    {tree : Tree} (htree : tree.Shown root) (hshared : ∀ list ∈ shared, list.Shown root) :
    Yields (operation r naming path pathPointer shared method tree) (fun _ => True) (BlamesTags root .unresolved) := by
  unfold operation
  dsimp only
  split
  · exact .throw fun u hu => by cases hu
  · next node hnode =>
    split
    · exact .throw fun u hu => by cases hu
    · refine Yields.after (fun s => ends_get.2 trivial) fun state => ?_
      split
      · exact .throw fun u hu => by cases hu
      · refine Yields.after (fun s => ends_modify.2 trivial) fun _ => attempt_yields ?_
        exact (parts_yields hkeys hr hfinds _ _ htree hnode hshared).after fun _ => .pure trivial

theorem pathItem_yields (naming : OperationNaming) {key item : Tree} (hitem : item.Shown root) :
    Yields (pathItem r naming key item) (fun _ => True) (BlamesTags root .unresolved) := by
  unfold pathItem
  split
  · exact .throw fun u hu => by cases hu
  · dsimp only
    split
    · exact .pure trivial
    · next entries =>
      refine .forM entries fun (name, tree) hmem => ?_
      dsimp only
      split
      · next method hmethod =>
        obtain ⟨text, htext, -⟩ := Option.bind_eq_some_iff.1 hmethod
        refine operation_yields hkeys hr hfinds naming _ _ method (hitem.under_text hkeys rfl hmem htext) ?_
        exact fun list hlist => (Tree.shown_of_get? rfl hlist).trans hitem
      · exact .pure trivial
    · exact .throw fun u hu => by cases hu

end Building

theorem document_yields {d : Document} (hkeys : d.root.plainKeys = true) (hr : r.Serves d.root)
    (hfinds : r.Finds d.root) (naming : OperationNaming) :
    Yields (document r naming d) (fun _ => True) (BlamesTags d.root .unresolved) := by
  refine Yields.forM _ fun (key, item) hmem => ?_
  dsimp only
  cases hpaths : d.paths? with
  | none =>
    rw [hpaths] at hmem
    cases hmem
  | some entries =>
    rw [hpaths] at hmem
    obtain ⟨holder, hholder, hmapping⟩ := Option.bind_eq_some_iff.1 hpaths
    cases hkey : key.asText? with
    | none =>
      unfold pathItem
      rw [hkey]
      exact .throw fun u hu => by cases hu
    | some path =>
      exact pathItem_yields hkeys hr hfinds naming
        ((Tree.shown_of_tree_get? hholder).under_text hkeys hmapping hmem hkey)

/-! ## Main result -/

/-- After the check of a document passed, interpretation of its components and extraction of its operations fail for a
reference only where a tag of a discriminator selects what leads nowhere. No reference of a schema, a parameter, a body
or a response fails any more: those of all that a walk over the document comes to are found. -/
theorem checked_unresolved {d : Document} (hkeys : d.root.plainKeys = true) {count : Nat} {r : Resolver}
    (hcheck : (Resolver.new d.root).checkAll = (.ok count, r)) (naming : OperationNaming) :
    (∀ node : Tree, node.Shown d.root → ∀ text, node.Refers text → ∀ holder, ∃ found, r.find text holder = .ok found) ∧
      (∀ u slots, (components r d).run.run [] = (.error (.unresolved u), slots) → d.root.Tags u.reference) ∧
      ∀ slots u, Extraction.run r naming d slots = .error (.unresolved u) → d.root.Tags u.reference := by
  have hr : r.Serves d.root := by
    have hserves := Resolver.serves_checkAll d.root
    rwa [hcheck] at hserves
  have hfinds : r.Finds d.root := fun node hnode text htext holder =>
    Resolver.find_of_checkAll hcheck hnode htext holder
  refine ⟨hfinds, fun u slots hrun => (components_yields hr hfinds []).failure hrun u rfl, fun slots u hrun => ?_⟩
  have hyields := document_yields hkeys hr hfinds naming { empty with slots := slots }
  unfold run at hrun
  rcases hdocument : ((document r naming d).run).run { empty with slots := slots } with ⟨answer, state⟩
  rw [hdocument] at hrun
  cases answer with
  | ok done => cases hrun
  | error e =>
    cases hrun
    exact hyields.failure hdocument u rfl

/-- A document whose references all lead to nodes, by a parameter, a response and schemas, but whose discriminator has a
tag for a component that is missing. -/
def taggedDocument : Document :=
  ⟨⟨"", "", none⟩, .mapping [
    (.text "paths", .mapping [(.text "/pets", .mapping [(.text "get", .mapping [
      (.text "parameters", .sequence [.mapping [(.text "$ref", .text "#/components/parameters/Limit")]]),
      (.text "responses", .mapping [(.int 200, .mapping [(.text "$ref", .text "#/components/responses/Pets")])])])])]),
    (.text "components", .mapping [
      (.text "parameters", .mapping [(.text "Limit", .mapping [(.text "name", .text "limit"), (.text "in", .text "query"),
        (.text "schema", .mapping [(.text "type", .text "integer")])])]),
      (.text "responses", .mapping [(.text "Pets", .mapping [(.text "content", .mapping [
        (.text "application/json", .mapping [(.text "schema", .mapping [
          (.text "$ref", .text "#/components/schemas/Pet")])])])])]),
      (.text "schemas", .mapping [
        (.text "Pet", .mapping [
          (.text "oneOf", .sequence [.mapping [(.text "$ref", .text "#/components/schemas/Cat")]]),
          (.text "discriminator", .mapping [(.text "propertyName", .text "kind"),
            (.text "mapping", .mapping [(.text "cat", .text "Cat"), (.text "dog", .text "Dog")])])]),
        (.text "Cat", .mapping [(.text "type", .text "object")])])])]⟩

/-- Both stages fail for the tag, which the document has. -/
theorem checked_unresolved_taggedDocument :
    let r := ((Resolver.new taggedDocument.root).checkAll).2
    let missing : Unresolved := ⟨"#/components/schemas/Dog", "#/components/schemas/Pet/discriminator", .missing⟩
    (∃ slots, (components r taggedDocument).run.run [] = (.error (.unresolved missing), slots)) ∧
      Extraction.run r .path taggedDocument [] = .error (.unresolved missing) ∧
      taggedDocument.root.Tags "#/components/schemas/Dog" := by
  intro r missing
  have hcheck : (Resolver.new taggedDocument.root).checkAll = (.ok 4, r) := rfl
  have hrun : (components r taggedDocument).run.run [] =
    (.error (.unresolved missing), ((components r taggedDocument).run.run []).2) := rfl
  have hextract : Extraction.run r .path taggedDocument [] = .error (.unresolved missing) := rfl
  have h := checked_unresolved (d := taggedDocument) (by decide +kernel) hcheck .path
  exact ⟨⟨_, hrun⟩, hextract, h.2.1 missing _ hrun⟩

end Extraction

end ContractBindings
