import ContractBindings.Proofs.Document.Parts
import ContractBindings.Proofs.Operation.Extracted
import ContractBindings.Proofs.Schema.Walks

/-!
# The schemas of extracted operations

Every schema that extraction interprets is a part of the document: it follows entries of the document, and references to
nodes of it. So a property of nodes that the interpretation of every part has, while it keeps a property of the
definitions, is one of all schemas of the extracted operations (`document_satisfies`).
-/

namespace ContractBindings

open Interpretation

/-- Interpretation of the parts of a document keeps a property of the definitions, and gives nodes with a property. -/
structure Resolver.Grants (r : Resolver) (root : Tree) (I : Slots → Prop) (N : SchemaNode → Prop) : Prop where
  serves : r.Serves root
  visit : ∀ tree id, tree.PartOf root → Keeps I (Interpretation.visit r tree id) N
  unknown : ∀ id, N (SchemaNode.unknown id)

namespace Extraction

variable {root : Tree} {r : Resolver} {I : Slots → Prop} {N : SchemaNode → Prop} {unit : String}

/-- The definitions so far have a property, and the schemas of the operations one. -/
structure Satisfies (I : Slots → Prop) (N : SchemaNode → Prop) (s : Extraction) : Prop where
  slots : I s.slots
  operations : ∀ o ∈ s.operations, ∀ n ∈ o.schemas, N n

/-- The schemas of the parts of an operation have a property. -/
structure Parts.All (N : SchemaNode → Prop) (parts : Parts) : Prop where
  parameters : ∀ p ∈ parts.parameters, N p.schema
  requestBody : ∀ b ∈ parts.requestBody, N b.schema
  responses : ∀ p ∈ parts.responses, ∀ n ∈ p.2.schema, N n

/-- The schemas of an operation are those of its parts. -/
theorem Parts.All.schemas {parts : Parts} (h : parts.All N) {id path : String} {method : Method}
    {summary description : Option String} {deprecated : Bool} :
    ∀ n ∈ Operation.schemas ⟨id, method, path, summary, description, deprecated, parts.parameters, parts.requestBody,
      parts.responses⟩, N n := by
  intro n hn
  rcases List.mem_append.1 hn with hn | hn
  · rcases List.mem_append.1 hn with hn | hn
    · obtain ⟨p, hp, rfl⟩ := List.mem_map.1 hn
      exact h.parameters p hp
    · obtain ⟨b, hb, rfl⟩ := List.mem_map.1 hn
      exact h.requestBody b (Option.mem_toList.1 hb)
  · obtain ⟨p, hp, hschema⟩ := List.mem_filterMap.1 hn
    exact h.responses p hp n hschema

/-! ## Parts of the document -/

/-- The schema of the media type that is used is a part of the entry. -/
theorem partOf_of_media {entry tree : Tree} {type : String} (h : media? entry = some (type, tree)) : tree.PartOf entry := by
  obtain ⟨content, hcontent, hpick⟩ := Option.bind_eq_some_iff.1 h
  obtain ⟨holder, hholder, hmapping⟩ := Option.bind_eq_some_iff.1 hcontent
  have hvalue {key value : Tree} (hmem : (key, value) ∈ content) : value.PartOf entry :=
    (Tree.partOf_of_mem_mapping hmapping hmem).1.trans (Tree.partOf_of_get? hholder)
  unfold pickMedia at hpick
  split at hpick
  · next schema hschema =>
    cases hpick
    obtain ⟨media, hmedia, hschema⟩ := Option.bind_eq_some_iff.1 hschema
    exact (Tree.partOf_of_get? hschema).trans (hvalue (Tree.mem_of_get? hmedia))
  · obtain ⟨⟨key, media⟩, hmem, hfound⟩ := List.exists_of_findSome?_eq_some hpick
    obtain ⟨name, -, hfound⟩ := Option.bind_eq_some_iff.1 hfound
    obtain ⟨schema, hschema, hfound⟩ := Option.bind_eq_some_iff.1 hfound
    cases hfound
    exact (Tree.partOf_of_get? hschema).trans (hvalue hmem)

/-! ## Building an operation -/

theorem record_satisfies (rule : RecordRule) (pointer : String) (tree : Tree) :
    Keeps (Satisfies I N) (record rule pointer tree) fun _ => True := by
  unfold record
  split
  · exact .pure trivial
  · exact .throw _

variable (h : r.Grants root I N)

include h

theorem schema_satisfies {tree : Tree} (htree : tree.PartOf root) (pointer : String) :
    Keeps (Satisfies I N) (schema r unit tree pointer) N := by
  intro s hs
  have hvisit := h.visit tree ⟨pointer⟩ htree s.slots hs.slots
  unfold schema
  refine ends_bind.2 (ends_get.2 ?_)
  rcases hrun : ((visit r tree ⟨pointer⟩).run).run s.slots with ⟨answer, slots⟩
  refine ends_bind.2 (ends_set.2 ?_)
  cases answer with
  | ok node => exact ends_pure.2 ⟨⟨(hvisit.answer hrun).1, hs.operations⟩, (hvisit.answer hrun).2⟩
  | error e =>
    have hafter : Satisfies I N { s with slots := slots } := ⟨hvisit.failure hrun, hs.operations⟩
    cases e with
    | schema err => exact ends_throw.2 hafter
    | unresolved u => exact ends_throw.2 hafter
    | tooDeep => exact ends_throw.2 hafter

/-- What an entry stands for is a part of the document. -/
theorem follow_satisfies {entry : Tree} (hentry : entry.PartOf root) (pointer : String) :
    Keeps (Satisfies I N) (follow r entry pointer) fun place => place.2.PartOf root := by
  unfold follow
  split
  · split
    · next found hfound => exact .pure (h.serves.partOf hfound)
    · exact .throw _
  · exact .pure hentry

theorem parameter_satisfies {entry : Tree} (hentry : entry.PartOf root) (pointer : String) :
    Keeps (Satisfies I N) (parameter r unit entry pointer) fun p => N p.schema := by
  unfold parameter
  refine (follow_satisfies h hentry pointer).bind fun (pointer, entry) hentry => ?_
  dsimp only at hentry ⊢
  split
  · exact .throw _
  · split
    · exact .throw _
    · split
      · next tree htree =>
        exact (schema_satisfies h ((Tree.partOf_of_get? htree).trans hentry) _).bind fun n hn => .pure hn
      · next tree _ hmedia =>
        exact (schema_satisfies h ((partOf_of_media hmedia).trans hentry) _).bind fun n hn => .pure hn
      · exact .pure (h.unknown _)

theorem parameterList_satisfies (base : String) {before : List Parameter} (hbefore : ∀ p ∈ before, N p.schema)
    {tree : Option Tree} (htree : ∀ list ∈ tree, list.PartOf root) :
    Keeps (Satisfies I N) (parameterList r unit base before tree) fun parameters => ∀ p ∈ parameters, N p.schema := by
  cases tree with
  | none => exact .pure hbefore
  | some tree =>
    rw [parameterList]
    split
    · exact .throw _
    · next items hitems =>
      refine .foldlM _ (fun c hc merged hmerged => ?_) before hbefore
      have hentry : c.2.PartOf root := (Tree.partOf_of_mem_sequence hitems (mem_of_indexed hc)).1.trans (htree tree rfl)
      refine (parameter_satisfies h hentry _).bind fun p hp => .pure fun q hq => ?_
      rcases Builds.mem_mergeParameter hq with rfl | hq
      · exact hp
      · exact hmerged q hq

theorem requestBody_satisfies {entry : Tree} (hentry : entry.PartOf root) (pointer : String) :
    Keeps (Satisfies I N) (requestBody r unit pointer entry) fun body => ∀ b ∈ body, N b.schema := by
  unfold requestBody
  refine (follow_satisfies h hentry _).bind fun (pointer, entry) hentry => ?_
  refine (record_satisfies _ _ _).after fun record => ?_
  split
  · exact .pure (by simp)
  · next hmedia =>
    refine (schema_satisfies h ((partOf_of_media hmedia).trans hentry) _).bind fun n hn => .pure ?_
    rintro b ⟨⟩
    exact hn

theorem response_satisfies {entry : Tree} (hentry : entry.PartOf root) (pointer : String) :
    Keeps (Satisfies I N) (response r unit entry pointer) fun response => ∀ n ∈ response.schema, N n := by
  unfold response
  refine (follow_satisfies h hentry _).bind fun (pointer, entry) hentry => ?_
  refine (record_satisfies _ _ _).after fun record => ?_
  split
  · next hmedia =>
    refine (schema_satisfies h ((partOf_of_media hmedia).trans hentry) _).bind fun n hn => .pure ?_
    rintro m ⟨⟩
    exact hn
  · exact .pure (by simp)

theorem responses_satisfies (base : String) {entries : Entries} (hentries : ∀ c ∈ entries, c.2.PartOf root) :
    Keeps (Satisfies I N) (responses r unit base entries) fun responses => ∀ p ∈ responses, ∀ n ∈ p.2.schema, N n := by
  unfold responses
  refine .foldlM entries (fun c hc before hbefore => ?_) [] (by simp)
  obtain ⟨key, entry⟩ := c
  dsimp only
  split
  · exact .pure hbefore
  · refine (response_satisfies h (hentries _ hc) _).bind fun declared hdeclared => ?_
    have hput (status : String) : ∀ p ∈ upsert before status declared, ∀ n ∈ p.2.schema, N n := by
      intro p hp
      rcases eq_or_mem_of_mem_upsert hp with rfl | hp
      · exact hdeclared
      · exact hbefore p hp
    split
    · exact Keeps.after (.modify fun _ hs => ⟨hs.slots, hs.operations⟩) fun _ => .pure (hput _)
    · exact .pure (hput _)

/-- Declared responses are built, and the parts of the operation are put together. -/
theorem withResponses_satisfies (pointer : String) {tree : Tree} {node : Entries} (htree : tree.PartOf root)
    (hnode : tree.asMapping? = some node) {parameters : List Parameter} (hparameters : ∀ p ∈ parameters, N p.schema)
    {body : Option RequestBody} (hbody : ∀ b ∈ body, N b.schema) :
    Keeps (Satisfies I N) (withResponses r unit pointer node parameters body) (Parts.All N) := by
  unfold withResponses
  split
  · next declared hdeclared =>
    have hholder := (Tree.partOf_of_mem_mapping hnode (Tree.mem_of_get? hdeclared)).1.trans htree
    have hentry : ∀ c ∈ declared, c.2.PartOf (.mapping declared) := fun c hc => (Tree.partOf_of_mem_mapping rfl hc).1
    refine (responses_satisfies h _ fun c hc => (hentry c hc).trans hholder).bind fun responses hresponses => ?_
    exact .pure ⟨hparameters, hbody, hresponses⟩
  · exact .pure ⟨hparameters, hbody, by simp⟩
  · exact .pure ⟨hparameters, hbody, by simp⟩
  · exact .throw _

theorem parts_satisfies (pointer pathPointer : String) {tree : Tree} {node : Entries} {shared : Option Tree}
    (htree : tree.PartOf root) (hnode : tree.asMapping? = some node) (hshared : ∀ list ∈ shared, list.PartOf root) :
    Keeps (Satisfies I N) (parts r unit pointer pathPointer node shared) (Parts.All N) := by
  have hget {key : String} {value : Tree} (hvalue : node.get? key = some value) : value.PartOf root :=
    (Tree.partOf_of_mem_mapping hnode (Tree.mem_of_get? hvalue)).1.trans htree
  unfold parts
  refine (parameterList_satisfies h _ (by simp) hshared).bind fun first hfirst => ?_
  refine (parameterList_satisfies h _ hfirst fun list hlist => hget hlist).bind fun parameters hparameters => ?_
  cases hentry : node.get? "requestBody" with
  | some entry =>
    refine (requestBody_satisfies h (hget hentry) _).bind fun body hbody => ?_
    exact withResponses_satisfies h pointer htree hnode hparameters hbody
  | none =>
    have hnone : Keeps (Satisfies I N) (pure none : Build (Option RequestBody)) fun body => ∀ b ∈ body, N b.schema :=
      .pure (by simp)
    exact hnone.bind fun body hbody => withResponses_satisfies h pointer htree hnode hparameters hbody

/-! ## The operations of a document -/

omit h in
/-- The entries of `paths` are parts of the document, and so are the parameters of their paths. -/
theorem partOf_of_mem_entries {d : Document} {entry : OperationEntry} (hentry : entry ∈ d.entries) :
    entry.tree.PartOf d.root ∧ ∀ list ∈ entry.shared, list.PartOf d.root := by
  obtain ⟨⟨key, item⟩, hitem, hentry⟩ := List.mem_flatMap.1 hentry
  have hpart : item.PartOf d.root := by
    cases hpaths : d.paths? with
    | none =>
      rw [hpaths] at hitem
      cases hitem
    | some paths =>
      rw [hpaths] at hitem
      obtain ⟨holder, hholder, hmapping⟩ := Option.bind_eq_some_iff.1 hpaths
      exact (Tree.partOf_of_mem_mapping hmapping hitem).1.trans (Tree.partOf_of_get? hholder)
  cases item with
  | mapping entries =>
    have hinside {name tree : Tree} (hmem : (name, tree) ∈ entries) : tree.PartOf d.root := by
      have hvalue : tree.PartOf (.mapping entries) := (Tree.partOf_of_mem_mapping rfl hmem).1
      exact hvalue.trans hpart
    obtain ⟨⟨name, tree⟩, hmem, hread⟩ := List.mem_filterMap.1 hentry
    obtain ⟨path, -, hread⟩ := Option.bind_eq_some_iff.1 hread
    obtain ⟨method, -, hread⟩ := Option.bind_eq_some_iff.1 hread
    cases hread
    exact ⟨hinside hmem, fun list hlist => hinside (Tree.mem_of_get? hlist)⟩
  | _ => cases hentry

/-- A step puts an operation whose schemas have the property behind those before, or changes no operation. -/
theorem Step.satisfies {naming : OperationNaming} {entry : OperationEntry} {s s' : Extraction}
    (hstep : Step r naming entry s s') (htree : entry.tree.PartOf root) (hshared : ∀ list ∈ entry.shared, list.PartOf root)
    (hs : Satisfies I N s) : Satisfies I N s' := by
  have hstart : Satisfies I N (entry.labelled naming s) := ⟨hs.slots, hs.operations⟩
  cases hstep with
  | built hholds _ hrun hs' =>
    obtain ⟨ht, hparts⟩ := (parts_satisfies h _ _ htree hholds.mapping hshared _ hstart).answer hrun
    subst hs'
    exact ⟨ht.slots, List.forall_mem_append.2 ⟨ht.operations, List.forall_mem_singleton.2 hparts.schemas⟩⟩
  | left hholds _ hrun hs' =>
    have ht := (parts_satisfies h _ _ htree hholds.mapping hshared _ hstart).failure hrun
    subst hs'
    exact ⟨ht.slots, ht.operations⟩

omit h in
/-- The schemas of the operations of a document have the property that the interpretation of its parts grants. -/
theorem document_satisfies {d : Document} (h : r.Grants d.root I N) (naming : OperationNaming) :
    Preserves (Satisfies I N) (document r naming d) :=
  document_preserves fun _ hentry _ _ hs hstep =>
    hstep.satisfies h (partOf_of_mem_entries hentry).1 (partOf_of_mem_entries hentry).2 hs

end Extraction

end ContractBindings
