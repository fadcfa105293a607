import ContractBindings.Proofs.Schema.Confined
import ContractBindings.Proofs.Schema.Merging
import ContractBindings.Proofs.Schema.Relays

/-!
# Keywords beside the parts of a composition

A composition that becomes one object has the fields of its parts and of the properties beside them, and no others
(`node_allOf`). The names that it requires are those that a part requires; a list of required names beside the parts counts
only if there are properties beside them, too (`alone_required_lost`).
-/

namespace ContractBindings

namespace Composition

/-- Parts amount to something only if all of them are objects. -/
theorem objects_of_addParts {schema : SchemaId} : ∀ {parts : List (Option Shape)} {m result : Merged},
    addParts schema m parts = .ok (some result) → ∀ part ∈ parts, ∃ o : Merged, part = some o.shape
  | [], _, _, _ => List.forall_mem_nil _
  | none :: _, _, _, h => by
    rw [addParts.eq_3 _ _ _ _ (by simp)] at h
    cases h
  | some shape :: rest, m, result, h => by
    cases shape with
    | object fields required additional =>
      rw [addParts] at h
      cases hfields : addFields schema m.fields fields with
      | error e =>
        rw [hfields] at h
        cases h
      | ok fields' =>
        rw [hfields] at h
        exact List.forall_mem_cons.2 ⟨⟨⟨fields, required, additional⟩, rfl⟩, objects_of_addParts h⟩
    | _ => cases h

theorem Merged.Joins.mem_names {m : Merged} {objects : List Merged} (h : m.Joins objects) (name : String) :
    name ∈ m.fields.map (·.1) ↔ ∃ o ∈ objects, name ∈ o.fields.map (·.1) := by
  rw [h.fields.names, List.mem_eraseDups, List.map_flatMap, List.mem_flatMap]

end Composition

namespace Interpretation

open ContractBindings.Composition

variable {r : Resolver} {visit : Visit} {entries : Entries} {id : SchemaId} {parts : List Tree} {s s' : Slots}

/-- The names of the properties of a schema. -/
def propertyNames (entries : Entries) : List String :=
  (((entries.get? "properties").bind Tree.asMapping?).getD []).filterMap (·.1.keyText?)

/-- A node is read off a tree, at some depth and with some definitions open. -/
def Reads (r : Resolver) (tree : Tree) (id : SchemaId) (n : SchemaNode) : Prop :=
  ∃ depth s s', (node r depth tree id).run.run s = (.ok n, s')

theorem ends_node_reads (depth : Nat) (tree : Tree) (id : SchemaId) (s : Slots) :
    Ends (node r depth tree id) s (fun n _ => Reads r tree id n) fun _ _ => True := by
  unfold Ends
  split
  · next n s' hrun => exact ⟨depth, s, s', hrun⟩
  · exact True.intro

/-! ## The object beside the parts -/

/-- The object has the declared properties and the required names of a schema. -/
structure Declares (entries : Entries) (o : Merged) : Prop where
  names : ∀ name, name ∈ o.fields.map (·.1) ↔ name ∈ propertyNames entries
  required : o.required = requiredNames entries

/-- Adding properties in a row adds the names of those that have one. -/
theorem foldlM_names (visit : Visit) (id : SchemaId) : ∀ (properties : Entries) (before : List (String × SchemaNode)),
    Yields (properties.foldlM (fun (fields : List (String × SchemaNode)) (key, tree) => do
        match key.keyText? with
        | some name => return upsert fields name (← visit tree (id.child name))
        | none => return fields) before)
      (fun fields => ∀ name, name ∈ fields.map (·.1) ↔
        name ∈ before.map (·.1) ∨ name ∈ properties.filterMap (·.1.keyText?)) fun _ => True := by
  intro properties
  induction properties with
  | nil => exact fun before => .pure fun name => by simp
  | cons c properties ih =>
    intro before
    obtain ⟨key, tree⟩ := c
    rw [List.foldlM_cons, List.filterMap_cons]
    dsimp only
    cases hkey : key.keyText? with
    | none =>
      rw [pure_bind]
      exact ih before
    | some added =>
      rw [bind_assoc]
      refine .after .trivial fun n => ?_
      rw [pure_bind]
      refine fun s => (ih (upsert before added n) s).mono (fun fields _ h name => ?_) fun _ _ h => h
      rw [h name, mem_keys_upsert, List.mem_cons, or_assoc]

theorem fields_names (visit : Visit) (properties : Entries) (id : SchemaId) :
    Yields (fields visit properties id)
      (fun fields => ∀ name, name ∈ fields.map (·.1) ↔ name ∈ properties.filterMap (·.1.keyText?)) fun _ => True :=
  fun s => (foldlM_names visit id properties [] s).mono (fun fields _ h name => by simpa using h name) fun _ _ h => h

theorem object_declares (visit : Visit) (entries : Entries) (id : SchemaId) :
    Yields (object visit entries id) (fun shape => ∃ o : Merged, shape = o.shape ∧ Declares entries o) fun _ => True := by
  unfold object
  refine .bind (fields_names visit _ _) fun fields hnames => ?_
  have hrest (additional : Option SchemaNode) :
      Yields (pure (.object fields (requiredNames entries) additional) : Interpretation Shape)
        (fun shape => ∃ o : Merged, shape = o.shape ∧ Declares entries o) fun _ => True :=
    .pure ⟨⟨fields, requiredNames entries, additional⟩, rfl, hnames, rfl⟩
  -- whatever is said of other properties
  dsimp only
  split <;> exact .after .trivial hrest

/-- What stands beside the parts: an object where there are properties. -/
def Beside (entries : Entries) (siblings : List SchemaNode) : Prop :=
  if entries.hasKey "properties" then ∃ (m : SchemaNode) (o : Merged), siblings = [m] ∧ m.shape = o.shape ∧ Declares entries o
  else siblings = []

/-! ## The parts -/

/-- A composition that becomes one object joins its parts and what stands beside them. -/
def Joined (r : Resolver) (entries : Entries) (id : SchemaId) (parts : List Tree) (o : Merged) (s : Slots) : Prop :=
  ∃ nodes siblings, List.Forall₂ (fun p n => Reads r p.2 ((id.child "allOf").child (toString p.1)) n) (indexed parts) nodes ∧
    Beside entries siblings ∧ (∀ part ∈ nodes ++ siblings, (partObject? s part).isSome) ∧
    o.Joins (partObjects s (nodes ++ siblings))

theorem composedParts_reads (r : Resolver) (depth : Nat) (entries : Entries) (id : SchemaId) (parts : List Tree)
    (s : Slots) : Ends (composedParts (node r depth) entries id parts) s
      (fun all _ => ∃ nodes siblings, all = nodes ++ siblings ∧
        List.Forall₂ (fun p n => Reads r p.2 ((id.child "allOf").child (toString p.1)) n) (indexed parts) nodes ∧
        Beside entries siblings) fun _ _ => True := by
  unfold composedParts
  refine ends_bind.2 ((ends_mapM (indexed parts) (fun p _ => ends_node_reads depth p.2 _) s).mono
    (fun nodes s' hnodes => ?_) fun _ _ _ => True.intro)
  by_cases hproperties : entries.hasKey "properties" = true
  · simp only [hproperties, ↓reduceIte, pure_bind]
    refine ends_bind.2 ((object_declares _ entries id s').mono (fun shape s'' hshape => ends_pure.2 ?_) fun _ _ h => h)
    obtain ⟨o, hshape, ho⟩ := hshape
    refine ⟨nodes, _, rfl, hnodes, ?_⟩
    rw [Beside, if_pos hproperties]
    exact ⟨_, o, rfl, hshape, ho⟩
  · simp only [hproperties, ↓reduceIte, pure_bind, Bool.false_eq_true]
    exact ends_pure.2 ⟨nodes, [], rfl, hnodes, by rw [Beside, if_neg hproperties]⟩

theorem partObject_of_partShape {part : SchemaNode} {o : Merged} (h : partShape? s part = some o.shape) :
    partObject? s part = some o := by
  rw [partObject?, h]
  exact Shape.object?_eq_some_iff.2 rfl

/-- Parts that become one object are objects, which it joins. -/
theorem joins_of_flattened {all : List SchemaNode} {answer : Option Shape} {o : Merged}
    (h : flatten id (all.map (partShape? s)) = .ok answer) (ho : (answer.getD (.intersection all)).object? = some o) :
    (∀ part ∈ all, (partObject? s part).isSome) ∧ o.Joins (partObjects s all) := by
  cases answer with
  | none => cases ho
  | some shape =>
    have hobjects : ∀ part ∈ all, (partObject? s part).isSome := by
      intro part hpart
      rw [flatten] at h
      cases hparts : addParts id Merged.empty (all.map (partShape? s)) with
      | error e =>
        rw [hparts] at h
        cases h
      | ok merged =>
        rw [hparts] at h
        obtain ⟨m, rfl, -⟩ := Option.map_eq_some_iff.1 (Except.ok.inj h)
        obtain ⟨q, hq⟩ := objects_of_addParts hparts _ (List.mem_map_of_mem hpart)
        rw [partObject_of_partShape hq]
        rfl
    refine ⟨hobjects, ?_⟩
    rw [partShapes_eq hobjects] at h
    obtain ⟨m, hm, hjoins⟩ := joins_of_flatten h
    have hom : o.shape = m.shape := (Shape.object?_eq_some_iff.1 ho).symm.trans (Option.some.inj hm)
    obtain rfl : o = m := by
      obtain ⟨fields, required, additional⟩ := o
      cases hom
      rfl
    exact hjoins

theorem composition_joined (r : Resolver) (depth : Nat) (entries : Entries) (id : SchemaId) (parts : List Tree)
    (s : Slots) : Ends (composition (node r depth) entries id parts) s
      (fun shape s' => ∀ o, shape.object? = some o → Joined r entries id parts o s') fun _ _ => True := by
  rw [composition_eq]
  refine ends_bind.2 ((composedParts_reads r depth entries id parts s).mono (fun all s' hall => ?_) fun _ _ h => h)
  obtain ⟨nodes, siblings, rfl, hnodes, hsiblings⟩ := hall
  refine ends_flattened.2 ⟨fun answer hanswer o ho => ?_, fun _ _ => True.intro⟩
  obtain ⟨hobjects, hjoins⟩ := joins_of_flattened hanswer ho
  exact ⟨nodes, siblings, hnodes, hsiblings, hobjects, hjoins⟩

/-! ## Nodes -/

theorem node_joined {depth : Nat} {tree : Tree} {n : SchemaNode} {o : Merged} (hentries : tree.asMapping? = some entries)
    (hvalues : declaredValues? entries = none) (hbranches : branches? entries = none)
    (hparts : sequence? entries "allOf" = some parts) (hrun : (node r depth tree id).run.run s = (.ok n, s'))
    (ho : n.shape.object? = some o) : Joined r entries id parts o s' := by
  cases depth with
  | zero => cases hrun
  | succ depth =>
    have hnode : Ends (node r (depth + 1) tree id) s
        (fun n s' => ∀ o, n.shape.object? = some o → Joined r entries id parts o s') fun _ _ => True := by
      rw [node, level]
      simp only [hentries, shape, hvalues, hbranches, hparts, bind_assoc, pure_bind]
      exact ends_bind.2 ((composition_joined r depth entries id parts s).mono (fun _ _ h => ends_pure.2 h) fun _ _ h => h)
    exact hnode.answer hrun o ho

/-- What a composition in one object is made of. Its fields are those of its parts and the properties beside them, and it
requires what its parts require and, where there are properties beside the parts, the names that are required beside
them. -/
theorem node_allOf {depth : Nat} {tree : Tree} {n : SchemaNode} {o : Merged} (hentries : tree.asMapping? = some entries)
    (hvalues : declaredValues? entries = none) (hbranches : branches? entries = none)
    (hparts : sequence? entries "allOf" = some parts) (hrun : (node r depth tree id).run.run s = (.ok n, s'))
    (ho : n.shape.object? = some o) :
    ∃ nodes : List SchemaNode,
      List.Forall₂ (fun p n => Reads r p.2 ((id.child "allOf").child (toString p.1)) n) (indexed parts) nodes ∧
      (∀ part ∈ nodes, (partObject? s' part).isSome) ∧
      (∀ name, name ∈ o.fields.map (·.1) ↔
        (∃ q ∈ partObjects s' nodes, name ∈ q.fields.map (·.1)) ∨ name ∈ propertyNames entries) ∧
      ∀ name, name ∈ o.required ↔
        (∃ q ∈ partObjects s' nodes, name ∈ q.required) ∨
          entries.hasKey "properties" = true ∧ name ∈ requiredNames entries := by
  obtain ⟨nodes, siblings, hnodes, hsiblings, hobjects, hjoins⟩ :=
    node_joined hentries hvalues hbranches hparts hrun ho
  refine ⟨nodes, hnodes, fun part hpart => hobjects part (List.mem_append_left _ hpart), ?_⟩
  have hsplit : partObjects s' (nodes ++ siblings) = partObjects s' nodes ++ partObjects s' siblings := List.filterMap_append
  rw [Beside] at hsiblings
  split at hsiblings
  · next hproperties =>
    obtain ⟨m, own, rfl, hm, hown⟩ := hsiblings
    have hobject : partObject? s' m = some own := partObject_of_partShape (by rw [partShape?, hm]; rfl)
    have hall : partObjects s' (nodes ++ [m]) = partObjects s' nodes ++ [own] := by
      rw [hsplit]
      simp [partObjects, hobject]
    refine ⟨fun name => ?_, fun name => ?_⟩
    · simp only [hjoins.mem_names, hall, List.mem_append, List.mem_singleton, or_and_right, exists_or, exists_eq_left,
        hown.names]
    · simp only [hjoins.required, hall, List.mem_append, List.mem_singleton, or_and_right, exists_or, exists_eq_left,
        hown.required, hproperties, true_and]
  · next hproperties =>
    subst hsiblings
    have hnames : propertyNames entries = [] := by
      have hget : entries.get? "properties" = none := by simpa [Entries.hasKey] using hproperties
      rw [propertyNames, hget]
      rfl
    rw [List.append_nil] at hjoins
    refine ⟨fun name => ?_, fun name => ?_⟩
    · simp [hjoins.mem_names, hnames]
    · simp [hjoins.required, hproperties]

/-- A composition of a reference and of a schema in its place, with properties and required names beside them. -/
def composedSchema : Tree :=
  .mapping [(.text "allOf", .sequence [.mapping [(.text "$ref", .text "#/components/schemas/P")],
      .mapping [(.text "properties", .mapping [(.text "y", .mapping [])]), (.text "required", .sequence [.text "y"])]]),
    (.text "properties", .mapping [(.text "z", .mapping [])]), (.text "required", .sequence [.text "z", .text "w"])]

/-- A document with the composition, and with the object that it refers to. -/
def composedDocument : Document :=
  ⟨⟨"", "", none⟩, .mapping [(.text "components", .mapping [(.text "schemas", .mapping [(.text "A", composedSchema),
    (.text "P", .mapping [(.text "properties", .mapping [(.text "x", .mapping [])]),
      (.text "required", .sequence [.text "x"])])])])]⟩

theorem node_allOf_composedDocument : ∃ n o s', (node (.new composedDocument.root) 5 composedSchema
      ⟨"#/components/schemas/A"⟩).run.run [] = (.ok n, s') ∧ n.shape.object? = some o ∧
    o.fields.map (·.1) = ["x", "y", "z"] ∧ o.required = ["w", "x", "y", "z"] ∧
    ∃ nodes : List SchemaNode, nodes.length = 2 ∧
      ∀ name, name ∈ o.required ↔ (∃ q ∈ partObjects s' nodes, name ∈ q.required) ∨ name ∈ ["w", "z"] := by
  have hrun : (((node (.new composedDocument.root) 5 composedSchema ⟨"#/components/schemas/A"⟩).run.run
      []).1.toOption.bind fun n => n.shape.object?.map fun o => (o.fields.map (·.1), o.required)) =
      some (["x", "y", "z"], ["w", "x", "y", "z"]) := by
    decide +kernel
  simp only [Option.bind_eq_some_iff, Option.map_eq_some_iff, Prod.mk.injEq] at hrun
  obtain ⟨n, hn, o, ho, hnames, hrequired⟩ := hrun
  obtain ⟨nodes, hnodes, -, -, hjoined⟩ := node_allOf rfl rfl rfl rfl (Prod.ext (ok_of_toOption hn) rfl) ho
  refine ⟨n, o, _, Prod.ext (ok_of_toOption hn) rfl, ho, hnames, hrequired, nodes, hnodes.length_eq.symm, fun name => ?_⟩
  exact (hjoined name).trans (or_congr_right (and_iff_right rfl))

/-- The text of a contract with a composition beside which there are required names, but no properties. -/
def aloneText : String :=
  "\x7b\"components\":\x7b\"schemas\":\x7b\"A\":\x7b\"allOf\":[\x7b\"properties\":\x7b\"x\":\x7b\"type\":" ++
    "\"string\"\x7d\x7d\x7d],\"required\":[\"x\"]\x7d\x7d\x7d\x7d"

/-- The composition becomes one object with the field that is required beside its part, but does not require it. -/
theorem alone_required_lost : ∃ d tree entries n o s', Document.load aloneText .json = .ok d ∧
    d.tree? ⟨"#/components/schemas/A"⟩ = some tree ∧ tree.asMapping? = some entries ∧
    (Interpretation.visit (.new d.root) tree ⟨"#/components/schemas/A"⟩).run.run [] = (.ok n, s') ∧
    n.shape.object? = some o ∧ "x" ∈ requiredNames entries ∧ "x" ∈ o.fields.map (·.1) ∧ "x" ∉ o.required := by
  have hrun : ((Document.load aloneText .json).toOption.bind fun d => (d.tree? ⟨"#/components/schemas/A"⟩).bind fun tree =>
      tree.asMapping?.bind fun entries =>
        ((Interpretation.visit (.new d.root) tree ⟨"#/components/schemas/A"⟩).run.run []).1.toOption.bind fun n =>
          n.shape.object?.map fun o => (requiredNames entries, o.fields.map (·.1), o.required)) =
      some (["x"], ["x"], []) := by
    decide +kernel
  simp only [Option.bind_eq_some_iff, Option.map_eq_some_iff, Prod.mk.injEq] at hrun
  obtain ⟨d, hd, tree, htree, entries, hentries, n, hn, o, ho, hnames, hfields, hrequired⟩ := hrun
  refine ⟨d, tree, entries, n, o, _, ok_of_toOption hd, htree, hentries, Prod.ext (ok_of_toOption hn) rfl, ho, ?_, ?_, ?_⟩
  · simp [hnames]
  · simp [hfields]
  · simp [hrequired]

end Interpretation

end ContractBindings
