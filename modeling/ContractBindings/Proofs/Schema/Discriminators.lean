import Mathlib.Data.List.Forall2
import ContractBindings.Proofs.Schema.Calls
import ContractBindings.Proofs.Schema.Referring

/-!
# Where unions with a discriminator come from

A union with a discriminator is declared by a schema of the document (`DeclaresUnion`): its branches are those of the
schema that allow more than null, each at a place of its own, and its tags are what the entries of the mapping select, put
under the schemas in order, so that a later entry for a schema replaces an earlier one. Nothing that interpretation does
with shapes makes such a union or changes one: a composition takes over the fields of its parts as they are, and a
single branch beside null is taken as it is. So whatever is interpreted, every union with a discriminator in it is declared
(`visit_declared`).
-/

namespace ContractBindings

open Interpretation

/-! ## What a schema declares -/

namespace Interpretation

/-- The property of the discriminator that a schema declares, and the entries of its mapping. -/
def declaredDiscriminator? (entries : Entries) : Option (String × Entries) :=
  (entries.get? "discriminator").bind fun tree =>
    match tree.asText? with
    | some property => some (property, [])
    | none => ((tree.get? "propertyName").bind Tree.asText?).map fun property =>
      (property, ((tree.get? "mapping").bind Tree.asMapping?).getD [])

/-- What an entry of a mapping says in a document: the schema that it names, and the tag for it. -/
def selection? (root : Tree) (holder : SchemaId) (entry : Tree × Tree) : Option (SchemaId × String) :=
  match entry.1.keyText?, entry.2.asText? with
  | some tag, some target =>
    (Reference.resolve root (tagReference target) holder.pointer).toOption.map fun found => (⟨found.pointer⟩, tag)
  | _, _ => none

/-- The tags that selections leave: each is put under its schema, in order. -/
def tagsOf (selections : List (SchemaId × String)) : List (SchemaId × String) :=
  selections.foldl (fun tags selection => upsert tags selection.1 selection.2) []

/-- A branch is the node of a tree at a place. Where it refers to a definition and does not allow null, the definition is
the one that the reference of the tree leads to. -/
structure BranchOf (root : Tree) (place : SchemaId) (tree : Tree) (branch : SchemaNode) : Prop where
  id_eq : branch.id = place
  leads : ∀ target, branch.shape = .reference target → branch.nullable = false → ∃ text found,
    (tree.get? "$ref").bind Tree.asText? = some text ∧ Reference.resolve root text place.pointer = .ok found ∧
      target = ⟨found.pointer⟩

/-- A schema of a document declares a union with the given branches and a discriminator with the given property, and the
entries of its mapping select the given schemas for tags. -/
structure DeclaresUnion (root tree : Tree) (id : SchemaId) (branches : List SchemaNode) (property : String)
    (selections : List (SchemaId × String)) : Prop where
  partOf : tree.PartOf root
  branches : ∃ entries key trees, tree.asMapping? = some entries ∧ branches? entries = some (key, trees) ∧
    List.Forall₂ (fun p branch => BranchOf root ((id.child key).child (toString p.1)) p.2 branch)
      ((indexed trees).filter fun p => !isNullBranch p.2) branches
  discriminator : ∃ entries mapping, tree.asMapping? = some entries ∧
    declaredDiscriminator? entries = some (property, mapping) ∧
    selections = mapping.filterMap (selection? root (id.child "discriminator"))

end Interpretation

/-- A union with a discriminator is declared in the document. -/
def Shape.Declared (root : Tree) : Shape → Prop
  | .union branches (some d) =>
    ∃ tree id selections, DeclaresUnion root tree id branches d.property selections ∧ d.tags = tagsOf selections
  | _ => True

/-- All unions with a discriminator in finished definitions are declared in the document. -/
def Slots.Declared (root : Tree) (s : Slots) : Prop :=
  ∀ k n, s.Finished k n → n.shape.Everywhere (Shape.Declared root)

/-- What a relation tells of every right member holds of all members of the right list. -/
theorem forall_mem_of_forall₂ {α β : Type} {R : α → β → Prop} {P : β → Prop} (hR : ∀ a b, R a b → P b) {l : List α}
    {u : List β} (h : List.Forall₂ R l u) : ∀ b ∈ u, P b := by
  induction h with
  | nil => simp
  | cons hab _ ih => exact List.forall_mem_cons.2 ⟨hR _ _ hab, ih⟩

namespace Interpretation

variable {root : Tree} {r : Resolver} {visit : Visit}

/-- An interpretation keeps unions declared, and answers with a shape in which they are. -/
abbrev AnswersDeclared (root : Tree) (x : Interpretation Shape) : Prop :=
  Keeps (Slots.Declared root) x (·.Everywhere (Shape.Declared root))

/-- References lead to the definitions that the document tells, and unions are kept declared. -/
abbrev ReferencesLead (root : Tree) (r : Resolver) (visit : Visit) : Prop :=
  ∀ text holder, Keeps (Slots.Declared root) (reference r visit text holder)
    fun k => ∃ found, Reference.resolve root text holder.pointer = .ok found ∧ k = ⟨found.pointer⟩

/-- What is told of the node of a tree at a place: all unions in it are declared, and it may be a branch of one. -/
structure NodeDeclared (root : Tree) (place : SchemaId) (tree : Tree) (n : SchemaNode) : Prop where
  everywhere : n.shape.Everywhere (Shape.Declared root)
  branch : BranchOf root place tree n

theorem everywhere_unknown (id : SchemaId) : (SchemaNode.unknown id).shape.Everywhere (Shape.Declared root) :=
  Shape.everywhere_of_leaf trivial rfl

/-! ## Keywords -/

section Keywords

variable {tree : Tree} {entries : Entries}

/-- Adding entries in a row puts the tags of their selections under the schemas. -/
theorem foldlM_tags (hreference : ReferencesLead root r visit) (holder : SchemaId) :
    ∀ (mapping : Entries) (before : List (SchemaId × String)),
      Keeps (Slots.Declared root) (mapping.foldlM (fun (selected : List (SchemaId × String)) (tag, target) => do
          match tag.keyText?, target.asText? with
          | some tag, some target =>
            let id ← reference r visit (tagReference target) holder
            return upsert selected id tag
          | _, _ => return selected) before)
        fun tags => tags = (mapping.filterMap (selection? root holder)).foldl
          (fun tags selection => upsert tags selection.1 selection.2) before := by
  intro mapping
  induction mapping with
  | nil => exact fun before => .pure rfl
  | cons entry mapping ih =>
    intro before
    obtain ⟨key, value⟩ := entry
    rw [List.foldlM_cons, List.filterMap_cons, selection?]
    dsimp only
    cases key.keyText? with
    | none =>
      rw [pure_bind]
      exact ih before
    | some tag =>
      cases value.asText? with
      | none =>
        rw [pure_bind]
        exact ih before
      | some target =>
        dsimp only
        rw [bind_assoc]
        refine (hreference (tagReference target) holder).bind fun k hk => ?_
        obtain ⟨found, hfound, rfl⟩ := hk
        rw [pure_bind, hfound]
        exact ih _

theorem discriminator_eq (r : Resolver) (visit : Visit) (entries : Entries) (id : SchemaId) :
    discriminator r visit entries id = match declaredDiscriminator? entries with
      | none => pure none
      | some (property, mapping) => do
        let selected ← tags r visit (id.child "discriminator") mapping
        return some ⟨property, selected⟩ := by
  unfold discriminator declaredDiscriminator?
  cases entries.get? "discriminator" with
  | none => rfl
  | some found =>
    dsimp only [Option.bind_some]
    cases found.asText? with
    | some property => rfl
    | none =>
      dsimp only
      cases (found.get? "propertyName").bind Tree.asText? with
      | none => rfl
      | some property => rfl

variable (htree : tree.PartOf root) (hentries : tree.asMapping? = some entries)

/-- The discriminator of a schema has the declared property, and the tags that the entries of its mapping leave. -/
theorem discriminator_declared (hreference : ReferencesLead root r visit) (id : SchemaId) :
    Keeps (Slots.Declared root) (discriminator r visit entries id) fun answer => ∀ d, answer = some d →
      ∃ mapping, declaredDiscriminator? entries = some (d.property, mapping) ∧
        d.tags = tagsOf (mapping.filterMap (selection? root (id.child "discriminator"))) := by
  rw [discriminator_eq]
  cases hdeclared : declaredDiscriminator? entries with
  | none => exact .pure fun d hd => by cases hd
  | some found =>
    obtain ⟨property, mapping⟩ := found
    refine Keeps.bind (foldlM_tags hreference (id.child "discriminator") mapping []) fun selected hselected => ?_
    refine .pure fun d hd => ?_
    cases hd
    exact ⟨mapping, rfl, hselected⟩

variable (hvisit : ∀ part id, part.Subschema tree → Keeps (Slots.Declared root) (visit part id) (NodeDeclared root id part))

include hentries hvisit

theorem fields_declared (id : SchemaId) :
    Keeps (Slots.Declared root) (fields visit (((entries.get? "properties").bind Tree.asMapping?).getD []) id)
      fun fields => ∀ p ∈ fields, p.2.shape.Everywhere (Shape.Declared root) := by
  have hpart := Tree.Subschema.of_mem_properties hentries
  generalize ((entries.get? "properties").bind Tree.asMapping?).getD [] = properties at hpart
  refine Keeps.foldlM properties (fun c hc before hbefore => ?_) [] (by simp)
  obtain ⟨key, value⟩ := c
  dsimp only
  cases hkey : key.keyText? with
  | none => exact .pure hbefore
  | some name =>
    refine (hvisit _ _ (hpart _ hc name hkey)).bind fun n hn => .pure fun p hp => ?_
    rcases eq_or_mem_of_mem_upsert hp with rfl | hp
    · exact hn.everywhere
    · exact hbefore p hp

theorem object_declared (id : SchemaId) : AnswersDeclared root (object visit entries id) := by
  have hrest (fields : List (String × SchemaNode)) (hfields : ∀ p ∈ fields, p.2.shape.Everywhere (Shape.Declared root))
      (additional : Option SchemaNode) (h : ∀ n ∈ additional, n.shape.Everywhere (Shape.Declared root)) :
      AnswersDeclared root (pure (.object fields (requiredNames entries) additional)) := by
    refine .pure (Shape.everywhere_of_children trivial fun m hm => ?_)
    rcases List.mem_append.1 hm with hm | hm
    · obtain ⟨p, hp, rfl⟩ := List.mem_map.1 hm
      exact hfields p hp
    · exact h m (by simpa using hm)
  have hunknown (anyId : SchemaId) : ∀ n ∈ some (SchemaNode.unknown anyId), n.shape.Everywhere (Shape.Declared root) := by
    rintro n ⟨⟩
    exact everywhere_unknown anyId
  unfold object
  refine (fields_declared hentries hvisit _).bind fun fields hfields => ?_
  dsimp only
  split
  · exact hrest fields hfields none (by simp)
  · exact hrest fields hfields _ (hunknown _)
  · next schema _ _ hschema =>
    have hadditional : Keeps (Slots.Declared root) (some <$> visit schema (id.child "additionalProperties"))
        fun additional => ∀ n ∈ additional, n.shape.Everywhere (Shape.Declared root) := by
      refine (hvisit schema _ (.under hentries hschema)).map ?_
      rintro n hn m ⟨⟩
      exact hn.everywhere
    exact hadditional.bind fun additional h => hrest fields hfields additional h
  · split
    · exact hrest fields hfields _ (hunknown _)
    · exact hrest fields hfields none (by simp)

theorem array_declared (id : SchemaId) : AnswersDeclared root (array visit entries id) := by
  unfold array
  split
  · next items hitems =>
    refine (hvisit items _ (.under hentries hitems)).bind fun n hn => .pure (Shape.everywhere_of_children trivial ?_)
    intro m hm
    obtain rfl : m = n := by simpa [Shape.children] using hm
    exact hn.everywhere
  · exact .pure (Shape.everywhere_of_leaf trivial rfl)

theorem typed_declared (declared : String) (id : SchemaId) : AnswersDeclared root (typed visit declared entries id) := by
  have hprimitive (kind : PrimitiveKind) (format : Option ValueFormat) :
      AnswersDeclared root (pure (.primitive kind format)) := .pure (Shape.everywhere_of_leaf trivial rfl)
  unfold typed
  dsimp only
  split
  · exact hprimitive _ _
  · exact hprimitive _ _
  · exact hprimitive _ _
  · exact hprimitive _ _
  · exact object_declared hentries hvisit id
  · exact array_declared hentries hvisit id
  · exact .throw _

omit hentries hvisit in
/-- The parts of a composition become an object with the fields of objects, or stay as they are. -/
theorem flattened_declared (id : SchemaId) {parts : List SchemaNode}
    (hparts : ∀ n ∈ parts, n.shape.Everywhere (Shape.Declared root)) : AnswersDeclared root (flattened id parts) := by
  refine fun s hs => ends_flattened.2 ⟨fun answer hanswer => ⟨hs, ?_⟩, fun _ _ => hs⟩
  cases answer with
  | none => exact Shape.everywhere_of_children trivial hparts
  | some merged =>
    obtain ⟨m, -, rfl⟩ := flatten_object hanswer
    refine Shape.everywhere_of_children trivial fun c hc => ?_
    obtain ⟨shape, hshape, hcs⟩ := (flatten_spec hanswer).2 c hc
    obtain ⟨part, hpart, hps⟩ := List.mem_map.1 hshape
    have hall : shape.Everywhere (Shape.Declared root) := by
      rcases partShape_own_or_finished hps with rfl | ⟨target, node, hnode, rfl⟩
      · exact hparts part hpart
      · exact hs target node hnode
    exact hall.child hcs

theorem composition_declared {parts : List Tree} (hparts : sequence? entries "allOf" = some parts) (id : SchemaId) :
    AnswersDeclared root (composition visit entries id parts) := by
  rw [composition_eq, composedParts, bind_assoc]
  refine (Keeps.mapM (R := fun p n => NodeDeclared root ((id.child "allOf").child (toString p.1)) p.2 n) _
    fun p hp => ?_).bind fun nodes hnodes => ?_
  · exact hvisit _ _ (.listed hentries hparts (mem_of_indexed hp))
  have hall : ∀ n ∈ nodes, n.shape.Everywhere (Shape.Declared root) :=
    forall_mem_of_forall₂ (fun _ _ h => h.everywhere) hnodes
  split
  · rw [bind_assoc]
    refine (object_declared hentries hvisit id).bind fun shape hshape => ?_
    rw [pure_bind, pure_bind]
    refine flattened_declared id fun n hn => ?_
    rcases List.mem_append.1 hn with hn | hn
    · exact hall n hn
    · rw [List.mem_singleton.1 hn]
      exact hshape
  · rw [pure_bind, pure_bind]
    exact flattened_declared id (by simpa using hall)

theorem severalTypes_declared (declared : List String) (id : SchemaId) :
    AnswersDeclared root (severalTypes visit declared entries id) := by
  unfold severalTypes
  refine (Keeps.mapM (R := fun _ n => n.shape.Everywhere (Shape.Declared root)) _ fun p _ => ?_).bind fun nodes hnodes => ?_
  · exact (typed_declared hentries hvisit p.2 _).bind fun shape hshape => .pure hshape
  · have hall : ∀ n ∈ nodes, n.shape.Everywhere (Shape.Declared root) :=
      forall_mem_of_forall₂ (P := fun n : SchemaNode => n.shape.Everywhere (Shape.Declared root)) (fun _ _ h => h) hnodes
    exact .pure (Shape.everywhere_of_children trivial hall)

include htree

/-- A union has the branches and the discriminator that the schema declares. -/
theorem union_declared (hreference : ReferencesLead root r visit) {key : String} {branches : List Tree}
    (hbranches : branches? entries = some (key, branches)) (id : SchemaId) :
    Keeps (Slots.Declared root) (union r visit entries id key branches) (·.1.Everywhere (Shape.Declared root)) := by
  have hlisted : ∀ p ∈ (indexed branches).filter (fun p => !isNullBranch p.2), p.2.Subschema tree := fun p hp =>
    .listed hentries (branches_sequence hbranches) (mem_of_indexed (List.mem_filter.1 hp).1)
  unfold union
  refine (Keeps.mapM (R := fun p n => NodeDeclared root ((id.child key).child (toString p.1)) p.2 n) _
    fun p hp => hvisit _ _ (hlisted p hp)).bind fun nodes hnodes => ?_
  have hall : ∀ n ∈ nodes, n.shape.Everywhere (Shape.Declared root) :=
    forall_mem_of_forall₂ (fun _ _ h => h.everywhere) hnodes
  split
  · exact .pure (hall _ List.mem_cons_self)
  · refine (discriminator_declared hreference id).bind fun answer hanswer => .pure ?_
    refine Shape.everywhere_of_children ?_ hall
    cases answer with
    | none => trivial
    | some d =>
      obtain ⟨mapping, hdeclared, htags⟩ := hanswer d rfl
      refine ⟨tree, id, _, ⟨htree, ?_, ?_⟩, htags⟩
      · exact ⟨entries, key, branches, hentries, hbranches, hnodes.imp fun _ _ h => h.branch⟩
      · exact ⟨entries, mapping, hentries, hdeclared, rfl⟩

/-- All unions in the shape of a mapping are declared. -/
theorem shape_declared (hreference : ReferencesLead root r visit) (id : SchemaId) :
    Keeps (Slots.Declared root) (shape r visit entries id) (·.1.Everywhere (Shape.Declared root)) := by
  have hplain {x : Interpretation Shape} (hx : AnswersDeclared root x) : Keeps (Slots.Declared root)
      (do return (← x, false)) (·.1.Everywhere (Shape.Declared root)) := hx.bind fun shape hshape => .pure hshape
  unfold shape
  dsimp only
  split
  · next values _ =>
    cases hvalues : enumeration id values with
    | error e => exact .throw _
    | ok answer =>
      obtain ⟨found, hfound⟩ := enumeration_shape hvalues
      exact .pure (hfound ▸ Shape.everywhere_of_leaf trivial rfl)
  · split
    · next key branches hbranches => exact union_declared htree hentries hvisit hreference hbranches id
    · split
      · next parts hparts => exact hplain (composition_declared hentries hvisit hparts id)
      · split
        · exact hplain (severalTypes_declared hentries hvisit _ id)
        · exact hplain (typed_declared hentries hvisit _ id)
        · split
          · exact hplain (object_declared hentries hvisit id)
          · split
            · exact hplain (array_declared hentries hvisit id)
            · split
              · exact (hreference _ _).bind fun k _ => .pure (Shape.everywhere_of_leaf trivial rfl)
              · exact .pure (Shape.everywhere_of_leaf trivial rfl)

end Keywords

/-! ## Nodes -/

/-- A definition is opened and finished with a node in which all unions are declared. -/
theorem define_declared {id : SchemaId} {tree : Tree}
    (hvisit : Keeps (Slots.Declared root) (visit tree id) (·.shape.Everywhere (Shape.Declared root))) :
    Keeps (Slots.Declared root) (define visit id tree) fun _ => True := by
  intro s hs
  have hput {s : Slots} (hs : s.Declared root) {answer : Option (Except SchemaError SchemaNode)}
      (hanswer : ∀ n, answer = some (.ok n) → n.shape.Everywhere (Shape.Declared root)) :
      Slots.Declared root (upsert s id answer) := by
    intro k n hk
    by_cases hne : k = id
    · rw [Slots.Finished, hne, lookup_upsert_self] at hk
      exact hanswer n (Option.some.inj hk)
    · rw [Slots.Finished, lookup_upsert_of_ne hne] at hk
      exact hs k n hk
  rw [define]
  refine ends_bind.2 (ends_get.2 ?_)
  split
  · refine ends_bind.2 (ends_modify.2 (ends_bind.2 (ends_catchSchema ?_)))
    refine (hvisit _ (hput hs fun n hn => by cases hn)).mono (fun n s' h => ends_modify.2 ⟨hput h.1 ?_, trivial⟩)
      fun e s' h => ⟨fun err _ => ends_modify.2 ⟨hput h (fun n hn => by cases hn), trivial⟩, fun _ => h⟩
    rintro n' ⟨⟩
    exact h.2
  · exact ends_pure.2 ⟨hs, trivial⟩

/-- A reference leads to the definition that the document tells. -/
theorem reference_declared (hr : r.Serves root) (hvisit : ∀ tree id, tree.PartOf root →
      Keeps (Slots.Declared root) (visit tree id) (NodeDeclared root id tree)) : ReferencesLead root r visit := by
  intro text holder
  unfold reference
  split
  · next found hfound =>
    refine (define_declared ((hvisit _ _ (hr.partOf hfound)).mono fun _ h => h.everywhere)).after fun _ => .pure ?_
    exact ⟨found, hr.find_eq _ _ ▸ hfound, rfl⟩
  · exact .throw _

/-- In the node of a part of the document all unions are declared. -/
theorem node_declared (hr : r.Serves root) (depth : Nat) : ∀ (tree : Tree) (id : SchemaId), tree.PartOf root →
    Keeps (Slots.Declared root) (node r depth tree id) (NodeDeclared root id tree) := by
  induction depth with
  | zero => exact fun _ _ _ => .throw _
  | succ depth ih =>
    intro tree id htree s hs
    have hreference := reference_declared hr ih
    have hbranch : Ends (level r (node r depth) tree id) s (fun n _ => BranchOf root id tree n) fun _ _ => True := by
      refine (level_refers tree id s).mono (fun n _ h => ⟨h.1, fun target hshape hnull => ?_⟩) fun _ _ h => h
      obtain ⟨text, found, htext, hfound, htarget⟩ := h.2.2 target hshape hnull
      exact ⟨text, found, htext, hr.find_eq _ _ ▸ hfound, htarget⟩
    have heverywhere : Keeps (Slots.Declared root) (level r (node r depth) tree id)
        (·.shape.Everywhere (Shape.Declared root)) := by
      unfold level
      cases hentries : tree.asMapping? with
      | none => exact .pure (everywhere_unknown id)
      | some entries =>
        refine (shape_declared htree hentries (fun part id hpart => ?_) hreference id).bind fun answer h => .pure h
        exact ih part id (hpart.partOf.1.trans htree)
    exact ((heverywhere s hs).and hbranch).mono (fun n _ h => ⟨h.1.1, h.1.2, h.2⟩) fun _ _ h => h.1

theorem visit_declared (hr : r.Serves root) {tree : Tree} (htree : tree.PartOf root) (id : SchemaId) :
    Keeps (Slots.Declared root) (Interpretation.visit r tree id) (·.shape.Everywhere (Shape.Declared root)) :=
  (node_declared hr _ tree id htree).mono fun _ h => h.everywhere

/-- Opening the component schemas of a document keeps unions declared. -/
theorem components_declared {d : Document} (hr : r.Serves d.root) :
    Keeps (Slots.Declared d.root) (components r d) fun _ => True := by
  refine components_induction (Q := fun x => Keeps (Slots.Declared d.root) x fun _ => True) (.pure trivial)
    (fun hx hy => hx.after fun _ => hy) fun c hc name _ => ?_
  exact define_declared (visit_declared hr (Document.of_mem_componentSchemas hc).1 _)

end Interpretation

end ContractBindings
