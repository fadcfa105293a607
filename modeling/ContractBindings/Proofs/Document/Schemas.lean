import ContractBindings.Proofs.Document.Parts
import ContractBindings.Proofs.Lookup

/-!
# Schemas inside schemas

A schema has other schemas under its keywords (`Tree.Subschema`), parts that are smaller. It follows a text that is its
own reference or that a tag of its discriminator selects (`Tree.Follows`), and leads to the texts that it or a schema
inside follows (`Tree.Leads`); all of them are links of the tree.

A walk over a document passes over what stands under a key that cannot be a segment of a pointer. What it comes to is
*shown* (`Tree.Shown`): the schemas inside a schema are, and so is the node at a pointer. The references of all that is
shown are occurrences (`Shown.occurs`).
-/

namespace ContractBindings

open Interpretation

namespace Tree

/-! ## Schemas under keywords -/

/-- A tree stands under a keyword of another as a schema. -/
inductive Subschema (part tree : Tree) : Prop
  | listed {entries : Entries} {key : String} {items : List Tree} : tree.asMapping? = some entries →
      sequence? entries key = some items → part ∈ items → Subschema part tree
  | under {entries : Entries} {key : String} : tree.asMapping? = some entries → entries.get? key = some part →
      Subschema part tree
  | property {entries properties : Entries} {key : Tree} {name : String} : tree.asMapping? = some entries →
      (entries.get? "properties").bind asMapping? = some properties → (key, part) ∈ properties →
        key.keyText? = some name → Subschema part tree

/-- The properties that a schema declares under texts are schemas in it. -/
theorem Subschema.of_mem_properties {tree : Tree} {entries : Entries} (h : tree.asMapping? = some entries) :
    ∀ c ∈ ((entries.get? "properties").bind asMapping?).getD [], ∀ name, c.1.keyText? = some name →
      c.2.Subschema tree := by
  intro c hc name hname
  obtain ⟨properties, hproperties, hc⟩ := exists_of_mem_getD hc
  exact .property h hproperties hc hname

/-- The text is the reference of a schema. -/
def Refers (tree : Tree) (text : String) : Prop :=
  ∃ entries, tree.asMapping? = some entries ∧ Reference.textOf? entries = some text

/-- The text is what a tag of the discriminator of a schema selects. -/
def Selects (tree : Tree) (text : String) : Prop :=
  ∃ entries discriminator mapping tag target name, tree.asMapping? = some entries ∧
    entries.get? "discriminator" = some discriminator ∧
    (discriminator.get? "mapping").bind asMapping? = some mapping ∧
    (tag, target) ∈ mapping ∧ target.asText? = some name ∧ text = tagReference name

/-- The text is one that the interpretation of a schema may follow. -/
def Follows (tree : Tree) (text : String) : Prop := tree.Refers text ∨ tree.Selects text

/-- The text is one that the interpretation of a schema, or of a schema inside, may follow. -/
inductive Leads : Tree → String → Prop
  | own {tree : Tree} {text : String} : tree.Follows text → Leads tree text
  | inside {part tree : Tree} {text : String} : part.Subschema tree → Leads part text → Leads tree text

theorem Subschema.partOf {part tree : Tree} (h : part.Subschema tree) : part.PartOf tree ∧ part.size < tree.size := by
  cases h with
  | listed hmapping hitems hmem =>
    obtain ⟨value, hvalue, hsequence⟩ := Option.bind_eq_some_iff.1 hitems
    obtain ⟨hpart, hlt⟩ := partOf_of_mem_mapping hmapping (mem_of_get? hvalue)
    obtain ⟨hpart', hlt'⟩ := partOf_of_mem_sequence hsequence hmem
    exact ⟨hpart'.trans hpart, Nat.lt_trans hlt' hlt⟩
  | under hmapping hvalue => exact partOf_of_mem_mapping hmapping (mem_of_get? hvalue)
  | property hmapping hproperties hmem _ =>
    obtain ⟨value, hvalue, hmapping'⟩ := Option.bind_eq_some_iff.1 hproperties
    obtain ⟨hpart, hlt⟩ := partOf_of_mem_mapping hmapping (mem_of_get? hvalue)
    obtain ⟨hpart', hlt'⟩ := partOf_of_mem_mapping hmapping' hmem
    exact ⟨hpart'.trans hpart, Nat.lt_trans hlt' hlt⟩

theorem Follows.mem_links {tree : Tree} {text : String} (h : tree.Follows text) : text ∈ tree.links .plain := by
  rcases h with ⟨entries, hmapping, htext⟩ | ⟨entries, discriminator, mapping, tag, target, name, hmapping, hd, hm, ht,
    hname, rfl⟩
  · exact mem_links_of_textOf hmapping htext
  · exact mem_links_of_tag hmapping hd hm ht hname

theorem Leads.mem_links {tree : Tree} {text : String} (h : tree.Leads text) : text ∈ tree.links .plain := by
  induction h with
  | own h => exact h.mem_links
  | inside hpart _ ih => exact hpart.partOf.1.links_subset ih

/-! ## What a walk comes to -/

/-- A tree stands inside another, or is it, and all keys on the way can be segments of a pointer. -/
inductive Shown : Tree → Tree → Prop
  | self (tree : Tree) : Shown tree tree
  | item {tree item : Tree} {items : List Tree} : item ∈ items → Shown tree item → Shown tree (.sequence items)
  | value {tree key value : Tree} {entries : Entries} {segment : String} : (key, value) ∈ entries →
      key.keyText? = some segment → Shown tree value → Shown tree (.mapping entries)
  | tagged {tree value : Tree} {tag : String} : Shown tree value → Shown tree (.tagged tag value)

theorem Shown.trans {a b c : Tree} (h : Shown a b) (h' : Shown b c) : Shown a c := by
  induction h' with
  | self => exact h
  | item hmem _ ih => exact .item hmem ih
  | value hmem hkey _ ih => exact .value hmem hkey ih
  | tagged _ ih => exact .tagged ih

theorem Shown.of_untag {part tree : Tree} (h : Shown part tree.untag) : Shown part tree := by
  induction tree using untag.induct with
  | case1 tag value ih =>
    rw [untag] at h
    exact .tagged (ih h)
  | case2 tree hno =>
    unfold untag at h
    split at h
    · next tag value => exact absurd rfl (hno tag value)
    · exact h

theorem untag_of_asMapping? {tree : Tree} {entries : Entries} (h : tree.asMapping? = some entries) :
    tree.untag = .mapping entries := by
  unfold asMapping? at h
  split at h
  · next found heq =>
    cases h
    exact heq
  · cases h

theorem untag_of_asSequence? {tree : Tree} {items : List Tree} (h : tree.asSequence? = some items) :
    tree.untag = .sequence items := by
  unfold asSequence? at h
  split at h
  · next found heq =>
    cases h
    exact heq
  · cases h

theorem shown_of_mem_mapping {tree key value : Tree} {entries : Entries} {segment : String}
    (h : tree.asMapping? = some entries) (hmem : (key, value) ∈ entries) (hkey : key.keyText? = some segment) :
    value.Shown tree := by
  refine .of_untag ?_
  rw [untag_of_asMapping? h]
  exact .value hmem hkey (.self value)

theorem shown_of_mem_sequence {tree item : Tree} {items : List Tree} (h : tree.asSequence? = some items)
    (hmem : item ∈ items) : item.Shown tree := by
  refine .of_untag ?_
  rw [untag_of_asSequence? h]
  exact .item hmem (.self item)

/-- What stands under a text key is shown. -/
theorem shown_of_get? {tree value : Tree} {entries : Entries} {key : String} (h : tree.asMapping? = some entries)
    (hvalue : entries.get? key = some value) : value.Shown tree :=
  shown_of_mem_mapping h (mem_of_get? hvalue) rfl

theorem shown_of_tree_get? {tree value : Tree} {key : String} (h : tree.get? key = some value) : value.Shown tree := by
  obtain ⟨entries, hentries, hvalue⟩ := Option.bind_eq_some_iff.1 h
  exact shown_of_get? hentries hvalue

theorem Subschema.shown {part tree : Tree} (h : part.Subschema tree) : part.Shown tree := by
  cases h with
  | listed hmapping hitems hmem =>
    obtain ⟨value, hvalue, hsequence⟩ := Option.bind_eq_some_iff.1 hitems
    exact (shown_of_mem_sequence hsequence hmem).trans (shown_of_get? hmapping hvalue)
  | under hmapping hvalue => exact shown_of_get? hmapping hvalue
  | property hmapping hproperties hmem hkey =>
    obtain ⟨value, hvalue, hmapping'⟩ := Option.bind_eq_some_iff.1 hproperties
    exact (shown_of_mem_mapping hmapping' hmem hkey).trans (shown_of_get? hmapping hvalue)

theorem shown_of_step {tree found : Tree} {segment : String} (h : Pointer.step? tree segment = some found) :
    found.Shown tree := by
  unfold Pointer.step? at h
  split at h
  · next entries =>
    obtain ⟨⟨key, value⟩, hfound, rfl⟩ := Option.map_eq_some_iff.1 h
    exact .value (List.mem_of_find?_eq_some hfound) (by simpa using List.find?_some hfound) (.self value)
  · next items =>
    obtain ⟨index, -, hitem⟩ := Option.bind_eq_some_iff.1 h
    exact .item (List.mem_of_getElem? hitem) (.self found)
  · cases h

theorem shown_of_follow {found : Tree} : ∀ {parts : List (List Char)} {tree : Tree},
    Pointer.follow? tree parts = some found → found.Shown tree
  | [], _, h => by
    cases h
    exact .self _
  | part :: parts, _, h => by
    obtain ⟨next, hstep, hrest⟩ := Option.bind_eq_some_iff.1 h
    exact (shown_of_follow hrest).trans (shown_of_step hstep)

/-- The node at a pointer is shown. -/
theorem shown_of_lookup {root found : Tree} {pointer : String} (h : Pointer.lookup? root pointer = some found) :
    found.Shown root := by
  unfold Pointer.lookup? at h
  split at h
  · cases h
    exact .self root
  · exact shown_of_follow h
  · cases h

/-! ## Occurrences -/

theorem occurrences_untag (tree : Tree) (pointer : String) :
    Reference.occurrences tree.untag pointer = Reference.occurrences tree pointer := by
  induction tree using untag.induct with
  | case1 tag value ih => rw [untag, ih, Reference.occurrences]
  | case2 tree hno =>
    unfold untag
    split
    · next tag value => exact absurd rfl (hno tag value)
    · rfl

theorem mem_occurrencesOfEntries {key value : Tree} {segment pointer : String} {o : Reference.Occurrence} :
    ∀ {entries : List (Tree × Tree)}, (key, value) ∈ entries → key.keyText? = some segment →
      o ∈ Reference.occurrences value (Pointer.child pointer segment) →
        o ∈ Reference.occurrencesOfEntries entries pointer
  | [], hmem, _, _ => by cases hmem
  | (first, rest) :: entries, hmem, hkey, ho => by
    rw [Reference.occurrencesOfEntries, List.mem_append]
    rcases List.mem_cons.1 hmem with heq | hmem
    · cases heq
      rw [hkey]
      exact .inl ho
    · exact .inr (mem_occurrencesOfEntries hmem hkey ho)

theorem mem_occurrencesOfItems {item : Tree} {P : Reference.Occurrence → Prop} {pointer : String}
    (h : ∀ place, ∃ o ∈ Reference.occurrences item place, P o) : ∀ {items : List Tree} {index : Nat}, item ∈ items →
      ∃ o ∈ Reference.occurrencesOfItems items index pointer, P o
  | [], _, hmem => by cases hmem
  | first :: items, index, hmem => by
    rw [Reference.occurrencesOfItems]
    rcases List.mem_cons.1 hmem with rfl | hmem
    · obtain ⟨o, ho, hP⟩ := h (Pointer.child pointer (toString index))
      exact ⟨o, List.mem_append_left _ ho, hP⟩
    · obtain ⟨o, ho, hP⟩ := mem_occurrencesOfItems h hmem
      exact ⟨o, List.mem_append_right _ ho, hP⟩

/-- The reference of what is shown is an occurrence, wherever the whole stands. -/
theorem Shown.occurs {part tree : Tree} {text : String} (h : part.Shown tree) (ht : part.Refers text) :
    ∀ pointer, ∃ o ∈ Reference.occurrences tree pointer, o.reference = text := by
  induction h with
  | self =>
    obtain ⟨entries, hmapping, htext⟩ := ht
    intro pointer
    rw [← occurrences_untag, untag_of_asMapping? hmapping, Reference.occurrences, htext]
    exact ⟨⟨text, pointer⟩, by simp, rfl⟩
  | item hmem _ ih =>
    intro pointer
    rw [Reference.occurrences]
    exact mem_occurrencesOfItems ih hmem
  | value hmem hkey _ ih =>
    intro pointer
    obtain ⟨o, ho, heq⟩ := ih (Pointer.child pointer _)
    rw [Reference.occurrences]
    exact ⟨o, List.mem_append_right _ (mem_occurrencesOfEntries hmem hkey ho), heq⟩
  | tagged _ ih =>
    intro pointer
    rw [Reference.occurrences]
    exact ih pointer

end Tree

end ContractBindings
