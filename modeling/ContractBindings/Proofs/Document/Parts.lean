import ContractBindings.Schema.Interpretation

/-!
# Parts of a document

The trees inside a tree are its parts (`Tree.PartOf`): what a key or an index leads to is a part, and a smaller one
(`size_lt_of_mem_mapping`), and so is the node at a pointer (`partOf_of_lookup`).

The *links* of a tree are the texts that interpretation may follow from it: those under `$ref`, and the pointers that
the tags of a discriminator select. A part has no link that the whole has not (`PartOf.links_subset`), and a tree has no
more links than nodes (`length_links_le`).
-/

namespace ContractBindings

open Interpretation

namespace Tree

/-- A tree stands inside another, or is it. -/
inductive PartOf : Tree → Tree → Prop
  | self (tree : Tree) : PartOf tree tree
  | item {tree item : Tree} {items : List Tree} : item ∈ items → PartOf tree item → PartOf tree (.sequence items)
  | value {tree key value : Tree} {entries : Entries} : (key, value) ∈ entries → PartOf tree value →
      PartOf tree (.mapping entries)
  | tagged {tree value : Tree} {tag : String} : PartOf tree value → PartOf tree (.tagged tag value)

theorem PartOf.trans {a b c : Tree} (h : PartOf a b) (h' : PartOf b c) : PartOf a c := by
  induction h' with
  | self => exact h
  | item hmem _ ih => exact .item hmem ih
  | value hmem _ ih => exact .value hmem ih
  | tagged _ ih => exact .tagged ih

/-! ## Sizes -/

theorem size_le_of_mem_items {item : Tree} {items : List Tree} (h : item ∈ items) : item.size ≤ sizeOfItems items := by
  induction items with
  | nil => cases h
  | cons first rest ih =>
    rw [sizeOfItems]
    rcases List.mem_cons.1 h with rfl | h
    · omega
    · have := ih h
      omega

theorem size_le_of_mem_entries {key value : Tree} {entries : Entries} (h : (key, value) ∈ entries) :
    value.size ≤ sizeOfEntries entries := by
  induction entries with
  | nil => cases h
  | cons first rest ih =>
    obtain ⟨k, v⟩ := first
    rw [sizeOfEntries]
    rcases List.mem_cons.1 h with h | h
    · cases h
      omega
    · have := ih h
      omega

theorem size_pos (tree : Tree) : 0 < tree.size := by
  cases tree <;> simp only [size] <;> omega

theorem PartOf.size_le {a b : Tree} (h : PartOf a b) : a.size ≤ b.size := by
  induction h with
  | self => exact Nat.le_refl _
  | item hmem _ ih =>
    have := size_le_of_mem_items hmem
    rw [size]
    omega
  | value hmem _ ih =>
    have := size_le_of_mem_entries hmem
    rw [size]
    omega
  | tagged _ ih =>
    rw [size]
    omega

/-! ## What keys and pointers lead to -/

theorem untag_partOf (tree : Tree) : tree.untag.PartOf tree := by
  induction tree using untag.induct with
  | case1 tag value ih =>
    rw [untag]
    exact .tagged ih
  | case2 tree hno =>
    have heq : tree.untag = tree := by
      unfold untag
      split
      · next tag value => exact absurd rfl (hno tag value)
      · rfl
    rw [heq]
    exact .self tree

/-- The values of a mapping are parts of it, and smaller. -/
theorem partOf_of_mem_mapping {tree key value : Tree} {entries : Entries} (h : tree.asMapping? = some entries)
    (hmem : (key, value) ∈ entries) : value.PartOf tree ∧ value.size < tree.size := by
  have huntag : tree.untag = .mapping entries := by
    unfold asMapping? at h
    split at h
    · next found heq =>
      cases h
      exact heq
    · cases h
  have hpart : (Tree.mapping entries).PartOf tree := huntag ▸ untag_partOf tree
  have hsize := hpart.size_le
  have hvalue := size_le_of_mem_entries hmem
  rw [size] at hsize
  exact ⟨PartOf.trans (.value hmem (.self value)) hpart, by omega⟩

/-- The items of a sequence are parts of it, and smaller. -/
theorem partOf_of_mem_sequence {tree item : Tree} {items : List Tree} (h : tree.asSequence? = some items)
    (hmem : item ∈ items) : item.PartOf tree ∧ item.size < tree.size := by
  have huntag : tree.untag = .sequence items := by
    unfold asSequence? at h
    split at h
    · next found heq =>
      cases h
      exact heq
    · cases h
  have hpart : (Tree.sequence items).PartOf tree := huntag ▸ untag_partOf tree
  have hsize := hpart.size_le
  have hitem := size_le_of_mem_items hmem
  rw [size] at hsize
  exact ⟨PartOf.trans (.item hmem (.self item)) hpart, by omega⟩

theorem mem_of_get? {entries : Entries} {key : String} {value : Tree} (h : entries.get? key = some value) :
    (Tree.text key, value) ∈ entries := by
  induction entries with
  | nil => cases h
  | cons first rest ih =>
    unfold Entries.get? at h
    split at h
    · cases ‹_ :: _ = []›
    · next k v other heq =>
      cases heq
      split at h
      · next hk =>
        cases h
        rw [eq_of_beq hk]
        exact List.mem_cons_self
      · exact List.mem_cons_of_mem _ (ih h)
    · next heq =>
      cases heq
      exact List.mem_cons_of_mem _ (ih h)

theorem partOf_of_step {tree found : Tree} {segment : String} (h : Pointer.step? tree segment = some found) :
    found.PartOf tree := by
  unfold Pointer.step? at h
  split at h
  · next entries =>
    obtain ⟨⟨key, value⟩, hfound, rfl⟩ := Option.map_eq_some_iff.1 h
    exact .value (List.mem_of_find?_eq_some hfound) (.self value)
  · next items =>
    obtain ⟨index, -, hitem⟩ := Option.bind_eq_some_iff.1 h
    exact .item (List.mem_of_getElem? hitem) (.self found)
  · cases h

theorem partOf_of_follow {found : Tree} : ∀ {parts : List (List Char)} {tree : Tree},
    Pointer.follow? tree parts = some found → found.PartOf tree
  | [], _, h => by
    cases h
    exact .self _
  | part :: parts, _, h => by
    obtain ⟨next, hstep, hrest⟩ := Option.bind_eq_some_iff.1 h
    exact (partOf_of_follow hrest).trans (partOf_of_step hstep)

theorem partOf_of_get? {tree value : Tree} {key : String} (h : tree.get? key = some value) : value.PartOf tree := by
  obtain ⟨entries, hentries, hvalue⟩ := Option.bind_eq_some_iff.1 h
  exact (partOf_of_mem_mapping hentries (mem_of_get? hvalue)).1

/-- The node at a pointer is a part of the document. -/
theorem partOf_of_lookup {root found : Tree} {pointer : String} (h : Pointer.lookup? root pointer = some found) :
    found.PartOf root := by
  unfold Pointer.lookup? at h
  split at h
  · cases h
    exact .self root
  · exact partOf_of_follow h
  · cases h

/-! ## Links -/

/-- Where a tree stands with regard to discriminators. -/
inductive LinkPlace where
  | plain
  /-- Under the key of a discriminator. -/
  | discriminator
  /-- Under the key of a discriminator's tags. -/
  | tags
  deriving DecidableEq

/-- The place of what stands under a key. -/
def LinkPlace.under (place : LinkPlace) : Tree → LinkPlace
  | .text "discriminator" => .discriminator
  | .text "mapping" => if place = .discriminator then .tags else .plain
  | _ => .plain

/-- The links that an entry of a mapping is itself: a reference, and what a tag selects. -/
def entryLinks (place : LinkPlace) (key value : Tree) : List String :=
  (match key with
    | .text "$ref" => value.asText?.toList
    | _ => []) ++
  match place with
  | .tags => (value.asText?.map tagReference).toList
  | _ => []

mutual

/-- The texts that interpretation may follow from a tree. -/
def links (place : LinkPlace) : Tree → List String
  | .mapping entries => linksOfEntries place entries
  | .sequence items => linksOfItems items
  | .tagged _ value => links place value
  | _ => []

/-- The links of the entries of a mapping. -/
def linksOfEntries (place : LinkPlace) : List (Tree × Tree) → List String
  | [] => []
  | (key, value) :: rest => entryLinks place key value ++ links (place.under key) value ++ linksOfEntries place rest

/-- The links of the items of a sequence. -/
def linksOfItems : List Tree → List String
  | [] => []
  | item :: rest => links .plain item ++ linksOfItems rest

end

theorem mem_linksOfItems {text : String} {item : Tree} {items : List Tree} (h : item ∈ items)
    (ht : text ∈ item.links .plain) : text ∈ linksOfItems items := by
  induction items with
  | nil => cases h
  | cons first rest ih =>
    rw [linksOfItems, List.mem_append]
    rcases List.mem_cons.1 h with rfl | h
    · exact .inl ht
    · exact .inr (ih h)

theorem mem_linksOfEntries {text : String} {place : LinkPlace} {entries : Entries} :
    text ∈ linksOfEntries place entries ↔
      ∃ key value, (key, value) ∈ entries ∧
        (text ∈ entryLinks place key value ∨ text ∈ value.links (place.under key)) := by
  induction entries with
  | nil => simp [linksOfEntries]
  | cons first rest ih =>
    obtain ⟨key, value⟩ := first
    rw [linksOfEntries, List.mem_append, List.mem_append, ih]
    constructor
    · rintro (h | ⟨k, v, hmem, h⟩)
      · exact ⟨key, value, List.mem_cons_self, h⟩
      · exact ⟨k, v, List.mem_cons_of_mem _ hmem, h⟩
    · rintro ⟨k, v, hmem, h⟩
      rcases List.mem_cons.1 hmem with heq | hmem
      · cases heq
        exact .inl h
      · exact .inr ⟨k, v, hmem, h⟩

theorem entryLinks_plain_subset (place : LinkPlace) (key value : Tree) :
    entryLinks .plain key value ⊆ entryLinks place key value := by
  intro text h
  unfold entryLinks at h ⊢
  rw [List.append_nil] at h
  exact List.mem_append_left _ h

theorem under_plain (place : LinkPlace) (key : Tree) :
    LinkPlace.plain.under key = .plain ∨ LinkPlace.plain.under key = place.under key := by
  unfold LinkPlace.under
  split
  · exact .inr rfl
  · exact .inl rfl
  · exact .inl rfl

/-- A tree has the links of its plain place wherever it stands. -/
theorem links_plain_subset (place : LinkPlace) (tree : Tree) : tree.links .plain ⊆ tree.links place := by
  intro text h
  induction hsize : tree.size using Nat.strongRecOn generalizing tree place with
  | _ size ih =>
    subst hsize
    cases tree with
    | mapping entries =>
      rw [links, mem_linksOfEntries] at h ⊢
      obtain ⟨key, value, hmem, h⟩ := h
      refine ⟨key, value, hmem, ?_⟩
      rcases h with h | h
      · exact .inl (entryLinks_plain_subset place key value h)
      · rcases under_plain place key with hplain | hsame
        · have hlt : value.size < (Tree.mapping entries).size := by
            have := size_le_of_mem_entries hmem
            rw [size]
            omega
          rw [hplain] at h
          exact .inr (ih value.size hlt _ value h rfl)
        · exact .inr (hsame ▸ h)
    | sequence items =>
      rw [links] at h ⊢
      exact h
    | tagged tag value =>
      have hsize : (Tree.tagged tag value).size = 1 + value.size := by rw [size]
      have hlt : value.size < (Tree.tagged tag value).size := by omega
      rw [links] at h ⊢
      exact ih value.size hlt place value h rfl
    | _ => cases h

/-- A part of a tree has no link that the tree has not. -/
theorem PartOf.links_subset {a b : Tree} (h : PartOf a b) : a.links .plain ⊆ b.links .plain := by
  induction h with
  | self => exact List.Subset.refl _
  | item hmem _ ih =>
    intro text ht
    rw [links]
    exact mem_linksOfItems hmem (ih ht)
  | @value key value entries hmem _ ih =>
    intro text ht
    rw [links, mem_linksOfEntries]
    exact ⟨key, value, hmem, .inr (links_plain_subset _ value (ih ht))⟩
  | tagged _ ih =>
    intro text ht
    rw [links]
    exact ih ht

theorem links_of_asMapping {place : LinkPlace} {tree : Tree} {entries : Entries} (h : tree.asMapping? = some entries) :
    tree.links place = linksOfEntries place entries := by
  have huntag : ∀ tree : Tree, tree.untag.links place = tree.links place := by
    intro tree
    induction tree using untag.induct with
    | case1 tag value ih => rw [untag, ih, links]
    | case2 tree hno =>
      unfold untag
      split
      · next tag value => exact absurd rfl (hno tag value)
      · rfl
  unfold asMapping? at h
  split at h
  · next found heq =>
    cases h
    rw [← huntag tree, heq, links]
  · cases h

/-- The reference of a mapping is a link. -/
theorem mem_links_of_textOf {tree : Tree} {entries : Entries} {text : String} (h : tree.asMapping? = some entries)
    (ht : Reference.textOf? entries = some text) : text ∈ tree.links .plain := by
  obtain ⟨value, hvalue, htext⟩ := Option.bind_eq_some_iff.1 ht
  rw [links_of_asMapping h, mem_linksOfEntries]
  refine ⟨_, value, mem_of_get? hvalue, .inl ?_⟩
  simp [entryLinks, htext]

/-- What a tag of the discriminator of a mapping selects is a link. -/
theorem mem_links_of_tag {tree discriminator tag target : Tree} {entries mapping : Entries} {text : String}
    (h : tree.asMapping? = some entries) (hd : entries.get? "discriminator" = some discriminator)
    (hm : (discriminator.get? "mapping").bind asMapping? = some mapping) (ht : (tag, target) ∈ mapping)
    (htext : target.asText? = some text) : tagReference text ∈ tree.links .plain := by
  obtain ⟨selected, hselected, hmapping⟩ := Option.bind_eq_some_iff.1 hm
  obtain ⟨inner, hinner, hkey⟩ := Option.bind_eq_some_iff.1 hselected
  have htag : tagReference text ∈ selected.links .tags := by
    rw [links_of_asMapping hmapping, mem_linksOfEntries]
    refine ⟨tag, target, ht, .inl ?_⟩
    simp [entryLinks, htext]
  have hunder : tagReference text ∈ discriminator.links .discriminator := by
    rw [links_of_asMapping hinner, mem_linksOfEntries]
    exact ⟨_, selected, mem_of_get? hkey, .inr htag⟩
  rw [links_of_asMapping h, mem_linksOfEntries]
  exact ⟨_, discriminator, mem_of_get? hd, .inr hunder⟩

/-! ## The number of links -/

/-- An entry has no more links, itself and in its value, than nodes. -/
theorem length_entryLinks_le (place : LinkPlace) (key value : Tree)
    (h : (value.links (place.under key)).length ≤ value.size) :
    (entryLinks place key value).length + (value.links (place.under key)).length ≤ key.size + value.size := by
  have hkey := size_pos key
  have hvalue := size_pos value
  cases htext : value.asText? with
  | none =>
    have hnone : entryLinks place key value = [] := by
      unfold entryLinks
      split <;> split <;> simp [htext]
    rw [hnone, List.length_nil]
    omega
  | some text =>
    -- a text has no links inside
    have hnil : ∀ (tree : Tree), tree.asText? = some text → ∀ place : LinkPlace, tree.links place = [] := by
      intro tree
      induction tree using untag.induct with
      | case1 tag value ih =>
        intro ht place
        rw [links]
        exact ih (by rwa [asText?, untag] at ht) place
      | case2 tree hno =>
        intro ht place
        cases tree with
        | tagged tag value => exact absurd rfl (hno tag value)
        | text s => rfl
        | _ => cases ht
    have htwo : (entryLinks place key value).length ≤ 2 := by
      unfold entryLinks
      split <;> split <;> simp [htext]
    rw [hnil value htext, List.length_nil]
    omega

mutual

/-- A tree has no more links than nodes. -/
theorem length_links_le (place : LinkPlace) : ∀ tree : Tree, (tree.links place).length ≤ tree.size
  | .mapping entries => by
    have ih := length_linksOfEntries_le place entries
    rw [links, size]
    omega
  | .sequence items => by
    have ih := length_linksOfItems_le items
    rw [links, size]
    omega
  | .tagged tag value => by
    have ih := length_links_le place value
    rw [links, size]
    omega
  | .null | .bool _ | .int _ | .float _ | .text _ => Nat.zero_le _

theorem length_linksOfEntries_le (place : LinkPlace) : ∀ entries : List (Tree × Tree),
    (linksOfEntries place entries).length ≤ sizeOfEntries entries
  | [] => Nat.zero_le _
  | (key, value) :: rest => by
    have hvalue := length_entryLinks_le place key value (length_links_le _ value)
    have ih := length_linksOfEntries_le place rest
    rw [linksOfEntries, sizeOfEntries, List.length_append, List.length_append]
    omega

theorem length_linksOfItems_le : ∀ items : List Tree, (linksOfItems items).length ≤ sizeOfItems items
  | [] => Nat.zero_le _
  | item :: rest => by
    have hitem := length_links_le .plain item
    have ih := length_linksOfItems_le rest
    rw [linksOfItems, sizeOfItems, List.length_append]
    omega

end

end Tree

end ContractBindings
