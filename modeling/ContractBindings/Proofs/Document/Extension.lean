import Mathlib.Data.List.Forall2
import ContractBindings.Proofs.Document.Reordering

/-!
# Documents that are extended

A document is extended by further entries: operations anywhere under `paths`, and component schemas after those that it has
(`Document.Extends`). The mappings on the way get larger, all other trees stay as they are (`Tree.Extended`), and what is
found by a key or at a pointer is still found there, perhaps with further entries (`Extended.lookup`). So a chain of
references goes the same way, and ends at the same pointer if the same schema stands there (`Extended.chase`). Component
schemas are always the same schemas (`Extends.keeps_component`).
-/

namespace ContractBindings

/-- Entries stay in their order while others are put between them. A value stays, or changes as it may under its key. -/
def Entries.Widened (changes : Tree → Tree → Tree → Prop) : Entries → Entries → Prop :=
  List.SublistForall₂ fun c c' => c'.1 = c.1 ∧ (c'.2 = c.2 ∨ changes c.1 c.2 c'.2)

namespace Tree

/-- A mapping gets further entries. No two of its keys read the same then, and it is an alias still if it was one. -/
inductive Widened (changes : Tree → Tree → Tree → Prop) : Tree → Tree → Prop
  | mapping {entries entries' : Entries} : entries.Widened changes entries' →
      (entries'.filterMap (·.1.keyText?)).Nodup →
      (∀ target, Reference.aliasTarget? (.mapping entries) = some target →
        Reference.aliasTarget? (.mapping entries') = some target) →
          Widened changes (.mapping entries) (.mapping entries')
  | tagged {tag : String} {value value' : Tree} : Widened changes value value' →
      Widened changes (.tagged tag value) (.tagged tag value')

/-- A path item gets further operations. -/
def WidenedItem : Tree → Tree → Prop := Widened fun _ _ _ => False

/-- Path items get further operations, and there may be further path items. -/
def WidenedPaths : Tree → Tree → Prop := Widened fun _ => WidenedItem

/-- Entries are appended to a mapping. -/
def Appended (tree tree' : Tree) : Prop := Widened (fun _ _ _ => False) tree tree' ∧
  ∃ entries more, tree.asMapping? = some entries ∧ tree'.asMapping? = some (entries ++ more)

/-- Component schemas are appended. -/
def WidenedComponents : Tree → Tree → Prop :=
  Widened fun key value value' => key = .text "schemas" ∧ Appended value value'

/-- A tree gets further entries in mappings of it. -/
inductive Extended : Tree → Tree → Prop
  | refl (tree : Tree) : Extended tree tree
  | widened {changes : Tree → Tree → Tree → Prop} {tree tree' : Tree} : Widened changes tree tree' →
      (∀ {key value value'}, changes key value value' → Extended value value') → Extended tree tree'

end Tree

/-- Operations are added to a document, and component schemas after those that it has. -/
def Document.Extends (d d' : Document) : Prop :=
  Tree.Widened (fun key value value' => key = .text "components" ∧ Tree.WidenedComponents value value' ∨
    key = .text "paths" ∧ Tree.WidenedPaths value value') d.root d'.root

namespace Tree

variable {changes : Tree → Tree → Tree → Prop}

/-! ## Entries -/

section Entries

variable {entries entries' : Entries}

theorem exists_mem_of_widened (h : entries.Widened changes entries') {c : Tree × Tree} (hc : c ∈ entries) :
    ∃ c' ∈ entries', c'.1 = c.1 ∧ (c'.2 = c.2 ∨ changes c.1 c.2 c'.2) := by
  induction h with
  | nil => cases hc
  | @cons first first' _ _ hfirst _ ih =>
    rcases List.mem_cons.1 hc with rfl | hc
    · exact ⟨first', List.mem_cons_self, hfirst⟩
    · obtain ⟨c', hc', h⟩ := ih hc
      exact ⟨c', List.mem_cons_of_mem _ hc', h⟩
  | cons_right _ ih =>
    obtain ⟨c', hc', h⟩ := ih hc
    exact ⟨c', List.mem_cons_of_mem _ hc', h⟩

/-- Where no two keys read the same, every entry is found by its segment. -/
theorem find?_of_mem {c : Tree × Tree} {segment : String} (hn : (entries.filterMap (·.1.keyText?)).Nodup)
    (hc : c ∈ entries) (hsegment : c.1.keyText? = some segment) :
    (entries.find? fun c => c.1.keyText? == some segment) = some c := by
  induction entries with
  | nil => cases hc
  | cons first rest ih =>
    rcases List.mem_cons.1 hc with rfl | hc
    · exact List.find?_cons_of_pos (by simp [hsegment])
    · have hne : first.1.keyText? ≠ some segment := by
        intro hfirst
        rw [List.filterMap_cons_some (f := fun c : Tree × Tree => c.1.keyText?) hfirst] at hn
        exact (List.nodup_cons.1 hn).1 (List.mem_filterMap.2 ⟨c, hc, hsegment⟩)
      rw [List.find?_cons_of_neg (by simpa using hne)]
      exact ih (hn.sublist ((List.sublist_cons_self first rest).filterMap _)) hc

theorem get?_widened (h : entries.Widened changes entries') (hn : (entries'.filterMap (·.1.keyText?)).Nodup)
    {key : String} {value : Tree} (hvalue : entries.get? key = some value) :
    ∃ value', entries'.get? key = some value' ∧ (value' = value ∨ changes (.text key) value value') := by
  obtain ⟨c', hc', hkey, hchange⟩ := exists_mem_of_widened h (mem_of_get? hvalue)
  have hc : (Tree.text key, c'.2) = c' := Prod.ext hkey.symm rfl
  exact ⟨c'.2, get?_of_mem hn (hc ▸ hc'), hchange⟩

theorem sizeOfEntries_widened (h : entries.Widened changes entries')
    (hsize : ∀ {key value value'}, changes key value value' → value.size ≤ value'.size) :
    sizeOfEntries entries ≤ sizeOfEntries entries' := by
  induction h with
  | nil => exact Nat.zero_le _
  | @cons c c' _ _ hc _ ih =>
    obtain ⟨hkey, hvalue⟩ := hc
    have hle : c.2.size ≤ c'.2.size := hvalue.elim (fun heq => heq ▸ Nat.le_refl _) hsize
    rw [sizeOfEntries, sizeOfEntries, hkey]
    omega
  | cons_right _ ih =>
    rw [sizeOfEntries]
    omega

theorem length_occurrencesOfEntries_widened (h : entries.Widened changes entries') (pointer : String)
    (hlength : ∀ {key value value'}, changes key value value' → ∀ pointer,
      (Reference.occurrences value pointer).length ≤ (Reference.occurrences value' pointer).length) :
    (Reference.occurrencesOfEntries entries pointer).length ≤
      (Reference.occurrencesOfEntries entries' pointer).length := by
  induction h with
  | nil => exact Nat.zero_le _
  | @cons c c' _ _ hc _ ih =>
    obtain ⟨hkey, hvalue⟩ := hc
    have hle (pointer : String) :
        (Reference.occurrences c.2 pointer).length ≤ (Reference.occurrences c'.2 pointer).length :=
      hvalue.elim (fun heq => heq ▸ Nat.le_refl _) fun hchange => hlength hchange pointer
    rw [Reference.occurrencesOfEntries, Reference.occurrencesOfEntries, hkey, List.length_append, List.length_append]
    refine Nat.add_le_add ?_ ih
    cases c.1.keyText? with
    | none => exact Nat.le_refl _
    | some segment => exact hle _
  | cons_right _ ih =>
    rw [Reference.occurrencesOfEntries, List.length_append]
    exact Nat.le_trans ih (Nat.le_add_left _ _)

end Entries

/-! ## A mapping with further entries -/

namespace Widened

variable {tree tree' : Tree}

theorem entries (h : Widened changes tree tree') : ∃ entries entries', tree.asMapping? = some entries ∧
    tree'.asMapping? = some entries' ∧ entries.Widened changes entries' ∧
      (entries'.filterMap (·.1.keyText?)).Nodup := by
  induction h with
  | mapping h hn _ => exact ⟨_, _, rfl, rfl, h, hn⟩
  | tagged _ ih => exact ih

/-- An alias stays one. -/
theorem aliasTarget (h : Widened changes tree tree') {target : String} (ht : Reference.aliasTarget? tree = some target) :
    Reference.aliasTarget? tree' = some target := by
  induction h with
  | mapping _ _ halias => exact halias target ht
  | tagged _ ih => exact ih ht

theorem get? (h : Widened changes tree tree') {key : String} {value : Tree} (hvalue : tree.get? key = some value) :
    ∃ value', tree'.get? key = some value' ∧ (value' = value ∨ changes (.text key) value value') := by
  obtain ⟨entries, entries', hentries, hentries', hwidened, hn⟩ := h.entries
  rw [Tree.get?, hentries, Option.bind_some] at hvalue
  rw [Tree.get?, hentries', Option.bind_some]
  exact get?_widened hwidened hn hvalue

theorem step (h : Widened changes tree tree') {segment : String} {found : Tree}
    (hfound : Pointer.step? tree segment = some found) :
    ∃ found', Pointer.step? tree' segment = some found' ∧ (found' = found ∨ ∃ key, changes key found found') := by
  cases h with
  | mapping h hn _ =>
    rw [Pointer.step?] at hfound ⊢
    obtain ⟨c, hc, rfl⟩ := Option.map_eq_some_iff.1 hfound
    obtain ⟨c', hc', hkey, hchange⟩ := exists_mem_of_widened h (List.mem_of_find?_eq_some hc)
    have hsegment : c'.1.keyText? = some segment := by
      rw [hkey]
      simpa using List.find?_some hc
    exact ⟨c'.2, by rw [find?_of_mem hn hc' hsegment]; rfl, hchange.imp_right fun h => ⟨_, h⟩⟩
  | tagged _ => cases hfound

theorem size_le (h : Widened changes tree tree')
    (hsize : ∀ {key value value'}, changes key value value' → value.size ≤ value'.size) : tree.size ≤ tree'.size := by
  induction h with
  | mapping h _ _ =>
    rw [size, size]
    exact Nat.add_le_add_left (sizeOfEntries_widened h hsize) 1
  | tagged _ ih =>
    rw [size, size]
    exact Nat.add_le_add_left ih 1

theorem length_occurrences_le (h : Widened changes tree tree') (pointer : String)
    (htext : ∀ {key value value'}, changes key value value' → ∀ {s}, value.asText? = some s → value'.asText? = some s)
    (hlength : ∀ {key value value'}, changes key value value' → ∀ pointer,
      (Reference.occurrences value pointer).length ≤ (Reference.occurrences value' pointer).length) :
    (Reference.occurrences tree pointer).length ≤ (Reference.occurrences tree' pointer).length := by
  induction h with
  | @mapping entries entries' h hn _ =>
    have hreference {reference : String} (href : Reference.textOf? entries = some reference) :
        Reference.textOf? entries' = some reference := by
      obtain ⟨value, hvalue, hreference⟩ := Option.bind_eq_some_iff.1 href
      obtain ⟨value', hvalue', hchange⟩ := get?_widened h hn hvalue
      refine Option.bind_eq_some_iff.2 ⟨value', hvalue', ?_⟩
      exact hchange.elim (fun heq => heq ▸ hreference) fun hchange => htext hchange hreference
    rw [Reference.occurrences, Reference.occurrences, List.length_append, List.length_append]
    refine Nat.add_le_add ?_ (length_occurrencesOfEntries_widened h pointer hlength)
    cases href : Reference.textOf? entries with
    | none => exact Nat.zero_le _
    | some reference => rw [hreference href]
  | tagged _ ih =>
    rw [Reference.occurrences, Reference.occurrences]
    exact ih

end Widened

/-! ## A tree with further entries -/

namespace Extended

variable {tree tree' root root' : Tree}

/-- A tree that gets entries is a mapping. -/
theorem eq_or_entries (h : Extended tree tree') :
    tree' = tree ∨ ∃ entries entries', tree.asMapping? = some entries ∧ tree'.asMapping? = some entries' := by
  cases h with
  | refl => exact .inl rfl
  | widened h _ =>
    obtain ⟨entries, entries', hentries, hentries', -⟩ := h.entries
    exact .inr ⟨entries, entries', hentries, hentries'⟩

theorem asText (h : Extended tree tree') {s : String} (hs : tree.asText? = some s) : tree'.asText? = some s := by
  obtain rfl | ⟨entries, entries', hentries, -⟩ := h.eq_or_entries
  · exact hs
  · rw [asText?, untag_of_asMapping? hentries] at hs
    cases hs

theorem aliasTarget (h : Extended tree tree') {target : String} (ht : Reference.aliasTarget? tree = some target) :
    Reference.aliasTarget? tree' = some target := by
  cases h with
  | refl => exact ht
  | widened h _ => exact h.aliasTarget ht

theorem size_le (h : Extended tree tree') : tree.size ≤ tree'.size := by
  induction h with
  | refl => exact Nat.le_refl _
  | widened h _ ih => exact h.size_le ih

theorem length_occurrences_le (h : Extended tree tree') (pointer : String) :
    (Reference.occurrences tree pointer).length ≤ (Reference.occurrences tree' pointer).length := by
  induction h generalizing pointer with
  | refl => exact Nat.le_refl _
  | widened h hchanges ih => exact h.length_occurrences_le pointer (fun hchange => (hchanges hchange).asText) ih

theorem chainBound_le (h : Extended root root') : Reference.chainBound root ≤ Reference.chainBound root' :=
  Nat.add_le_add_right (h.length_occurrences_le "#") 2

theorem step (h : Extended tree tree') {segment : String} {found : Tree}
    (hfound : Pointer.step? tree segment = some found) :
    ∃ found', Pointer.step? tree' segment = some found' ∧ Extended found found' := by
  cases h with
  | refl => exact ⟨found, hfound, .refl found⟩
  | widened h hchanges =>
    obtain ⟨found', hfound', rfl | ⟨key, hchange⟩⟩ := h.step hfound
    · exact ⟨found', hfound', .refl found'⟩
    · exact ⟨found', hfound', hchanges hchange⟩

/-- What stands at a pointer stands there still, perhaps with further entries. -/
theorem lookup (h : Extended root root') {pointer : String} {found : Tree}
    (hfound : Pointer.lookup? root pointer = some found) :
    ∃ found', Pointer.lookup? root' pointer = some found' ∧ Extended found found' := by
  have hfollow : ∀ (parts : List (List Char)) {tree tree' : Tree}, Extended tree tree' →
      Pointer.follow? tree parts = some found →
        ∃ found', Pointer.follow? tree' parts = some found' ∧ Extended found found' := by
    intro parts
    induction parts with
    | nil =>
      intro tree tree' h hfound
      cases hfound
      exact ⟨tree', rfl, h⟩
    | cons part parts ih =>
      intro tree tree' h hfound
      obtain ⟨next, hnext, hfound⟩ := Option.bind_eq_some_iff.1 hfound
      obtain ⟨next', hnext', h⟩ := h.step hnext
      obtain ⟨found', hfound', h⟩ := ih h hfound
      exact ⟨found', Option.bind_eq_some_iff.2 ⟨next', hnext', hfound'⟩, h⟩
  unfold Pointer.lookup? at hfound ⊢
  split at hfound
  · cases hfound
    exact ⟨root', rfl, h⟩
  · exact hfollow _ h hfound
  · cases hfound

/-- A tree that is the same schema after it got entries is an alias if it was one. -/
theorem aliasTarget_eq (h : Extended tree tree') (hsame : tree.SameSchema tree') :
    Reference.aliasTarget? tree' = Reference.aliasTarget? tree := by
  obtain rfl | ⟨entries, entries', hentries, hentries'⟩ := h.eq_or_entries
  · rfl
  · exact Interpretation.aliasTarget_sameSchema hentries hentries' (hsame.entries hentries hentries')

/-- A tree that is the same schema after it got entries is interpreted as before. -/
theorem level_eq (h : Extended tree tree') (hsame : tree.SameSchema tree') (r : Resolver)
    (visit : Interpretation.Visit) (id : SchemaId) :
    Interpretation.level r visit tree' id = Interpretation.level r visit tree id := by
  obtain rfl | ⟨entries, entries', hentries, hentries'⟩ := h.eq_or_entries
  · rfl
  · exact Interpretation.level_sameSchema hentries hentries' (hsame.entries hentries hentries') r visit id

/-- A chain of references goes the same way, and ends at the same pointer if the same schema stands there. -/
theorem chase (h : Extended root root') : ∀ {fuel fuel' : Nat} {passed : List String} {current : String}
    {found : Reference.Resolved}, fuel ≤ fuel' → Reference.chase root fuel passed current = .ok found →
      (∀ node', Pointer.lookup? root' found.pointer = some node' → found.node.SameSchema node') →
        ∃ node', Reference.chase root' fuel' passed current = .ok ⟨found.pointer, node'⟩ ∧
          Extended found.node node' ∧ found.node.SameSchema node'
  | 0, _, _, _, _, _, hfound, _ => by cases hfound
  | fuel + 1, 0, _, _, _, hle, _, _ => absurd hle (by omega)
  | fuel + 1, fuel' + 1, passed, current, found, hle, hfound, hsame => by
    rw [Reference.chase] at hfound ⊢
    split at hfound
    · cases hfound
    · next hhash =>
      split at hfound
      · cases hfound
      · next hpassed =>
        rw [if_neg hhash, if_neg hpassed]
        split at hfound
        · cases hfound
        · next node hnode =>
          obtain ⟨node', hnode', hextended⟩ := h.lookup hnode
          rw [hnode']
          dsimp only
          split at hfound
          · next next hnext =>
            rw [hextended.aliasTarget hnext]
            exact chase h (Nat.le_of_succ_le_succ hle) hfound hsame
          · next hend =>
            cases hfound
            rw [hextended.aliasTarget_eq (hsame node' hnode'), hend]
            exact ⟨node', rfl, hextended, hsame node' hnode'⟩

end Extended

end Tree

namespace Document

variable {d d' : Document}

/-- What stands at the pointer of a definition is the same schema in both documents. -/
def Keeps (d d' : Document) (k : SchemaId) : Prop := ∀ tree tree', Pointer.lookup? d.root k.pointer = some tree →
  Pointer.lookup? d'.root k.pointer = some tree' → tree.SameSchema tree'

theorem Extends.extended (h : d.Extends d') : Tree.Extended d.root d'.root := by
  have hsame {tree tree' : Tree} (h : Tree.Widened (fun _ _ _ => False) tree tree') : Tree.Extended tree tree' :=
    .widened h False.elim
  refine .widened h ?_
  rintro key value value' (⟨-, hcomponents⟩ | ⟨-, hpaths⟩)
  · exact .widened hcomponents fun hschemas => hsame hschemas.2.1
  · exact .widened hpaths fun hitem => hsame hitem

/-- The component schemas come first, as they were. -/
theorem Extends.componentSchemas (h : d.Extends d') {entries : Entries} (hentries : d.componentSchemas? = some entries) :
    ∃ more, d'.componentSchemas? = some (entries ++ more) := by
  obtain ⟨schemas, hschemas, hmapping⟩ := Option.bind_eq_some_iff.1 hentries
  obtain ⟨components, hcomponents, hschemas⟩ := Option.bind_eq_some_iff.1 hschemas
  have hfound {components' schemas' : Tree} {more : Entries} (hcomponents' : d'.root.get? "components" = some components')
      (hschemas' : components'.get? "schemas" = some schemas') (hmapping' : schemas'.asMapping? = some (entries ++ more)) :
      ∃ more, d'.componentSchemas? = some (entries ++ more) :=
    ⟨more, by rw [componentSchemas?, hcomponents', Option.bind_some, hschemas', Option.bind_some, hmapping']⟩
  have hnone : schemas.asMapping? = some (entries ++ []) := by rwa [List.append_nil]
  obtain ⟨components', hcomponents', rfl | ⟨-, hwidened⟩ | ⟨hkey, -⟩⟩ := h.get? hcomponents
  · exact hfound hcomponents' hschemas hnone
  · obtain ⟨schemas', hschemas', rfl | ⟨-, -, before, more, hbefore, hafter⟩⟩ := hwidened.get? hschemas
    · exact hfound hcomponents' hschemas' hnone
    · obtain rfl : before = entries := Option.some.inj (hbefore.symm.trans hmapping)
      exact hfound hcomponents' hschemas' hafter
  · simp at hkey

/-- Component schemas are the same schemas in the extended document. -/
theorem Extends.keeps_component (h : d.Extends d') {k : SchemaId} (hk : k ∈ d.componentIds) : d.Keeps d' k := by
  have hsome : (d.componentEntries.lookup k).isSome = true := by rwa [lookup_isSome_iff, map_componentEntries]
  obtain ⟨component, hcomponent⟩ := Option.isSome_iff_exists.1 hsome
  have hcomponent' : d'.componentEntries.lookup k = some component := by
    cases hentries : d.componentSchemas? with
    | none =>
      rw [componentEntries, hentries] at hcomponent
      cases hcomponent
    | some entries =>
      obtain ⟨more, hmore⟩ := h.componentSchemas hentries
      rw [componentEntries, hentries] at hcomponent
      rw [componentEntries, hmore, Option.getD_some, List.filterMap_append, List.lookup_append]
      rw [Option.getD_some] at hcomponent
      rw [hcomponent, Option.some_or]
  intro tree tree' htree htree' key _
  rw [lookup_eq_of_component hcomponent htree, lookup_eq_of_component hcomponent' htree']

end Document

end ContractBindings
