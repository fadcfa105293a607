import Mathlib.Data.Option.Basic
import ContractBindings.Proofs.Document.Edges
import ContractBindings.Schema.Interpretation

/-!
# Documents with their components in another order

Of a mapping the interpretation of a schema looks only at the values under its keywords (`schemaKeys`). So two mappings
that hold the same under all of them are interpreted alike (`level_sameSchema`), and one is an alias if the other is
(`aliasTarget_sameSchema`).

The entries of one mapping of a document are put into another order (`Tree.Reordered`), where no two of its keys read the
same. The trees that hold the mapping change with it, all others stay as they are (`Tree.Shuffled`), and what is found by
a key or at a pointer is what was found there before, or a tree that was shuffled (`lookup_shuffled`). So references
resolve to the same pointers (`chase_shuffled`), and the component schemas are the same ones in another order
(`Shuffles.componentEntries`).
-/

namespace ContractBindings

/-! ## What is read of a schema -/

/-- The keys that are looked at when a mapping is interpreted as a schema. -/
def schemaKeys : List String :=
  Reference.shapeKeys ++
    ["$ref", "title", "description", "nullable", "required", "format", "discriminator"]

/-- Two trees hold the same under every keyword of schemas. -/
def Tree.SameSchema (tree tree' : Tree) : Prop := ∀ key ∈ schemaKeys, tree'.get? key = tree.get? key

/-- Two mappings hold the same under every keyword of schemas. -/
def Entries.SameSchema (entries entries' : Entries) : Prop := ∀ key ∈ schemaKeys, entries'.get? key = entries.get? key

theorem Tree.SameSchema.entries {tree tree' : Tree} {entries entries' : Entries} (h : tree.SameSchema tree')
    (hentries : tree.asMapping? = some entries) (hentries' : tree'.asMapping? = some entries') :
    entries.SameSchema entries' := by
  intro key hkey
  simpa [Tree.get?, hentries, hentries'] using h key hkey

namespace Interpretation

open Entries (SameSchema)

variable {entries entries' : Entries} {r : Resolver} {visit : Visit} {id : SchemaId}

theorem sequence_sameSchema (h : SameSchema entries entries') {key : String} (hkey : key ∈ schemaKeys) :
    sequence? entries' key = sequence? entries key := by
  rw [sequence?, sequence?, h key hkey]

theorem hasKey_sameSchema (h : SameSchema entries entries') {key : String} (hkey : key ∈ schemaKeys) :
    entries'.hasKey key = entries.hasKey key := by
  rw [Entries.hasKey, Entries.hasKey, h key hkey]

theorem text_sameSchema (h : SameSchema entries entries') {key : String} (hkey : key ∈ schemaKeys) :
    text? entries' key = text? entries key := by
  rw [text?, text?, h key hkey]

theorem declaredTypes_sameSchema (h : SameSchema entries entries') :
    declaredTypes entries' = declaredTypes entries := by
  rw [declaredTypes, declaredTypes, h "type" (by decide)]

theorem declaredValues_sameSchema (h : SameSchema entries entries') :
    declaredValues? entries' = declaredValues? entries := by
  rw [declaredValues?, declaredValues?, sequence_sameSchema h (by decide), h "const" (by decide)]

theorem branches_sameSchema (h : SameSchema entries entries') : branches? entries' = branches? entries := by
  rw [branches?, branches?, sequence_sameSchema h (by decide), sequence_sameSchema h (by decide)]

theorem textOf_sameSchema (h : SameSchema entries entries') :
    Reference.textOf? entries' = Reference.textOf? entries := by
  rw [Reference.textOf?, Reference.textOf?, h "$ref" (by decide)]

theorem union_sameSchema (h : SameSchema entries entries') (key : String) (branches : List Tree) :
    union r visit entries' id key branches = union r visit entries id key branches := by
  have hdiscriminator : discriminator r visit entries' id = discriminator r visit entries id := by
    rw [discriminator, discriminator, h "discriminator" (by decide)]
  rw [union, union, hdiscriminator]

theorem object_sameSchema (h : SameSchema entries entries') : object visit entries' id = object visit entries id := by
  have hrequired : requiredNames entries' = requiredNames entries := by
    rw [requiredNames, requiredNames, sequence_sameSchema h (by decide)]
  rw [object, object, hrequired, h "properties" (by decide), h "additionalProperties" (by decide)]

theorem array_sameSchema (h : SameSchema entries entries') : array visit entries' id = array visit entries id := by
  rw [array, array, h "items" (by decide)]

theorem typed_sameSchema (h : SameSchema entries entries') (declared : String) (id : SchemaId) :
    typed visit declared entries' id = typed visit declared entries id := by
  unfold typed
  simp only [text_sameSchema h (show "format" ∈ schemaKeys by decide), object_sameSchema h, array_sameSchema h]

theorem composition_sameSchema (h : SameSchema entries entries') (parts : List Tree) :
    composition visit entries' id parts = composition visit entries id parts := by
  rw [composition, composition, hasKey_sameSchema h (by decide), object_sameSchema h]

theorem severalTypes_sameSchema (h : SameSchema entries entries') (declared : List String) :
    severalTypes visit declared entries' id = severalTypes visit declared entries id := by
  unfold severalTypes
  simp only [typed_sameSchema h]

theorem shape_sameSchema (h : SameSchema entries entries') :
    shape r visit entries' id = shape r visit entries id := by
  unfold shape
  simp only [declaredTypes_sameSchema h, declaredValues_sameSchema h, branches_sameSchema h, textOf_sameSchema h,
    union_sameSchema h, object_sameSchema h, array_sameSchema h, typed_sameSchema h, composition_sameSchema h,
    severalTypes_sameSchema h, sequence_sameSchema h (show "allOf" ∈ schemaKeys by decide),
    hasKey_sameSchema h (show "properties" ∈ schemaKeys by decide),
    hasKey_sameSchema h (show "additionalProperties" ∈ schemaKeys by decide),
    hasKey_sameSchema h (show "items" ∈ schemaKeys by decide)]

variable {tree tree' : Tree} (hentries : tree.asMapping? = some entries) (hentries' : tree'.asMapping? = some entries')

include hentries hentries'

/-- A level reads a tree by its keywords. -/
theorem level_sameSchema (h : SameSchema entries entries') (r : Resolver) (visit : Visit) (id : SchemaId) :
    level r visit tree' id = level r visit tree id := by
  unfold level
  simp only [hentries, hentries', declaredTypes_sameSchema h, shape_sameSchema h, h "nullable" (by decide),
    text_sameSchema h (show "title" ∈ schemaKeys by decide),
    text_sameSchema h (show "description" ∈ schemaKeys by decide)]

/-- A node is an alias by its keywords. -/
theorem aliasTarget_sameSchema (h : SameSchema entries entries') :
    Reference.aliasTarget? tree' = Reference.aliasTarget? tree := by
  have hshape : Reference.shapeKeys.any entries'.hasKey = Reference.shapeKeys.any entries.hasKey := by
    rw [Bool.eq_iff_iff, List.any_eq_true, List.any_eq_true]
    exact exists_congr fun key => and_congr_right fun hkey => by
      rw [hasKey_sameSchema h (List.mem_append_left _ hkey)]
  unfold Reference.aliasTarget?
  rw [hentries, hentries', Option.bind_eq_bind, Option.bind_some, Option.bind_eq_bind, Option.bind_some,
    textOf_sameSchema h, hshape]

end Interpretation

namespace Tree

/-! ## Trees in another order -/

/-- A tree becomes another where the entries of the mapping under the given keys are put into another order. -/
inductive Reordered : List String → Tree → Tree → Prop
  | here {entries entries' : Entries} : entries.Perm entries' → (entries.filterMap (·.1.keyText?)).Nodup →
      Reordered [] (.mapping entries) (.mapping entries')
  | under {key : String} {path : List String} {value value' : Tree} {before after : Entries} :
      before.get? key = none → Reordered path value value' →
        Reordered (key :: path) (.mapping (before ++ (.text key, value) :: after))
          (.mapping (before ++ (.text key, value') :: after))
  | tagged {path : List String} {tag : String} {value value' : Tree} : Reordered path value value' →
      Reordered path (.tagged tag value) (.tagged tag value')

/-- A tree of a document, and the tree in its place after the component schemas were put into another order. -/
def Shuffled (tree tree' : Tree) : Prop :=
  tree' = tree ∨ ∃ path, path <:+ ["components", "schemas"] ∧ Reordered path tree tree'

theorem Shuffled.refl (tree : Tree) : Shuffled tree tree := .inl rfl

/-! ## Entries in another order -/

section Entries

variable {entries entries' : Entries}

theorem get?_cons_text (name key : String) (value : Tree) (rest : Entries) :
    Entries.get? ((.text name, value) :: rest) key = if name == key then some value else rest.get? key := rfl

theorem get?_append (entries entries' : Entries) (key : String) :
    Entries.get? (entries ++ entries') key = (entries.get? key).or (entries'.get? key) := by
  induction entries with
  | nil => rfl
  | cons first rest ih =>
    obtain ⟨k, v⟩ := first
    rw [List.cons_append]
    cases k with
    | text name =>
      rw [get?_cons_text, get?_cons_text]
      split
      · rfl
      · exact ih
    | _ => exact ih

/-- Where no two keys read the same, every entry under a text key is found. -/
theorem get?_of_mem {key : String} {value : Tree} (hn : (entries.filterMap (·.1.keyText?)).Nodup)
    (hmem : (Tree.text key, value) ∈ entries) : entries.get? key = some value := by
  induction entries with
  | nil => cases hmem
  | cons first rest ih =>
    have hrest : (rest.filterMap (·.1.keyText?)).Nodup :=
      hn.sublist ((List.sublist_cons_self first rest).filterMap _)
    obtain ⟨k, v⟩ := first
    rcases List.mem_cons.1 hmem with heq | hmem'
    · cases heq
      rw [get?_cons_text, BEq.rfl, if_pos rfl]
    · cases k with
      | text name =>
        have hkeys : (name :: rest.filterMap (·.1.keyText?)).Nodup := hn
        have hne : name ≠ key := by
          rintro rfl
          exact (List.nodup_cons.1 hkeys).1 (List.mem_filterMap.2 ⟨_, hmem', rfl⟩)
        have hname : (name == key) = false := by simpa using hne
        rw [get?_cons_text, hname]
        exact ih hrest hmem'
      | _ => exact ih hrest hmem'

theorem get?_perm (h : entries.Perm entries') (hn : (entries.filterMap (·.1.keyText?)).Nodup) (key : String) :
    entries'.get? key = entries.get? key := by
  have hn' : (entries'.filterMap (·.1.keyText?)).Nodup := (h.filterMap _).nodup_iff.1 hn
  refine Option.ext fun value => ⟨fun hvalue => ?_, fun hvalue => ?_⟩
  · exact get?_of_mem hn (h.symm.subset (mem_of_get? hvalue))
  · exact get?_of_mem hn' (h.subset (mem_of_get? hvalue))

/-- Where no two keys read the same, the entry that a segment leads to does not depend on the order. -/
theorem find?_perm (h : entries.Perm entries') (hn : (entries.filterMap (·.1.keyText?)).Nodup) (segment : String) :
    (entries'.find? fun c => c.1.keyText? == some segment) = entries.find? fun c => c.1.keyText? == some segment := by
  induction h with
  | nil => rfl
  | cons c h ih =>
    rw [List.find?_cons, List.find?_cons, ih (hn.sublist ((List.sublist_cons_self _ _).filterMap _))]
  | swap a b rest =>
    rw [List.find?_cons, List.find?_cons, List.find?_cons, List.find?_cons]
    cases ha : a.1.keyText? == some segment with
    | false => rfl
    | true =>
      cases hb : b.1.keyText? == some segment with
      | false => rfl
      | true =>
        simp [eq_of_beq ha, eq_of_beq hb] at hn
  | trans h _ ih ih' => rw [ih' ((h.filterMap _).nodup_iff.1 hn), ih hn]

end Entries

/-! ## What is found in a shuffled tree -/

/-- Two mappings hold the same under all keys but those on the way to the component schemas. -/
def SameKeywords (entries entries' : Entries) : Prop :=
  ∀ key, key ≠ "components" → key ≠ "schemas" → entries'.get? key = entries.get? key

/-- No keyword of schemas is on the way to the component schemas. -/
theorem SameKeywords.sameSchema {entries entries' : Entries} (h : SameKeywords entries entries') :
    entries.SameSchema entries' := by
  have hkeys : ∀ key ∈ schemaKeys, key ≠ "components" ∧ key ≠ "schemas" := by decide
  exact fun key hkey => h key (hkeys key hkey).1 (hkeys key hkey).2

theorem Reordered.keywords {path : List String} {tree tree' : Tree} (h : Reordered path tree tree')
    (hpath : path <:+ ["components", "schemas"]) :
    ∃ entries entries', tree.asMapping? = some entries ∧ tree'.asMapping? = some entries' ∧
      SameKeywords entries entries' := by
  induction h with
  | here h hn => exact ⟨_, _, rfl, rfl, fun key _ _ => get?_perm h hn key⟩
  | @under key path value value' before after hbefore _ ih =>
    refine ⟨_, _, rfl, rfl, fun other hcomponents hschemas => ?_⟩
    have hkey : key = "components" ∨ key = "schemas" := by simpa using hpath.subset List.mem_cons_self
    have hne : (key == other) = false := by
      rcases hkey with rfl | rfl <;> simp [Ne.symm hcomponents, Ne.symm hschemas]
    rw [get?_append, get?_append, get?_cons_text, get?_cons_text, hne]
    rfl
  | tagged _ ih => exact ih hpath

theorem Shuffled.keywords {tree tree' : Tree} (h : Shuffled tree tree') :
    (tree' = tree) ∨ ∃ entries entries', tree.asMapping? = some entries ∧ tree'.asMapping? = some entries' ∧
      SameKeywords entries entries' := by
  obtain rfl | ⟨path, hpath, h⟩ := h
  · exact .inl rfl
  · exact .inr (h.keywords hpath)

theorem step_shuffled {tree tree' : Tree} (h : Shuffled tree tree') (segment : String) :
    Option.Rel Shuffled (Pointer.step? tree segment) (Pointer.step? tree' segment) := by
  have hsame (found : Option Tree) : Option.Rel Shuffled found found := by
    cases found with
    | none => exact .none
    | some found => exact .some (.refl found)
  obtain rfl | ⟨path, hpath, h⟩ := h
  · exact hsame _
  · cases h with
    | here h hn =>
      rw [Pointer.step?, Pointer.step?, find?_perm h hn]
      exact hsame _
    | @under key rest value value' before after hbefore h =>
      have hrest : rest <:+ ["components", "schemas"] := (List.suffix_cons key rest).trans hpath
      have hvalue : Shuffled value value' := .inr ⟨rest, hrest, h⟩
      rw [Pointer.step?, Pointer.step?, List.find?_append, List.find?_append]
      cases hfound : before.find? fun c => c.1.keyText? == some segment with
      | some c => exact .some (.refl c.2)
      | none =>
        by_cases hkey : key = segment
        · simpa [keyText?, hkey] using Option.Rel.some hvalue
        · simpa [keyText?, hkey] using hsame _
    | tagged h => exact .none

/-- What stands at a pointer is shuffled. -/
theorem lookup_shuffled {root root' : Tree} (h : Shuffled root root') (pointer : String) :
    Option.Rel Shuffled (Pointer.lookup? root pointer) (Pointer.lookup? root' pointer) := by
  have hfollow : ∀ (parts : List (List Char)) {tree tree' : Tree}, Shuffled tree tree' →
      Option.Rel Shuffled (Pointer.follow? tree parts) (Pointer.follow? tree' parts) := by
    intro parts
    induction parts with
    | nil => exact fun h => .some h
    | cons part parts ih =>
      intro tree tree' h
      have hstep := step_shuffled h (String.ofList (Pointer.unescapeChars part))
      rw [Pointer.follow?, Pointer.follow?]
      revert hstep
      generalize Pointer.step? tree _ = found
      generalize Pointer.step? tree' _ = found'
      intro hstep
      cases hstep with
      | none => exact .none
      | some h => exact ih h
  unfold Pointer.lookup?
  split
  · exact .some h
  · exact hfollow _ h
  · exact .none

/-! ## Sizes and references -/

theorem sizeOfEntries_append (before after : Entries) :
    sizeOfEntries (before ++ after) = sizeOfEntries before + sizeOfEntries after := by
  induction before with
  | nil => exact (Nat.zero_add _).symm
  | cons c before ih =>
    rw [List.cons_append, sizeOfEntries, sizeOfEntries, ih]
    omega

theorem sizeOfEntries_perm {entries entries' : Entries} (h : entries.Perm entries') :
    sizeOfEntries entries' = sizeOfEntries entries := by
  induction h with
  | nil => rfl
  | cons c _ ih => rw [sizeOfEntries, sizeOfEntries, ih]
  | swap c c' entries =>
    rw [sizeOfEntries, sizeOfEntries, sizeOfEntries, sizeOfEntries]
    omega
  | trans _ _ ih ih' => rw [ih', ih]

theorem Reordered.size_eq {path : List String} {tree tree' : Tree} (h : Reordered path tree tree') :
    tree'.size = tree.size := by
  induction h with
  | here h _ => rw [size, size, sizeOfEntries_perm h]
  | under _ _ ih => rw [size, size, sizeOfEntries_append, sizeOfEntries_append, sizeOfEntries, sizeOfEntries, ih]
  | tagged _ ih => rw [size, size, ih]

theorem occurrencesOfEntries_eq (entries : Entries) (pointer : String) :
    Reference.occurrencesOfEntries entries pointer = entries.flatMap fun c =>
      match c.1.keyText? with
      | some segment => Reference.occurrences c.2 (Pointer.child pointer segment)
      | none => [] := by
  induction entries with
  | nil => rfl
  | cons c entries ih =>
    rw [Reference.occurrencesOfEntries, ih]
    rfl

/-- A shuffled tree holds as many references. -/
theorem Reordered.length_occurrences {path : List String} {tree tree' : Tree} (h : Reordered path tree tree')
    (hpath : path <:+ ["components", "schemas"]) (pointer : String) :
    (Reference.occurrences tree' pointer).length = (Reference.occurrences tree pointer).length := by
  induction h generalizing pointer with
  | here h hn =>
    have htext := congrArg (Option.bind · asText?) (get?_perm h hn "$ref")
    rw [Reference.occurrences, Reference.occurrences, Reference.textOf?, Reference.textOf?, htext, List.length_append,
      List.length_append, occurrencesOfEntries_eq, occurrencesOfEntries_eq, (h.flatMap_right _).length_eq]
  | @under key path value value' before after hbefore h ih =>
    have hrest : path <:+ ["components", "schemas"] := (List.suffix_cons key path).trans hpath
    obtain ⟨entries, entries', hentries, hentries', hkeywords⟩ := (Reordered.under hbefore h).keywords hpath
    cases hentries
    cases hentries'
    have htext := congrArg (Option.bind · asText?) (hkeywords "$ref" (by decide) (by decide))
    rw [Reference.occurrences, Reference.occurrences, Reference.textOf?, Reference.textOf?, htext, List.length_append,
      List.length_append, occurrencesOfEntries_eq, occurrencesOfEntries_eq]
    simp [keyText?, ih hrest]
  | tagged _ ih =>
    rw [Reference.occurrences, Reference.occurrences]
    exact ih hpath pointer

theorem aliasTarget_shuffled {tree tree' : Tree} (h : Shuffled tree tree') :
    Reference.aliasTarget? tree' = Reference.aliasTarget? tree := by
  obtain rfl | ⟨entries, entries', hentries, hentries', hkeywords⟩ := h.keywords
  · rfl
  · exact Interpretation.aliasTarget_sameSchema hentries hentries' hkeywords.sameSchema

theorem Shuffled.chainBound_eq {root root' : Tree} (h : Shuffled root root') :
    Reference.chainBound root' = Reference.chainBound root := by
  obtain rfl | ⟨path, hpath, h⟩ := h
  · rfl
  · rw [Reference.chainBound, Reference.chainBound, h.length_occurrences hpath]

theorem Shuffled.size_eq {tree tree' : Tree} (h : Shuffled tree tree') : tree'.size = tree.size := by
  obtain rfl | ⟨path, -, h⟩ := h
  · rfl
  · exact h.size_eq

/-- A chain of references that ends does so at the same pointer, and one that does not fails for the same cause. -/
theorem chase_shuffled {root root' : Tree} (h : Shuffled root root') : ∀ (fuel : Nat) (passed : List String)
    (current : String),
    (∃ cause, Reference.chase root fuel passed current = .error cause ∧
      Reference.chase root' fuel passed current = .error cause) ∨
    ∃ found found', Reference.chase root fuel passed current = .ok found ∧
      Reference.chase root' fuel passed current = .ok found' ∧ found'.pointer = found.pointer ∧
        Shuffled found.node found'.node
  | 0, _, _ => .inl ⟨.loop, rfl, rfl⟩
  | fuel + 1, passed, current => by
    have hlookup := lookup_shuffled h current
    rw [Reference.chase, Reference.chase]
    split
    · exact .inl ⟨_, rfl, rfl⟩
    · split
      · exact .inl ⟨_, rfl, rfl⟩
      · revert hlookup
        generalize Pointer.lookup? root current = found
        generalize Pointer.lookup? root' current = found'
        intro hlookup
        cases hlookup with
        | none => exact .inl ⟨_, rfl, rfl⟩
        | @some node node' hnode =>
          dsimp only
          rw [aliasTarget_shuffled hnode]
          cases Reference.aliasTarget? node with
          | none => exact .inr ⟨_, _, rfl, rfl, rfl, hnode⟩
          | some next => exact chase_shuffled h fuel (current :: passed) next

/-! ## Component schemas -/

theorem Reordered.get? {key : String} {path : List String} {tree tree' : Tree}
    (h : Reordered (key :: path) tree tree') :
    ∃ value value', tree.get? key = some value ∧ tree'.get? key = some value' ∧ Reordered path value value' := by
  generalize hkeys : key :: path = keys at h
  induction h with
  | here _ _ => cases hkeys
  | @under other rest value value' before after hbefore h _ =>
    cases hkeys
    have hget (value : Tree) : Entries.get? (before ++ (.text key, value) :: after) key = some value := by
      rw [get?_append, hbefore, Option.none_or, get?_cons_text, BEq.rfl, if_pos rfl]
    exact ⟨value, value', hget value, hget value', h⟩
  | tagged _ ih => exact ih hkeys

theorem Reordered.entries {tree tree' : Tree} (h : Reordered [] tree tree') :
    ∃ entries entries', tree.asMapping? = some entries ∧ tree'.asMapping? = some entries' ∧ entries.Perm entries' ∧
      (entries.filterMap (·.1.keyText?)).Nodup := by
  generalize hkeys : [] = keys at h
  induction h with
  | here h hn => exact ⟨_, _, rfl, rfl, h, hn⟩
  | under _ _ _ => cases hkeys
  | tagged _ ih => exact ih hkeys

end Tree

namespace Document

variable {d d' : Document}

/-- The component schemas of a document, no two of whose keys read the same, are put into another order. -/
def Reorders (d d' : Document) : Prop := Tree.Reordered ["components", "schemas"] d.root d'.root

theorem Reorders.shuffled (h : d.Reorders d') : Tree.Shuffled d.root d'.root :=
  .inr ⟨_, List.suffix_rfl, h⟩

theorem Reorders.componentEntries (h : d.Reorders d') :
    d.componentEntries.Perm d'.componentEntries ∧ (d.componentEntries.map (·.1)).Nodup := by
  obtain ⟨components, components', hcomponents, hcomponents', h⟩ := h.get?
  obtain ⟨schemas, schemas', hschemas, hschemas', h⟩ := h.get?
  obtain ⟨entries, entries', hentries, hentries', hperm, hn⟩ := h.entries
  have hd : d.componentSchemas? = some entries := by
    rw [componentSchemas?, hcomponents, Option.bind_some, hschemas, Option.bind_some, hentries]
  have hd' : d'.componentSchemas? = some entries' := by
    rw [componentSchemas?, hcomponents', Option.bind_some, hschemas', Option.bind_some, hentries']
  constructor
  · rw [Document.componentEntries, Document.componentEntries, hd, hd']
    exact hperm.filterMap _
  · rw [map_componentEntries, componentIds, hd]
    have hids : (entries.filterMap fun c => c.1.keyText?.map (SchemaId.child ⟨"#/components/schemas"⟩)) =
        (entries.filterMap (·.1.keyText?)).map (SchemaId.child ⟨"#/components/schemas"⟩) := by
      rw [List.map_filterMap]
    exact hids ▸ hn.map fun _ _ => SchemaId.child_injective

theorem Reorders.componentIds (h : d.Reorders d') : d.componentIds.Perm d'.componentIds := by
  rw [← map_componentEntries, ← map_componentEntries]
  exact h.componentEntries.1.map _

/-- What a definition stands for is shuffled. -/
theorem Reorders.tree? (h : d.Reorders d') (k : SchemaId) : Option.Rel Tree.Shuffled (d.tree? k) (d'.tree? k) := by
  obtain ⟨hperm, hn⟩ := h.componentEntries
  have hlookup : d'.componentEntries.lookup k = d.componentEntries.lookup k := by
    have hn' : (d'.componentEntries.map (·.1)).Nodup := (hperm.map _).nodup_iff.1 hn
    refine Option.ext fun tree => ⟨fun htree => ?_, fun htree => ?_⟩
    · exact lookup_of_mem hn (hperm.symm.subset (mem_of_lookup htree))
    · exact lookup_of_mem hn' (hperm.subset (mem_of_lookup htree))
  unfold Document.tree?
  rw [hlookup]
  cases d.componentEntries.lookup k with
  | none => exact Tree.lookup_shuffled h.shuffled k.pointer
  | some tree => exact .some (.refl tree)

end Document

end ContractBindings
