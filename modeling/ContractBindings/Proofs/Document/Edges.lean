import Mathlib.Data.Finset.Card
import Mathlib.Logic.Relation
import ContractBindings.Proofs.Schema.Calls
import ContractBindings.Proofs.Text.Numerals

/-!
# The graph of the definitions of a document

What a definition stands for is a tree of the document (`Document.tree?`): the component schema that it is, else the node
at its pointer. Where both are there they are the same (`tree?_of_lookup`), for a key that reads `components` or
`schemas` is a text: no number and no truth value is written with those letters.

A tree leads to the definitions that the references and tags in it resolve to, and a definition has an edge to those that
its tree leads to (`Document.Edge`). The graph is finite, so where no cycle is reached the edges can be followed only so
far (`acc_of_opens`).
-/

namespace ContractBindings

open Interpretation Reference

/-! ## Keys that are texts -/

namespace Number

theorem Numeral.c_not_mem {s : String} (h : Numeral s) : 'c' ∉ s.toList := h.not_mem (by decide)

theorem c_not_mem_scientific (d : Decimal) : 'c' ∉ (d.scientific "").toList := by
  have hdigits : 'c' ∉ Nat.toDigits 10 d.digits := by
    simpa only [String.toList_ofList] using (numeral_digits d.digits).c_not_mem
  have hlead : 'c' ∉ (Nat.toDigits 10 d.digits).take 1 := fun h => hdigits (List.mem_of_mem_take h)
  have hrest : 'c' ∉ (Nat.toDigits 10 d.digits).drop 1 := fun h => hdigits (List.mem_of_mem_drop h)
  have hexponent (i : Int) : 'c' ∉ (toString i).toList := (numeral_toString i).c_not_mem
  unfold Decimal.scientific
  dsimp only
  rw [ite_self, String.toList_append, String.toList_append, String.toList_append]
  simp only [List.mem_append, not_or]
  refine ⟨⟨⟨?_, by decide⟩, by decide⟩, hexponent _⟩
  split
  · rwa [String.toList_ofList]
  · simp only [String.toList_append, String.toList_ofList, List.mem_append, not_or]
    exact ⟨⟨hlead, by decide⟩, hrest⟩

theorem c_not_mem_treeText (x : Binary64) : 'c' ∉ x.treeText.toList := by
  unfold Binary64.treeText Binary64.mixed
  split
  · exact ((numeral_signText _).append (show Numeral "0.0" by decide)).c_not_mem
  · dsimp only
    rw [String.toList_append, List.mem_append, not_or]
    refine ⟨(numeral_signText _).c_not_mem, ?_⟩
    split
    · refine ((numeral_positional _).append ?_).c_not_mem
      split <;> decide
    · exact c_not_mem_scientific _
  · rw [String.toList_append, List.mem_append, not_or]
    exact ⟨(numeral_signText _).c_not_mem, by decide⟩
  · decide

end Number

namespace Tree

/-- A key that reads as a name with a `c` is a text. -/
theorem eq_text_of_keyText {key : Tree} {name : String} (h : key.keyText? = some name) (hc : 'c' ∈ name.toList) :
    key = .text name := by
  cases key with
  | text s =>
    cases h
    rfl
  | int i =>
    cases h
    exact absurd hc (Number.numeral_toString i).c_not_mem
  | float x =>
    cases h
    exact absurd hc (Number.c_not_mem_treeText x)
  | bool b =>
    cases h
    cases b <;> exact absurd hc (by decide)
  | _ => cases h

/-- Under a name with a `c` a pointer leads to what stands under that text. -/
theorem get?_of_step {entries : Entries} {value : Tree} {name : String} (hc : 'c' ∈ name.toList)
    (h : Pointer.step? (.mapping entries) name = some value) : entries.get? name = some value := by
  obtain ⟨⟨key, value⟩, hfound, rfl⟩ := Option.map_eq_some_iff.1 h
  clear h
  induction entries with
  | nil => cases hfound
  | cons first rest ih =>
    obtain ⟨k, v⟩ := first
    rw [List.find?_cons] at hfound
    split at hfound
    · next hk =>
      cases hfound
      obtain rfl := eq_text_of_keyText (by simpa using hk) hc
      simp [Entries.get?]
    · next hk =>
      have hne : k ≠ .text name := by
        rintro rfl
        simp [keyText?] at hk
      unfold Entries.get?
      split
      · cases ‹_ :: _ = []›
      · next k' v' rest' heq =>
        cases heq
        have hname : (k' == name) = false := by simpa using fun he => hne (congrArg Tree.text he)
        rw [hname]
        exact ih hfound
      · next heq =>
        cases heq
        exact ih hfound

end Tree

/-! ## What a definition stands for -/

namespace SchemaId

theorem child_injective {id : SchemaId} {s t : String} (h : id.child s = id.child t) : s = t := by
  by_contra hne
  exact apart_child hne (id.child s) (.inl rfl) (h ▸ .inl rfl)

end SchemaId

namespace Document

variable {d : Document}

/-- The component schemas with the definitions that they are. -/
def componentEntries (d : Document) : List (SchemaId × Tree) :=
  (d.componentSchemas?.getD []).filterMap fun c =>
    c.1.keyText?.map fun name => (SchemaId.child ⟨"#/components/schemas"⟩ name, c.2)

/-- What a definition stands for: the first component schema that it is, else the node at its pointer. -/
def tree? (d : Document) (k : SchemaId) : Option Tree :=
  (d.componentEntries.lookup k).or (Pointer.lookup? d.root k.pointer)

theorem map_componentEntries (d : Document) : d.componentEntries.map (·.1) = d.componentIds := by
  rw [componentEntries, componentIds, List.map_filterMap]
  congr 1
  funext c
  cases c.1.keyText? <;> rfl

theorem lookup_componentEntries (d : Document) (name : String) :
    d.componentEntries.lookup (SchemaId.child ⟨"#/components/schemas"⟩ name) =
      ((d.componentSchemas?.getD []).find? fun c => c.1.keyText? == some name).map (·.2) := by
  unfold componentEntries
  generalize d.componentSchemas?.getD [] = entries
  induction entries with
  | nil => rfl
  | cons c entries ih =>
    rw [List.find?_cons]
    cases hkey : c.1.keyText? with
    | none =>
      rw [List.filterMap_cons_none (by rw [hkey]; rfl), ih]
      rfl
    | some other =>
      rw [List.filterMap_cons_some (by rw [hkey]; rfl), List.lookup_cons]
      by_cases hname : other = name
      · subst hname
        simp
      · have hid : (SchemaId.child ⟨"#/components/schemas"⟩ name == SchemaId.child ⟨"#/components/schemas"⟩ other) =
            false := by simpa using fun h => hname (SchemaId.child_injective h).symm
        have hkey' : (some other == some name) = false := by simpa using hname
        rw [hid, hkey', ih]

/-- The way to a component schema. -/
theorem lookup_component (root : Tree) (name : String) :
    Pointer.lookup? root (SchemaId.child ⟨"#/components/schemas"⟩ name).pointer =
      ((Pointer.step? root "components").bind fun components => (Pointer.step? components "schemas").bind fun schemas =>
        Pointer.step? schemas name) := by
  have hway : Pointer.splitSlash ("components/schemas".toList ++ '/' :: Pointer.escapeChars name.toList) =
      ["components".toList, "schemas".toList, Pointer.escapeChars name.toList] := by
    rw [Pointer.splitSlash_append_slash, Pointer.splitSlash_of_not_mem (Pointer.slash_not_mem_escapeChars _)]
    rfl
  have hpointer : (SchemaId.child ⟨"#/components/schemas"⟩ name).pointer.toList =
      '#' :: '/' :: ("components/schemas".toList ++ '/' :: Pointer.escapeChars name.toList) := by
    rw [SchemaId.child_toList]
    rfl
  have hsegment : String.ofList (Pointer.unescapeChars (Pointer.escapeChars name.toList)) = name := by
    rw [Pointer.unescapeChars_escapeChars, String.ofList_toList]
  unfold Pointer.lookup?
  rw [hpointer]
  change Pointer.follow? root (Pointer.splitSlash _) = _
  have hcomponents : String.ofList (Pointer.unescapeChars "components".toList) = "components" := rfl
  have hschemas : String.ofList (Pointer.unescapeChars "schemas".toList) = "schemas" := rfl
  simp only [hway, Pointer.follow?, hcomponents, hschemas, hsegment, Option.bind_fun_some]

/-- The component schema that stands at the pointer of a definition is the definition's. -/
theorem lookup_eq_of_component {k : SchemaId} {component tree : Tree} (h : d.componentEntries.lookup k = some component)
    (hlookup : Pointer.lookup? d.root k.pointer = some tree) : tree = component := by
  obtain ⟨⟨key, value⟩, hmem, hentry⟩ := List.mem_filterMap.1 (mem_of_lookup h)
  obtain ⟨name, hname, hk⟩ := Option.map_eq_some_iff.1 hentry
  obtain rfl : SchemaId.child ⟨"#/components/schemas"⟩ name = k := congrArg Prod.fst hk
  rw [lookup_componentEntries] at h
  rw [lookup_component] at hlookup
  obtain ⟨components, hcomponents, hlookup⟩ := Option.bind_eq_some_iff.1 hlookup
  obtain ⟨schemas, hschemas, hlookup⟩ := Option.bind_eq_some_iff.1 hlookup
  have hmapping {tree value : Tree} {name : String} (hc : 'c' ∈ name.toList)
      (hnumber : Number.unsigned? name.toList = none) (hstep : Pointer.step? tree name = some value) :
      tree.get? name = some value := by
    cases tree with
    | mapping entries => exact Tree.get?_of_step hc hstep
    | sequence items =>
      rw [Pointer.step?, hnumber] at hstep
      cases hstep
    | _ => cases hstep
  have hentries : d.componentSchemas? = schemas.asMapping? := by
    rw [componentSchemas?, hmapping (by decide) (by decide) hcomponents, Option.bind_some,
      hmapping (by decide) (by decide) hschemas, Option.bind_some]
  cases schemas with
  | mapping entries =>
    rw [hentries] at h
    exact Option.some.inj (hlookup.symm.trans h)
  | sequence items =>
    rw [hentries] at h
    cases h
  | _ => cases hlookup

/-- What stands at the pointer of a definition is what the definition stands for. -/
theorem tree?_of_lookup {k : SchemaId} {tree : Tree} (h : Pointer.lookup? d.root k.pointer = some tree) :
    d.tree? k = some tree := by
  unfold tree?
  cases hcomponent : d.componentEntries.lookup k with
  | none => rw [Option.none_or, h]
  | some component => rw [lookup_eq_of_component hcomponent h, Option.some_or]

theorem partOf_of_tree? {k : SchemaId} {tree : Tree} (h : d.tree? k = some tree) : tree.PartOf d.root := by
  unfold tree? at h
  cases hcomponent : d.componentEntries.lookup k with
  | none =>
    rw [hcomponent, Option.none_or] at h
    exact Tree.partOf_of_lookup h
  | some component =>
    rw [hcomponent, Option.some_or] at h
    cases h
    obtain ⟨c, hc, hentry⟩ := List.mem_filterMap.1 (mem_of_lookup hcomponent)
    obtain ⟨name, -, hk⟩ := Option.map_eq_some_iff.1 hentry
    cases hk
    exact (of_mem_componentSchemas hc).1

/-! ## Edges -/

/-- A tree leads to the definitions that the references and tags of the schemas in it resolve to. -/
def LeadsTo (d : Document) (tree : Tree) (k : SchemaId) : Prop :=
  ∃ text found, tree.Leads text ∧ resolve d.root text "#" = .ok found ∧ k = ⟨found.pointer⟩

/-- An edge of the graph of definitions. -/
def Edge (d : Document) (j k : SchemaId) : Prop := ∃ tree, d.tree? j = some tree ∧ d.LeadsTo tree k

/-- A definition is reached from a tree over references and tags. -/
def Reaches (d : Document) (tree : Tree) (k : SchemaId) : Prop :=
  ∃ j, d.LeadsTo tree j ∧ Relation.ReflTransGen d.Edge j k

/-- The definitions that calls may open: component schemas, and what they and the schemas outside of them lead to. -/
inductive Opens (d : Document) (calls : List Call) : SchemaId → Prop
  | component {k : SchemaId} : k ∈ d.componentIds → Opens d calls k
  | inline {tree : Tree} {id k : SchemaId} : .inline tree id ∈ calls → d.LeadsTo tree k → Opens d calls k
  | edge {j k : SchemaId} : Opens d calls j → d.Edge j k → Opens d calls k

/-- The graph of the definitions that calls may open has no cycle. -/
def Acyclic (d : Document) (calls : List Call) : Prop := ∀ k, d.Opens calls k → ¬ Relation.TransGen d.Edge k k

theorem LeadsTo.mem_targets {tree : Tree} {k : SchemaId} (h : d.LeadsTo tree k) (htree : tree.PartOf d.root) :
    k ∈ targets d.root := by
  obtain ⟨text, found, hleads, hresolve, rfl⟩ := h
  rw [targets, List.mem_dedup, List.mem_filterMap]
  exact ⟨text, htree.links_subset hleads.mem_links, by rw [hresolve]; rfl⟩

theorem Edge.mem_targets {j k : SchemaId} (h : d.Edge j k) : k ∈ targets d.root := by
  obtain ⟨tree, htree, hleads⟩ := h
  exact hleads.mem_targets (partOf_of_tree? htree)

open Classical in
/-- Where no cycle is reached, the edges from a definition can be followed only so far: each step leaves fewer targets to
reach. -/
theorem acc_of_opens {calls : List Call} (hacyclic : d.Acyclic calls) {k : SchemaId} (hk : d.Opens calls k) :
    Acc (fun k j => Relation.TransGen d.Edge j k) k := by
  let reached (j : SchemaId) : Finset SchemaId := (targets d.root).toFinset.filter (Relation.TransGen d.Edge j)
  have hstep {j k : SchemaId} (hj : d.Opens calls j) (hjk : Relation.TransGen d.Edge j k) : d.Opens calls k := by
    induction hjk with
    | single h => exact hj.edge h
    | tail _ h ih => exact ih.edge h
  have hfewer {j k : SchemaId} (hj : d.Opens calls j) (hjk : Relation.TransGen d.Edge j k) :
      (reached k).card < (reached j).card := by
    refine Finset.card_lt_card (Finset.ssubset_iff_of_subset ?_ |>.2 ⟨k, ?_, ?_⟩)
    · intro x hx
      obtain ⟨hx, hkx⟩ := Finset.mem_filter.1 hx
      exact Finset.mem_filter.2 ⟨hx, hjk.trans hkx⟩
    · have htarget : k ∈ targets d.root := by
        obtain ⟨i, -, hik⟩ := Relation.TransGen.tail'_iff.1 hjk
        exact hik.mem_targets
      exact Finset.mem_filter.2 ⟨List.mem_toFinset.2 htarget, hjk⟩
    · intro hmem
      exact hacyclic k (hstep hj hjk) (Finset.mem_filter.1 hmem).2
  induction hsize : (reached k).card using Nat.strongRecOn generalizing k with
  | _ size ih =>
    subst hsize
    exact .intro k fun i hi => ih _ (hfewer hk hi) (hstep hk hi) rfl

/-- A rank that goes down along the links of every target shows that there is no cycle. -/
theorem acyclic_of_rank {calls : List Call} (rank : SchemaId → Nat)
    (h : ∀ j ∈ targets d.root, ∀ tree ∈ d.tree? j, ∀ text ∈ tree.links .plain,
      ∀ found ∈ (resolve d.root text "#").toOption, rank ⟨found.pointer⟩ < rank j) : d.Acyclic calls := by
  have hedge {j k : SchemaId} (hj : j ∈ targets d.root) (hjk : d.Edge j k) : rank k < rank j := by
    obtain ⟨tree, htree, text, found, hleads, hresolve, rfl⟩ := hjk
    exact h j hj tree htree text hleads.mem_links found (by rw [hresolve]; rfl)
  have hpath {j k : SchemaId} (hj : j ∈ targets d.root) (hjk : Relation.TransGen d.Edge j k) :
      rank k < rank j ∧ k ∈ targets d.root := by
    induction hjk with
    | single h => exact ⟨hedge hj h, h.mem_targets⟩
    | tail _ h ih => exact ⟨Nat.lt_trans (hedge ih.2 h) ih.1, h.mem_targets⟩
  intro k _ hcycle
  obtain ⟨i, -, hik⟩ := Relation.TransGen.tail'_iff.1 hcycle
  exact Nat.lt_irrefl _ (hpath hik.mem_targets hcycle).1

end Document

end ContractBindings
