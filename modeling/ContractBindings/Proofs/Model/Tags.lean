import ContractBindings.Proofs.Model.Claims
import ContractBindings.Proofs.Schema.Discriminators

/-!
# Tags of variants

A union keeps its discriminator if no branch allows null and all are objects; then every variant has a tag, and else none
has (`ofGraph_tagged`). The tag is the one that was selected last for the schema of the branch, and an implied one if none
was. Tags tell the schemas of the branches apart, and each selection is there, exactly if the selections and the implied
tags leave no doubt (`tagsTell_iff`).
-/

namespace ContractBindings

open Interpretation

/-- The schema that a branch selects: the definition that it refers to, or itself. -/
def SchemaNode.selected (branch : SchemaNode) : SchemaId :=
  match branch.shape with
  | .reference target => target
  | _ => branch.id

/-- The tag of a branch for which none is selected: the last segment of a reference, or the name of the variant. -/
def UnionVariant.impliedTag (variant : UnionVariant) (branch : SchemaNode) : String :=
  match branch.shape with
  | .reference target => Pointer.lastSegment target.pointer
  | _ => variant.name

/-! ## When tags tell schemas apart -/

/-- The tag of a branch, of which the schema and the implied tag are given: the one that was selected last for the schema,
else the implied one. -/
def chosenTag (selections : List (SchemaId × String)) (branch : SchemaId × String) : String :=
  (selections.reverse.lookup branch.1).getD branch.2

/-- Selections of tags for schemas, and the schemas of branches with their implied tags, leave no doubt. -/
structure Unambiguous (selections branches : List (SchemaId × String)) : Prop where
  /-- One tag is selected for the schema of a branch. -/
  single : ∀ e ∈ selections, ∀ e' ∈ selections, e.1 ∈ branches.map (·.1) → e.1 = e'.1 → e.2 = e'.2
  /-- A tag is selected for one of the schemas of branches. -/
  shared : ∀ e ∈ selections, ∀ e' ∈ selections, e.1 ∈ branches.map (·.1) → e'.1 ∈ branches.map (·.1) → e.2 = e'.2 →
    e.1 = e'.1
  /-- No tag that is selected for the schema of a branch is implied for a branch. -/
  implied : ∀ e ∈ selections, e.1 ∈ branches.map (·.1) → ∀ b ∈ branches, b.1 ∉ selections.map (·.1) → b.2 ≠ e.2
  /-- The tags that are implied for branches of different schemas differ. -/
  apart : ∀ b ∈ branches, ∀ b' ∈ branches, b.1 ∉ selections.map (·.1) → b'.1 ∉ selections.map (·.1) → b.2 = b'.2 →
    b.1 = b'.1

section Choosing

variable {selections branches : List (SchemaId × String)} {b b' e : SchemaId × String}

theorem chosenTag_of_not_mem (h : b.1 ∉ selections.map (·.1)) : chosenTag selections b = b.2 := by
  have hnone : selections.reverse.lookup b.1 = none := by
    rw [lookup_eq_none_iff, List.map_reverse, List.mem_reverse]
    exact h
  rw [chosenTag, hnone, Option.getD_none]

theorem exists_chosenTag (h : b.1 ∈ selections.map (·.1)) : ∃ e ∈ selections, e.1 = b.1 ∧ chosenTag selections b = e.2 := by
  have hsome : (selections.reverse.lookup b.1).isSome = true := by
    rw [lookup_isSome_iff, List.map_reverse, List.mem_reverse]
    exact h
  obtain ⟨tag, htag⟩ := Option.isSome_iff_exists.1 hsome
  refine ⟨(b.1, tag), List.mem_reverse.1 (mem_of_lookup htag), rfl, ?_⟩
  rw [chosenTag, htag, Option.getD_some]

theorem mem_schemas (hb : b ∈ branches) (h : e.1 = b.1) : e.1 ∈ branches.map (·.1) := h ▸ List.mem_map_of_mem hb

namespace Unambiguous

/-- Without doubt, what is selected for the schema of a branch is its tag. -/
theorem chosenTag_eq (h : Unambiguous selections branches) (he : e ∈ selections) (hb : b ∈ branches) (heq : b.1 = e.1) :
    chosenTag selections b = e.2 := by
  have hmem : b.1 ∈ selections.map (·.1) := heq ▸ List.mem_map_of_mem he
  obtain ⟨e', he', hschema, hchosen⟩ := exists_chosenTag hmem
  exact hchosen.trans (h.single e' he' e he (mem_schemas hb hschema) (hschema.trans heq))

/-- Without doubt, branches with one tag have one schema. -/
theorem eq_of_chosenTag (h : Unambiguous selections branches) (hb : b ∈ branches) (hb' : b' ∈ branches)
    (htag : chosenTag selections b = chosenTag selections b') : b.1 = b'.1 := by
  by_cases hmem : b.1 ∈ selections.map (·.1)
  · obtain ⟨e, he, hschema, hchosen⟩ := exists_chosenTag hmem
    by_cases hmem' : b'.1 ∈ selections.map (·.1)
    · obtain ⟨e', he', hschema', hchosen'⟩ := exists_chosenTag hmem'
      rw [hchosen, hchosen'] at htag
      rw [← hschema, ← hschema']
      exact h.shared e he e' he' (mem_schemas hb hschema) (mem_schemas hb' hschema') htag
    · rw [hchosen, chosenTag_of_not_mem hmem'] at htag
      exact absurd htag.symm (h.implied e he (mem_schemas hb hschema) b' hb' hmem')
  · by_cases hmem' : b'.1 ∈ selections.map (·.1)
    · obtain ⟨e', he', hschema', hchosen'⟩ := exists_chosenTag hmem'
      rw [chosenTag_of_not_mem hmem, hchosen'] at htag
      exact absurd htag (h.implied e' he' (mem_schemas hb' hschema') b hb hmem)
    · rw [chosenTag_of_not_mem hmem, chosenTag_of_not_mem hmem'] at htag
      exact h.apart b hb b' hb' hmem hmem' htag

end Unambiguous

/-- The chosen tags tell the schemas of branches apart and are all that is selected for them, exactly if there is no
doubt. -/
theorem unambiguous_iff : Unambiguous selections branches ↔
    (∀ b ∈ branches, ∀ b' ∈ branches, chosenTag selections b = chosenTag selections b' → b.1 = b'.1) ∧
      ∀ e ∈ selections, ∀ b ∈ branches, b.1 = e.1 → chosenTag selections b = e.2 := by
  refine ⟨fun h => ⟨fun b hb b' hb' => h.eq_of_chosenTag hb hb', fun e he b hb => h.chosenTag_eq he hb⟩, ?_⟩
  rintro ⟨hapart, hsaid⟩
  constructor
  case single =>
    intro e he e' he' hbranch heq
    obtain ⟨b, hb, hschema⟩ := List.mem_map.1 hbranch
    exact (hsaid e he b hb hschema).symm.trans (hsaid e' he' b hb (hschema.trans heq))
  case shared =>
    intro e he e' he' hbranch hbranch' htag
    obtain ⟨b, hb, hschema⟩ := List.mem_map.1 hbranch
    obtain ⟨b', hb', hschema'⟩ := List.mem_map.1 hbranch'
    rw [← hschema, ← hschema']
    exact hapart b hb b' hb' (by rw [hsaid e he b hb hschema, hsaid e' he' b' hb' hschema', htag])
  case implied =>
    intro e he hbranch b hb hno htag
    obtain ⟨b', hb', hschema⟩ := List.mem_map.1 hbranch
    have heq := hapart b hb b' hb' (by rw [chosenTag_of_not_mem hno, hsaid e he b' hb' hschema, htag])
    rw [heq, hschema] at hno
    exact hno (List.mem_map_of_mem he)
  case apart =>
    intro b hb b' hb' hno hno' htag
    exact hapart b hb b' hb' (by rw [chosenTag_of_not_mem hno, chosenTag_of_not_mem hno', htag])

end Choosing

/-! ## Tags of a union -/

/-- The tags of variants tell the schemas of their branches apart, and are all that is selected for these schemas. -/
structure TagsTell (selections : List (SchemaId × String)) (variants : List (UnionVariant × SchemaNode)) : Prop where
  apart : ∀ p ∈ variants, ∀ q ∈ variants, p.2.selected ≠ q.2.selected → p.1.tag ≠ q.1.tag
  said : ∀ e ∈ selections, ∀ p ∈ variants, p.2.selected = e.1 → p.1.tag = some e.2

/-- What tells the tag of a variant: the schema of its branch, and the tag that is implied for it. -/
def tagBasis (p : UnionVariant × SchemaNode) : SchemaId × String := (p.2.selected, p.1.impliedTag p.2)

theorem tagsTell_iff {selections : List (SchemaId × String)} {variants : List (UnionVariant × SchemaNode)}
    (h : ∀ p ∈ variants, p.1.tag = some (chosenTag selections (tagBasis p))) :
    TagsTell selections variants ↔ Unambiguous selections (variants.map tagBasis) := by
  rw [unambiguous_iff]
  simp only [List.forall_mem_map]
  constructor
  · intro htell
    refine ⟨fun p hp q hq htag => ?_, fun e he p hp hschema => ?_⟩
    · by_contra hne
      exact htell.apart p hp q hq hne (by rw [h p hp, h q hq, htag])
    · exact Option.some.inj ((h p hp).symm.trans (htell.said e he p hp hschema))
  · rintro ⟨hapart, hsaid⟩
    refine ⟨fun p hp q hq hne htag => hne (hapart p hp q hq ?_), fun e he p hp hschema => ?_⟩
    · exact Option.some.inj ((h p hp).symm.trans (htag.trans (h q hq)))
    · rw [h p hp, hsaid e he p hp hschema]

namespace Lowering

/-- A union of variants for given branches, with the discriminator that is kept. -/
structure Tagged (branches : List SchemaNode) (discriminator : Option Discriminator) (variants : List UnionVariant)
    (kept : Option String) : Prop where
  length_eq : variants.length = branches.length
  dropped : kept = none → ∀ v ∈ variants, v.tag = none
  tagged : ∀ property, kept = some property → ∃ d, discriminator = some d ∧ d.property = property ∧
    (∀ branch ∈ branches, branch.nullable = false) ∧
      ∀ p ∈ variants.zip branches, p.1.tag = some ((d.tags.lookup p.2.selected).getD (p.1.impliedTag p.2))

variable {c : Context}

theorem unionVariants_tag : ∀ (r : Naming.Registry) (types : List TypeDescriptor), ∀ v ∈ unionVariants r types, v.tag = none
  | _, [], _, h => by cases h
  | r, type :: rest, v, h => by
    rcases List.mem_cons.1 h with rfl | h
    · rfl
    · exact unionVariants_tag _ rest v h

/-- Pairs whose first parts are made from pairs are made so with the same second parts. -/
theorem zip_map_zip {α β : Type} (f : α × β → α) {l : List α} {l' : List β} (h : l'.length ≤ l.length) :
    ((l.zip l').map f).zip l' = (l.zip l').map fun p => (f p, p.2) :=
  calc ((l.zip l').map f).zip l' = ((l.zip l').map f).zip ((l.zip l').map Prod.snd) := by rw [List.map_snd_zip h]
    _ = (l.zip l').map fun p => (f p, p.2) := List.zip_map'

theorem branchTag_eq (d : Discriminator) (variant : UnionVariant) (branch : SchemaNode) :
    branchTag d variant branch = (d.tags.lookup branch.selected).getD (variant.impliedTag branch) := by
  unfold branchTag SchemaNode.selected UnionVariant.impliedTag
  cases branch.shape <;> rfl

/-- With tags, the variants are those of a discriminator that is kept. -/
theorem tagged_of_kept {variants : List UnionVariant} {branches : List SchemaNode} (d : Discriminator)
    (hlength : variants.length = branches.length) (hnullable : ∀ branch ∈ branches, branch.nullable = false) :
    Tagged branches (some d) ((variants.zip branches).map fun (variant, branch) =>
      { variant with tag := some (branchTag d variant branch) }) (some d.property) := by
  refine ⟨?_, (fun h => by cases h), fun property hkept => ⟨d, rfl, Option.some.inj hkept, hnullable, fun p hp => ?_⟩⟩
  · rw [List.length_map, List.length_zip, hlength, Nat.min_self]
  · rw [zip_map_zip _ (Nat.le_of_eq hlength.symm)] at hp
    obtain ⟨q, -, rfl⟩ := List.mem_map.1 hp
    exact congrArg some (branchTag_eq d q.1 q.2)

/-- A union that is generated keeps its discriminator with a tag for every variant, or drops it with all tags. -/
theorem unionBody_tagged (name : String) (branches : List SchemaNode) (discriminator : Option Discriminator)
    {types : List TypeDescriptor} (hlength : types.length = branches.length) (s : Draft) :
    Ends (unionBody c name branches discriminator types) s
      (fun body _ => ∀ variants kept, body = .union variants kept → Tagged branches discriminator variants kept)
      fun _ _ => True := by
  have hcount : (unionVariants (Naming.Registry.reserving ["Self"]) types).length = branches.length := by
    rw [← hlength, ← List.length_map (f := fun v : UnionVariant => v.type), types_unionVariants]
  have hplain (discriminator : Option Discriminator) : Tagged branches discriminator
      (unionVariants (Naming.Registry.reserving ["Self"]) types) none :=
    ⟨hcount, fun _ => unionVariants_tag _ types, fun property h => by cases h⟩
  obtain ⟨x, hx, hbody⟩ := unionBody_as c name branches discriminator types
  rw [hbody]
  cases hx with
  | downgraded _ => exact .after fun _ _ => ends_pure.2 fun variants kept h => by cases h
  | plain _ =>
    refine ends_pure.2 ?_
    rintro variants kept ⟨⟩
    exact hplain _
  | @tagged d _ hdiscriminator hnullable =>
    subst hdiscriminator
    refine ends_pure.2 ?_
    rintro variants kept ⟨⟩
    exact tagged_of_kept d hcount hnullable
  | dropped _ _ =>
    refine .after fun _ _ => ends_pure.2 ?_
    rintro variants kept ⟨⟩
    exact hplain _

/-- Only a union becomes one. -/
theorem compose_tagged (id : SchemaId) (name : String) {shape : Shape} (h : isComposite shape = true) (s : Draft) :
    Ends (compose c id name shape) s (fun body _ => ∀ variants kept, body = .union variants kept →
      ∃ branches discriminator, shape = .union branches discriminator ∧ Tagged branches discriminator variants kept)
      fun _ _ => True := by
  cases shape with
  | object fields required additional =>
    rw [compose]
    refine .after fun p _ => .after fun value _ => ?_
    cases value with
    | some value => exact .after fun _ _ => ends_pure.2 fun variants kept h => by cases h
    | none => exact ends_pure.2 fun variants kept h => by cases h
  | enumeration values => exact ends_pure.2 fun variants kept h => by cases h
  | union branches discriminator =>
    rw [compose]
    refine ends_bind.2 ((lowerBranches_length c name 1 branches s).mono (fun types s' htypes => ?_) fun _ _ h => h)
    refine (unionBody_tagged name branches discriminator htypes s').mono (fun body _ h variants kept hbody => ?_)
      fun _ _ h => h
    exact ⟨branches, discriminator, rfl, h variants kept hbody⟩
  | intersection parts =>
    rw [compose]
    exact .after fun _ _ => ends_pure.2 fun variants kept h => by cases h
  | primitive kind format => cases h
  | array items => cases h
  | reference target => cases h
  | unknown => cases h

/-- A union of a model is made of one that stands at its source. It keeps the discriminator with a tag for every variant,
or drops it with all tags. -/
theorem ofGraph_tagged (g : SchemaGraph) (operations : List Operation) (target : Target) (config : Config) {t : TypeDef}
    (ht : t ∈ (Model.ofGraph g operations target config).types) {variants : List UnionVariant} {kept : Option String}
    (hbody : t.body = .union variants kept) :
    ∃ branches discriminator, g.Bears operations t.source (.union branches discriminator) ∧
      Tagged branches discriminator variants kept := by
  rcases ofGraph_composed g operations target config t ht with ⟨type, halias⟩ | ⟨c, shape, -, -, -, hbears, hcomposed⟩
  · rw [hbody] at halias
    cases halias
  · obtain ⟨hcomposite, s, s', hrun⟩ := hcomposed
    obtain ⟨branches, discriminator, rfl, htagged⟩ :=
      (compose_tagged (c := c) _ _ hcomposite s).answer hrun variants kept hbody
    exact ⟨branches, discriminator, hbears, htagged⟩

end Lowering

end ContractBindings
