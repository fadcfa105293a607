import ContractBindings.Proofs.Model.Claims
import ContractBindings.Proofs.Model.Words
import ContractBindings.Proofs.Naming.Legal

/-!
# Legal names in a model

That every name is one for a type is a convention where `Self` is taken (`Convention.typeNames`), as it is for the types of
the Rust target. The variants of a type are named after literals, after the types of branches and after what these are
made of, where `Self` is taken, too (`TypeBody.Obeys.variants`). The identifiers of fields and parameters are claimed for
names of fields (`TypeBody.Claimed.legal_idents`). So all names that a model for Rust gives to types, variants, fields and
parameters are Rust identifiers, whatever the document calls them (`ofGraph_rustIdentifiers`).
-/

namespace ContractBindings

open Naming Lowering

namespace Lowering

/-- All names are names of types. -/
def Convention.typeNames : Convention where
  registry r := "self" ∈ r.taken
  base b := Capitalized b ∧ Lettered b
  use name _ := TypeName name
  claimed {r b} hself hbase := ⟨Registry.typeName_claim hself hbase.1 hbase.2, r.le_claim b hself⟩
  titled title _ hcapital hlettered :=
    ⟨capitalized_pascalCaseOr title hcapital, (word_pascalCaseOr title (hcapital.word hlettered)).lettered⟩
  suffixed hbase hsuffix := ⟨hbase.1.append _, hbase.2.append hsuffix⟩
  inside h := ⟨h.capital, h.lettered⟩

/-- The names of definitions are names of types: `Self` is taken before any is claimed. -/
theorem named_typeNames (g : SchemaGraph) : ∀ p ∈ (named g .rust).names, TypeName p.2 := by
  intro p hp
  have hnames := (named_spec g .rust).1
  refine ⟨hnames.capital p hp, (named_words g .rust p hp).lettered, fun hself => ?_⟩
  have hnew := (hnames.claimed p hp).1
  rw [hself] at hnew
  exact hnew (by decide)

end Lowering

/-! ## Variants -/

theorem variantBase_legal {type : TypeDescriptor} (h : Convention.typeNames.Uses type.marks) :
    Capitalized (variantBase type) ∧ Lettered (variantBase type) := by
  have hplain {s : String} (hs : s.toList.head?.any Char.isUpper = true ∧ Lettered s) : Capitalized s ∧ Lettered s :=
    ⟨capitalized_of_head hs.1, hs.2⟩
  unfold variantBase
  split
  · next name mark hkind =>
    obtain ⟨kind, nullable⟩ := type
    obtain rfl : kind = .named name mark := hkind
    have hname : TypeName name := h (name, mark) List.mem_cons_self
    exact ⟨hname.capital, hname.lettered⟩
  · next scalar _ => cases scalar <;> exact hplain (by decide)
  all_goals exact hplain (by decide)

/-- The names of variants are names of types. -/
theorem TypeBody.Claimed.legal_variants {target : Target} {b : TypeBody} (h : b.Claimed target)
    (hb : b.Obeys Convention.typeNames) : ∀ name ∈ b.variantNames, TypeName name := by
  rw [h.variants]
  refine Registry.typeName_claimAll (by decide) fun base hbase => ?_
  cases b with
  | enumeration repr variants =>
    obtain ⟨v, -, rfl⟩ := List.mem_map.1 hbase
    exact ⟨capitalized_pascalCaseOr _ (capitalized_of_head rfl), (word_pascalCaseOr _ (by decide)).lettered⟩
  | union variants property =>
    obtain ⟨v, hv, rfl⟩ := List.mem_map.1 hbase
    exact variantBase_legal fun p hp =>
      hb.marks p (List.mem_flatMap.2 ⟨v.type, List.mem_map_of_mem hv, hp⟩)
  | _ => cases hbase

/-! ## Fields and parameters -/

theorem rustIdentifier_claimAll {r : Registry} {bases : List String} (h : ∀ base ∈ bases, RustField base) :
    ∀ name ∈ (r.claimAll bases).1, RustIdentifier name := by
  intro name hname
  obtain ⟨base, hbase, hgiven⟩ := Registry.exists_asked hname
  exact (h base hbase).given hgiven

theorem rustField_partsAsked : ∀ (number : Nat) (parts : List Field), ∀ base ∈ partsAsked .rust number parts,
    RustField base
  | _, [], _, h => by cases h
  | number, part :: rest, base, h => by
    rcases List.mem_cons.1 h with rfl | h
    · unfold partAsked
      split
      · exact rustField_rustIdent _
      · have hpart : PlainField "part" := plainField_of_form (by decide) rfl (by decide)
        exact .inl (hpart.numbered number)
    · exact rustField_partsAsked (number + 1) rest base h

/-- The identifiers of fields and parts are Rust identifiers. -/
theorem TypeBody.Claimed.legal_idents {b : TypeBody} (h : b.Claimed .rust) : ∀ ident ∈ b.idents, RustIdentifier ident := by
  rw [h.idents]
  refine rustIdentifier_claimAll fun base hbase => ?_
  cases b with
  | struct fields additional =>
    rcases List.mem_append.1 hbase with hbase | hbase
    · obtain ⟨f, -, rfl⟩ := List.mem_map.1 hbase
      exact rustField_rustIdent f.name
    · obtain ⟨f, -, rfl⟩ := List.mem_map.1 hbase
      exact .inl (plainField_of_form (by decide) rfl (by decide))
  | composite parts => exact rustField_partsAsked 1 parts base hbase
  | _ => cases hbase

/-- The identifiers of what a request holds are Rust identifiers. -/
theorem OperationDef.Claimed.legal_idents {o : OperationDef} (h : o.Claimed .rust) :
    ∀ ident ∈ o.idents, RustIdentifier ident := by
  rw [h]
  refine rustIdentifier_claimAll fun base hbase => ?_
  rcases List.mem_append.1 hbase with hbase | hbase
  · obtain ⟨p, -, rfl⟩ := List.mem_map.1 hbase
    exact rustField_rustIdent p.name
  · obtain ⟨b, -, rfl⟩ := List.mem_map.1 hbase
    exact .inl (plainField_of_form (by decide) rfl (by decide))

/-! ## The whole model -/

namespace Lowering

/-- **All names are legal.** The name of a field or parameter that is made of any text is a plain word or a raw one, and an
identifier, also with any number behind it. The names that definitions are given for Rust, generated or not, and those of
the types of a model and their variants, and of the request, the response and the service of an operation are identifiers
other than `Self`; and the identifiers of fields, parts, parameters and bodies are identifiers. -/
theorem ofGraph_rustIdentifiers (g : SchemaGraph) (operations : List Operation) (config : Config) :
    (∀ name, RustField (rustIdent name) ∧ RustIdentifier (rustIdent name) ∧
      ∀ k, RustIdentifier (Registry.numbered (rustIdent name) k)) ∧
    (∀ p ∈ (named g .rust).names, LegalName p.2) ∧
    (∀ t ∈ (Model.ofGraph g operations .rust config).types,
      LegalName t.name ∧ (∀ name ∈ t.body.variantNames, LegalName name) ∧ ∀ ident ∈ t.body.idents, RustIdentifier ident) ∧
    ∀ o ∈ (Model.ofGraph g operations .rust config).operations,
      LegalName o.request ∧ LegalName o.response ∧ LegalName o.service ∧ ∀ ident ∈ o.idents, RustIdentifier ident := by
  have hself : "self" ∈ (named g .rust).registry.taken := (named_spec g .rust).1.registry_le (by decide)
  obtain ⟨htypes, hoperations⟩ := ofGraph_obeys_of_names (k := .typeNames) config
    (fun r hle => hle hself) (fun p hp _ => named_typeNames g p hp) operations
  obtain ⟨hclaimed, hasked⟩ := ofGraph_claimed g operations .rust config
  refine ⟨fun name => ?_, fun p hp => (named_typeNames g p hp).legal, fun t ht => ?_, fun o ho => ?_⟩
  · have hfield := rustField_rustIdent name
    exact ⟨hfield, hfield.rustIdentifier, hfield.numbered⟩
  · obtain ⟨⟨_, hname⟩, hbody⟩ := htypes t ht
    exact ⟨TypeName.legal hname, fun name hmem => ((hclaimed t ht).legal_variants hbody name hmem).legal,
      (hclaimed t ht).legal_idents⟩
  · have hobeys := hoperations o ho
    exact ⟨TypeName.legal hobeys.request, TypeName.legal hobeys.response, TypeName.legal hobeys.service,
      (hasked o ho).legal_idents⟩

end Lowering

end ContractBindings
