import ContractBindings.Proofs.Generation.Stages
import ContractBindings.Proofs.Model.Claims
import ContractBindings.Proofs.Naming.RustWords

/-!
# Identifiers of a model for Rust

The identifiers of the fields of a type, of the parts of a composition and of what a request holds are claimed from one
registry, so they are different texts. They are different words for Rust, too, but in one case: a raw identifier got a
number, and there is also a name that is the reserved word with that number (`ofGraph_rustWords_nodup_iff`). So of the
properties `type`, `Type` and `type_2` the last two get the same identifier (`numbered_clashes_raw`).
-/

namespace ContractBindings

open Naming Lowering

/-- The name of the type of a part, if it has one. -/
def typeName? (part : Field) : Option String :=
  match part.type.kind with
  | .named name _ => some name
  | _ => none

/-- The names that the identifiers of a body are made of: those of the properties, or of the types of the parts. -/
def TypeBody.sourceNames : TypeBody → List String
  | .struct fields _ => fields.map (·.name)
  | .composite parts => parts.filterMap typeName?
  | _ => []

/-- The names that the identifiers of a request are made of. -/
def OperationDef.sourceNames (o : OperationDef) : List String := o.params.map (·.name)

theorem partsAsked_asked (number : Nat) (parts : List Field) : ∀ base ∈ partsAsked .rust number parts, RustAsked base := by
  induction parts generalizing number with
  | nil => exact fun base hbase => by cases hbase
  | cons part parts ih =>
    rw [partsAsked]
    refine List.forall_mem_cons.2 ⟨?_, ih (number + 1)⟩
    unfold partAsked
    split
    · exact rustIdent_asked _
    · exact part_asked number

theorem numbered_mem_partsAsked_iff {word : String} (hword : word ∈ rawWords) (k : Nat) (number : Nat)
    (parts : List Field) : Registry.numbered word k ∈ partsAsked .rust number parts ↔
      ∃ name ∈ parts.filterMap typeName?, snakeCase name = Registry.numbered word k := by
  induction parts generalizing number with
  | nil => simp [partsAsked]
  | cons part parts ih =>
    rw [partsAsked, List.mem_cons, ih (number + 1)]
    unfold partAsked
    split
    · next name recursive hkind =>
      have hname : typeName? part = some name := by rw [typeName?, hkind]
      rw [List.filterMap_cons_some hname, eq_comm (a := Registry.numbered word k)]
      rw [Target.fieldIdent.eq_1, or_congr_left (rustIdent_eq_numbered_iff hword k)]
      simp only [List.mem_cons, or_and_right, exists_or, exists_eq_left]
    · next hkind =>
      have hname : typeName? part = none := by
        unfold typeName?
        split
        · next name recursive heq => exact absurd heq (hkind name recursive)
        · rfl
      rw [List.filterMap_cons_none hname]
      exact or_iff_right (numbered_part_ne hword number k).symm

theorem additional_asked : RustAsked "additional_properties" := .of_form (by decide) (by decide)

theorem additional_ne_numbered {word : String} (hword : word ∈ rawWords) (k : Nat) :
    Registry.numbered word k ≠ "additional_properties" := by
  intro h
  have hwords := words_numbered_rawWord hword k
  have hno : ∀ word ∈ rawWords, word ≠ "additional" := by decide +kernel
  rw [h, show words "additional_properties".toList = ["additional".toList, "properties".toList] by decide] at hwords
  exact hno word hword (String.toList_inj.1 (List.cons.inj hwords).1).symm

/-- What is asked for the fields or parts of a body. -/
theorem TypeBody.askedIdents_asked (b : TypeBody) : ∀ base ∈ b.askedIdents .rust, RustAsked base := by
  cases b with
  | struct fields additional =>
    refine List.forall_mem_append.2 ⟨fun base hbase => ?_, fun base hbase => ?_⟩
    · obtain ⟨f, -, rfl⟩ := List.mem_map.1 hbase
      exact rustIdent_asked f.name
    · obtain ⟨f, -, rfl⟩ := List.mem_map.1 hbase
      exact additional_asked
  | composite parts => exact partsAsked_asked 1 parts
  | _ => exact fun base hbase => by cases hbase

theorem mem_map_rustIdent_iff {word : String} (hword : word ∈ rawWords) (k : Nat) (names : List String) :
    Registry.numbered word k ∈ names.map rustIdent ↔ ∃ name ∈ names, snakeCase name = Registry.numbered word k := by
  rw [List.mem_map]
  exact exists_congr fun name => and_congr_right fun _ => rustIdent_eq_numbered_iff hword k

theorem map_fieldIdent (names : List α) (nameOf : α → String) :
    names.map (fun a => Target.rust.fieldIdent (nameOf a)) = (names.map nameOf).map rustIdent := by
  simp only [Target.fieldIdent.eq_1, List.map_map, Function.comp_def]

theorem TypeBody.numbered_mem_askedIdents_iff (b : TypeBody) {word : String} (hword : word ∈ rawWords) (k : Nat) :
    Registry.numbered word k ∈ b.askedIdents .rust ↔
      ∃ name ∈ b.sourceNames, snakeCase name = Registry.numbered word k := by
  cases b with
  | struct fields additional =>
    have hadditional : Registry.numbered word k ∉ additional.toList.map fun _ => "additional_properties" := by
      intro hmem
      obtain ⟨f, -, heq⟩ := List.mem_map.1 hmem
      exact additional_ne_numbered hword k heq.symm
    rw [TypeBody.askedIdents, List.mem_append, or_iff_left hadditional, map_fieldIdent, TypeBody.sourceNames]
    exact mem_map_rustIdent_iff hword k _
  | composite parts => exact numbered_mem_partsAsked_iff hword k 1 parts
  | _ => simp [TypeBody.askedIdents, TypeBody.sourceNames]

theorem OperationDef.askedIdents_asked (o : OperationDef) : ∀ base ∈ o.askedIdents .rust, RustAsked base := by
  refine List.forall_mem_append.2 ⟨fun base hbase => ?_, fun base hbase => ?_⟩
  · obtain ⟨p, -, rfl⟩ := List.mem_map.1 hbase
    exact rustIdent_asked p.name
  · obtain ⟨b, -, rfl⟩ := List.mem_map.1 hbase
    exact .of_form (by decide) (by decide)

theorem OperationDef.numbered_mem_askedIdents_iff (o : OperationDef) {word : String} (hword : word ∈ rawWords) (k : Nat) :
    Registry.numbered word k ∈ o.askedIdents .rust ↔
      ∃ name ∈ o.sourceNames, snakeCase name = Registry.numbered word k := by
  have hbody : Registry.numbered word k ∉ o.body.toList.map fun _ => "body" := by
    intro hmem
    obtain ⟨b, -, heq⟩ := List.mem_map.1 hmem
    exact absurd (heq ▸ underscore_mem_numbered word k) (by decide)
  rw [OperationDef.askedIdents, List.mem_append, or_iff_left hbody, map_fieldIdent, OperationDef.sourceNames]
  exact mem_map_rustIdent_iff hword k _

/-- Identifiers are different words for Rust unless a raw one got a number and one of the names that they are made of is the
reserved word with that number. -/
def Distinguished (idents names : List String) : Prop :=
  (idents.map rustWord).Nodup ↔ ∀ word ∈ rawWords, ∀ k, "r#" ++ Registry.numbered word k ∈ idents →
    ∀ name ∈ names, snakeCase name ≠ Registry.numbered word k

theorem distinguished_of_claims {bases idents names : List String} (hidents : idents = (Registry.empty.claimAll bases).1)
    (hbases : ∀ base ∈ bases, RustAsked base) (hnames : ∀ word ∈ rawWords, ∀ k, Registry.numbered word k ∈ bases ↔
      ∃ name ∈ names, snakeCase name = Registry.numbered word k) : Distinguished idents names := by
  subst hidents
  refine (claimAll_rustWords_nodup_iff hbases).trans ?_
  refine forall_congr' fun word => forall_congr' fun hword => forall_congr' fun k => forall_congr' fun _ => ?_
  rw [hnames word hword k]
  exact ⟨fun hno name hname heq => hno ⟨name, hname, heq⟩, fun hno ⟨name, hname, heq⟩ => hno name hname heq⟩

namespace Generator

/-- In a model for Rust, the identifiers of the fields of a type, of the parts of a composition and of what a request holds
are different texts, and different words unless a raw one got a number and there is a name for the plain word with that
number. -/
theorem ofGraph_rustWords_nodup_iff (g : SchemaGraph) (operations : List Operation) (config : Config) :
    (∀ t ∈ (Model.ofGraph g operations .rust config).types, t.body.idents.Nodup ∧
      ((t.body.idents.map rustWord).Nodup ↔ ∀ word ∈ rawWords, ∀ k, "r#" ++ Registry.numbered word k ∈ t.body.idents →
        ∀ name ∈ t.body.sourceNames, snakeCase name ≠ Registry.numbered word k)) ∧
      ∀ o ∈ (Model.ofGraph g operations .rust config).operations, o.idents.Nodup ∧
        ((o.idents.map rustWord).Nodup ↔ ∀ word ∈ rawWords, ∀ k, "r#" ++ Registry.numbered word k ∈ o.idents →
          ∀ name ∈ o.sourceNames, snakeCase name ≠ Registry.numbered word k) := by
  obtain ⟨htypes, hoperations⟩ := ofGraph_claimed g operations .rust config
  constructor
  · intro t ht
    have hidents := (htypes t ht).idents
    refine ⟨hidents ▸ Registry.claimAll_nodup _ _, distinguished_of_claims hidents t.body.askedIdents_asked ?_⟩
    exact fun word hword k => t.body.numbered_mem_askedIdents_iff hword k
  · intro o ho
    have hidents : o.idents = (Registry.empty.claimAll (o.askedIdents .rust)).1 := hoperations o ho
    refine ⟨hidents ▸ Registry.claimAll_nodup _ _, distinguished_of_claims hidents o.askedIdents_asked ?_⟩
    exact fun word hword k => o.numbered_mem_askedIdents_iff hword k

/-- The text of a contract with an object whose properties ask for a raw identifier twice, and for its plain form with the
number that tells the two apart. -/
def keywordsText : String :=
  "\x7b\"components\":\x7b\"schemas\":\x7b\"A\":\x7b\"properties\":\x7b\"type\":\x7b\"type\":\"string\"\x7d,"
    ++ "\"Type\":\x7b\"type\":\"string\"\x7d,\"type_2\":\x7b\"type\":\"string\"\x7d\x7d\x7d\x7d\x7d\x7d"

/-- The second raw identifier and the plain one are the same word. -/
theorem numbered_clashes_raw : ∃ d e m, Document.load keywordsText .json = .ok d ∧ standard.extraction d = .ok e ∧
    standard.model e = .ok m ∧ ∃ t ∈ m.types, t.body.idents = ["r#type", "r#type_2", "type_2"] ∧
      ¬ (t.body.idents.map rustWord).Nodup := by
  have hrun : (Document.load keywordsText .json).toOption.bind (fun d => (standard.extraction d).toOption.bind fun e =>
      (standard.model e).toOption.map fun m => m.types.map fun t => t.body.idents) =
      some [["r#type", "r#type_2", "type_2"]] := by
    decide +kernel
  obtain ⟨d, hd, hrun⟩ := Option.bind_eq_some_iff.1 hrun
  obtain ⟨e, he, hrun⟩ := Option.bind_eq_some_iff.1 hrun
  obtain ⟨m, hm, hidents⟩ := Option.map_eq_some_iff.1 hrun
  obtain ⟨t, ht, htold⟩ := List.map_eq_singleton_iff.1 hidents
  refine ⟨d, e, m, ok_of_toOption hd, ok_of_toOption he, ok_of_toOption hm, t, ht ▸ List.mem_singleton_self t, htold, ?_⟩
  rw [htold]
  decide

end Generator

end ContractBindings
