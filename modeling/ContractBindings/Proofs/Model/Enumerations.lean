import ContractBindings.Items.OfModel
import ContractBindings.Proofs.Messages.Values
import ContractBindings.Proofs.Model.Generated
import ContractBindings.Proofs.Naming.Lettered
import ContractBindings.Proofs.Naming.Legal
import ContractBindings.Proofs.Text.Numerals

/-!
# Enumerations of a model

The type that literals of one kind become has one variant for each of them, in order, and the names of the variants stay
apart in every form that the targets write them in (`enumerationType_enumerates`). Lowering never fails on such literals:
as a definition (`run_lowerDefinition_enumeration`), where they are first met (`run_lower_enumeration`), and in the model of
a graph that defines them (`mem_ofGraph_enumeration`).
-/

namespace ContractBindings

open Naming Messages

/-- Variants for literals, one for each and in order, under Rust identifiers that differ in their snake forms. -/
structure VariantsFor (literals : List Literal) (variants : List EnumVariant) : Prop where
  values : variants.map (·.value) = literals
  legal : ∀ v ∈ variants, RustIdentifier v.name ∧ v.name ≠ "Self"
  forms : (variants.map fun v => snakeCase v.name).Nodup

/-- The names that an item gives to values: those of variants or of constants. -/
def Items.Item.valueNames : Items.Item → List String
  | .enumeration _ _ variants => variants.map (·.ident)
  | .constants _ values => values.map (·.1)
  | _ => []

/-- The type enumerates literals: it has variants for them, and in each target a value for each literal, under names that
differ. No constant has the name of the list of all constants, and the zero of the messages is the first of its names that
no value has. -/
structure TypeDef.Enumerates (t : TypeDef) (literals : List Literal) : Prop where
  variants : ∃ repr variants, t.body = .enumeration repr variants ∧ VariantsFor literals variants
  items : ((Items.ofType t).flatMap Items.Item.valueNames).Nodup
  items_length : ((Items.ofType t).flatMap Items.Item.valueNames).length = literals.length
  listed : ∀ name values, .constants name values ∈ Items.ofType t → "ALL" ∉ values.map (·.1)
  messages : (Declaration.ofType t).valueNames.Nodup
  zero : ∃ e times, Declaration.ofType t = .enumeration e ∧ e.values.length = literals.length ∧
    FirstFree (e.values.map (·.2)) (screamingSnakeCase t.name ++ "_UNSPECIFIED") times ∧
    e.zero = lengthened (screamingSnakeCase t.name ++ "_UNSPECIFIED") times

theorem VariantsFor.names_nodup {literals : List Literal} {variants : List EnumVariant} (h : VariantsFor literals variants) :
    (variants.map (·.name)).Nodup :=
  (List.pairwise_map.1 h.forms).map _ fun _ _ hne heq => hne (congrArg snakeCase heq)

namespace Lowering

variable {literals : List Literal} {repr : EnumRepr}

/-! ## Names -/

/-- The base of the name of a variant. -/
def variantName (literal : Literal) : String := pascalCaseOr literal.text "Value"

theorem capitalized_variantName (literal : Literal) : Capitalized (variantName literal) :=
  capitalized_pascalCaseOr _ (capitalized_of_head rfl)

/-- What names a literal that is no text begins unlike `ALL`. -/
theorem head?_variantName {literal : Literal} (h : ∀ s, literal ≠ .string s) :
    (variantName literal).toList.head? ≠ "ALL".toList.head? := by
  have hnumeral {s : String} (hs : Number.Numeral s) : (pascalCaseOr s "Value").toList.head? ≠ "ALL".toList.head? := by
    rw [pascalCaseOr_of_no_letter fun c hc => (hs c hc).isAlpha_eq_false]
    simp
  cases literal with
  | string s => exact absurd rfl (h s)
  | integer i => exact hnumeral (Number.numeral_toString i)
  | number x =>
    cases x with
    | finite negative m e => exact hnumeral (Number.numeral_plain rfl)
    | infinite negative => cases negative <;> decide
    | notANumber => decide
  | boolean b => cases b <;> decide

/-- Literals of a common kind other than texts are no texts. -/
theorem ne_string_of_enumRepr (h : enumRepr? literals = some repr) (hrepr : repr ≠ .string) :
    ∀ literal ∈ literals, ∀ s, literal ≠ .string s := by
  rintro _ hmem s rfl
  unfold enumRepr? at h
  split at h
  · cases h
    exact hrepr rfl
  · have hno {p : Literal → Bool} (hp : p (.string s) = false) : ¬ literals.all p = true := by
      intro hall
      rw [List.all_eq_true] at hall
      rw [hall _ hmem] at hp
      cases hp
    rw [if_neg (hno rfl), if_neg (hno rfl), if_neg (hno rfl)] at h
    cases h

/-- The type that literals become. -/
def enumerationType (id : SchemaId) (name : String) (doc : Option String) (repr : EnumRepr) (literals : List Literal) :
    TypeDef := ⟨name, id, doc, .enumeration repr (enumVariants (Registry.reserving ["Self"]) literals)⟩

theorem names_enumVariants (literals : List Literal) : (enumVariants (Registry.reserving ["Self"]) literals).map (·.name) =
    ((Registry.reserving ["Self"]).claimAll (literals.map variantName)).1 := (enumVariants_claims _ literals).1

/-- The name of a variant is given to one of the literals. -/
theorem exists_literal {v : EnumVariant} (hv : v ∈ enumVariants (Registry.reserving ["Self"]) literals) :
    ∃ literal ∈ literals, Registry.Given (variantName literal) v.name := by
  have hname : v.name ∈ ((Registry.reserving ["Self"]).claimAll (literals.map variantName)).1 :=
    names_enumVariants literals ▸ List.mem_map_of_mem hv
  obtain ⟨base, hbase, hgiven⟩ := Registry.exists_asked hname
  obtain ⟨literal, hliteral, rfl⟩ := List.mem_map.1 hbase
  exact ⟨literal, hliteral, hgiven⟩

theorem enumVariants_variantsFor (literals : List Literal) :
    VariantsFor literals (enumVariants (Registry.reserving ["Self"]) literals) := by
  obtain ⟨hforms, -⟩ := Registry.claimAll_forms (literals.map variantName) (Registry.reserving ["Self"])
  rw [← names_enumVariants] at hforms
  constructor
  case values => exact (enumVariants_claims _ literals).2
  case legal =>
    intro v hv
    have hname : v.name ∈ ((Registry.reserving ["Self"]).claimAll (literals.map variantName)).1 :=
      names_enumVariants literals ▸ List.mem_map_of_mem hv
    refine (Registry.typeName_claimAll (by decide) (fun base hbase => ?_) v.name hname).legal
    obtain ⟨literal, -, rfl⟩ := List.mem_map.1 hbase
    exact ⟨capitalized_variantName literal, (word_pascalCaseOr _ (by decide)).lettered⟩
  case forms =>
    rw [List.map_map] at hforms
    exact hforms

example : ((enumVariants (Registry.reserving ["Self"]) [.string "", .string "-", .string "self", .string "a", .string "A",
    .string "a_2"]).map (·.name)) = ["Value", "Value_2", "Self_2", "A", "A_2", "A2"] := by decide +kernel

/-- No constant has the name of the list of all. -/
theorem all_not_mem_constants (h : enumRepr? literals = some repr) (hrepr : repr ≠ .string) :
    "ALL" ∉ (enumVariants (Registry.reserving ["Self"]) literals).map fun v => screamingSnakeCase v.name := by
  intro hmem
  obtain ⟨v, hv, heq⟩ := List.mem_map.1 hmem
  obtain ⟨literal, hliteral, hgiven⟩ := exists_literal hv
  have hhead := head?_variantName (ne_string_of_enumRepr h hrepr literal hliteral)
  exact hgiven.screamingSnakeCase_ne (capitalized_variantName literal) hhead heq

/-- The names of the values in the items of an enumeration: as they are, or in capitals. -/
theorem itemNames_enumerationType (id : SchemaId) (name : String) (doc : Option String) (repr : EnumRepr)
    (literals : List Literal) :
    (Items.ofType (enumerationType id name doc repr literals)).flatMap Items.Item.valueNames =
      (enumVariants (Registry.reserving ["Self"]) literals).map fun v =>
        if repr = .string then v.name else screamingSnakeCase v.name := by
  cases repr <;> simp [enumerationType, Items.ofType, Items.textEnumeration, Items.constantEnumeration,
    Items.Item.valueNames, Function.comp_def]

/-- The type that literals of a common kind become enumerates them. -/
theorem enumerationType_enumerates (h : enumRepr? literals = some repr) (id : SchemaId) (name : String)
    (doc : Option String) : (enumerationType id name doc repr literals).Enumerates literals := by
  have hvariants := enumVariants_variantsFor literals
  have hlength : (enumVariants (Registry.reserving ["Self"]) literals).length = literals.length := by
    rw [← List.length_map (f := (·.value)), hvariants.values]
  constructor
  case variants => exact ⟨repr, _, rfl, hvariants⟩
  case items =>
    rw [itemNames_enumerationType]
    by_cases hrepr : repr = .string
    · simpa [hrepr] using hvariants.names_nodup
    · simpa [hrepr] using nodup_screamingSnakeCase hvariants.forms
  case items_length => rw [itemNames_enumerationType, List.length_map, hlength]
  case listed =>
    intro _ values hmem
    by_cases hrepr : repr = .string
    · subst hrepr
      simp [enumerationType, Items.ofType, Items.textEnumeration] at hmem
    · have hall := all_not_mem_constants h hrepr
      have hvalues : values.map (·.1) = (enumVariants (Registry.reserving ["Self"]) literals).map fun v =>
          screamingSnakeCase v.name := by
        cases repr <;> simp_all [enumerationType, Items.ofType, Items.constantEnumeration, Function.comp_def]
      rwa [hvalues]
  case messages =>
    have hclaimed := enumeration_claimed .protobuf repr literals
    exact valueNames_nodup (t := enumerationType id name doc repr literals) hclaimed
  case zero =>
    obtain ⟨times, -, hfirst, hzero⟩ := zeroName_firstFree
      (((Enumeration.ofVariants name (enumVariants (Registry.reserving ["Self"]) literals)).values).map (·.2))
      (screamingSnakeCase name ++ "_UNSPECIFIED")
    rw [List.length_map] at hzero
    refine ⟨_, times, rfl, ?_, hfirst, hzero⟩
    rw [← hlength]
    simp [Enumeration.ofVariants]

example : (Declaration.ofType (enumerationType ⟨"#"⟩ "Tone" none .string [.string "", .string "unspecified",
    .string "unspecified_value"])).valueNames =
      ["TONE_UNSPECIFIED_VALUE_VALUE", "TONE_VALUE", "TONE_UNSPECIFIED", "TONE_UNSPECIFIED_VALUE"] := by decide +kernel

/-! ## Lowering -/

variable {c : Context} {s : Draft} {node : SchemaNode}

theorem compose_enumeration (c : Context) (id : SchemaId) (name : String) (h : enumRepr? literals = some repr) :
    compose c id name (.enumeration literals) =
      pure (.enumeration repr (enumVariants (Registry.reserving ["Self"]) literals)) := by
  rw [compose, h, Option.getD_some]

/-- A definition that is an enumeration becomes its type, and nothing else happens. -/
theorem run_lowerDefinition_enumeration (c : Context) (id : SchemaId) (name : String) (s : Draft)
    (hshape : node.shape = .enumeration literals) (h : enumRepr? literals = some repr) :
    (lowerDefinition c id name node).run.run s =
      (.ok (), { s with types := enumerationType id name node.description repr literals :: s.types }) := by
  unfold lowerDefinition
  simp only [hshape, isComposite, h, Option.isSome_some, ↓reduceIte, compose_enumeration c id name h]
  rfl

/-- A node is met first: it is no definition and has no name. -/
structure Context.FirstMet (c : Context) (s : Draft) (id : SchemaId) : Prop where
  inline : c.graph.defines id = false
  before : c.inlineNames.lookup id = none
  unnamed : s.inlineNames.lookup id = none

/-- Nothing is known of an enumeration that is met first. -/
theorem run_known_enumeration (position : Position) (hshape : node.shape = .enumeration literals)
    (hfirst : c.FirstMet s node.id) : (known? c node position).run.run s = (.ok none, s) := by
  have hshapeless : shapelessDefinition c.graph node = none := by simp [shapelessDefinition, hfirst.inline, hshape]
  obtain ⟨x, hx, hrun⟩ := known?_as c node position s
  rw [hrun]
  cases hx with
  | refused _ _ hsome => simp [hshapeless] at hsome
  | definition hdefines => simp [hfirst.inline] at hdefines
  | named _ hname =>
    have hmem := hname.imp (List.mem_map_of_mem (f := (·.1))) (List.mem_map_of_mem (f := (·.1)))
    exact absurd hmem (not_or.2 ⟨lookup_eq_none_iff.1 hfirst.before, lookup_eq_none_iff.1 hfirst.unnamed⟩)
  | new _ _ _ => rfl

/-- An enumeration that is met first becomes a type behind those before it, and is used by its name. -/
theorem run_lower_enumeration (hint : String) (position : Position) (hshape : node.shape = .enumeration literals)
    (h : enumRepr? literals = some repr) (hfirst : c.FirstMet s node.id) :
    ∃ name s', (lower c hint position node).run.run s = (.ok (.mk (.named name false) node.nullable), s') ∧
      s'.types = s.types ++ [enumerationType node.id name node.description repr literals] := by
  have hknown := run_known_enumeration position hshape hfirst
  obtain ⟨id, title, description, nullable, shape⟩ := node
  obtain rfl : shape = .enumeration literals := hshape
  rw [lower, run_bind_of_ok hknown]
  simp only [isComposite, h, Option.isSome_some, ↓reduceIte, defineInline, compose_enumeration c id _ h]
  refine ⟨(s.registry.claim (inlineBase title hint)).1, _, rfl, ?_⟩
  show s.types.take s.types.length ++ _ :: s.types.drop s.types.length = _
  rw [List.take_length, List.drop_length]
  rfl

/-! ## Models -/

section Models

variable {g : SchemaGraph} {target : Target} {config : Config} {id : SchemaId}

/-- An enumeration that is a definition is not lost. -/
theorem enumeration_not_lost (hids : (g.definitions.map (·.id)).Nodup) (hd : ⟨id, .ok node⟩ ∈ g.definitions)
    (hshape : node.shape = .enumeration literals) (h : enumRepr? literals = some repr) : id ∉ lost g target config := by
  -- Lowering it does not fail and it refers to nothing, so what is lost stays among the other definitions.
  have hself {d : Definition} (hmem : d ∈ g.definitions) (hid : d.id = id) : d = ⟨id, .ok node⟩ :=
    List.inj_on_of_nodup_map hids hmem hd hid
  intro hlost
  refine lost_least hids (P := (· ≠ id)) (fun d hmem e hnode hid => ?_) (fun d hmem {_ _ _ _ _ _} hlowered _ hid => ?_)
    (fun d hmem n hnode y hy _ hid => ?_) id hlost rfl
  · rw [hself hmem hid] at hnode
    cases hnode
  · obtain rfl := hself hmem hid
    obtain ⟨hnode, -, hrun⟩ := hlowered
    cases hnode
    rw [run_lowerDefinition_enumeration _ _ _ _ hshape h] at hrun
    cases hrun
  · obtain rfl := hself hmem hid
    cases hnode
    rw [SchemaNode.references_eq, hshape] at hy
    cases hy

/-- The model of a graph has the type of an enumeration that is a definition. -/
theorem mem_ofGraph_enumeration (target : Target) (config : Config) (operations : List Operation)
    (hids : (g.definitions.map (·.id)).Nodup) (hd : ⟨id, .ok node⟩ ∈ g.definitions)
    (hshape : node.shape = .enumeration literals) (h : enumRepr? literals = some repr) :
    ∃ name, enumerationType id name node.description repr literals ∈
      (Model.ofGraph g operations target config).types := by
  have hlost : id ∉ lost g target config := enumeration_not_lost hids hd hshape h
  obtain ⟨p, hp, rfl⟩ := List.mem_map.1 ((mem_kept_iff hids (List.mem_map_of_mem hd)).2 hlost)
  obtain ⟨-, d, hmem, failed, r, node', name, hid, -, -, hlowered⟩ := kept_traced hp
  obtain rfl : d = ⟨p.1, .ok node⟩ := List.inj_on_of_nodup_map hids hmem hd hid
  obtain ⟨hnode, -, hrun⟩ := hlowered
  cases hnode
  rw [run_lowerDefinition_enumeration _ _ _ _ hshape h] at hrun
  obtain ⟨-, hdraft⟩ := Prod.mk.inj hrun
  obtain ⟨added, hadded, -⟩ := ofGraph_types target config hids operations
  refine ⟨name, ?_⟩
  rw [hadded, assembled_types, List.mem_append, List.mem_flatMap]
  exact .inl ⟨p, hp, hdraft ▸ List.mem_cons_self⟩

end Models

end Lowering

end ContractBindings
