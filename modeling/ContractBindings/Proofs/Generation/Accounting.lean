import ContractBindings.Generation
import ContractBindings.Proofs.Generation.Propagation
import ContractBindings.Proofs.Unit.Outcomes

/-!
# Nothing is swallowed

In a run that comes to its end, every entry of `paths` has one unit or one error, and so has every type of the model;
every definition is the source of one such type or has one error of its own (`run_accounts`). The units and the errors
of the stages add up to what there was (`Rest`), and the keys of errors do not mix: identifiers of operations are in
small letters, names of types begin with a capital letter, pointers with a number sign.
-/

namespace ContractBindings

open Naming Lowering

namespace Generation

/-- The number of units of a kind under a name. -/
def unitsFor (gen : Generation) (kind : UnitKind) (name : String) : Nat :=
  (gen.units.map CodeUnit.key).count (kind, name)

/-- There is one unit of a kind under a name and no error about it, or no unit and one error. -/
def Accounted (gen : Generation) (kind : UnitKind) (name : String) : Prop :=
  (gen.unitsFor kind name = 1 ∧ errorsAbout gen.diagnostics name = 0) ∨
    (gen.unitsFor kind name = 0 ∧ errorsAbout gen.diagnostics name = 1)

/-- The type of a definition has a unit. -/
def Renders (gen : Generation) (m : Model) (id : SchemaId) : Prop :=
  ∃ t ∈ m.types, t.source = id ∧ gen.unitsFor .model t.name = 1

theorem status_incomplete {gen : Generation} :
    gen.status = .incomplete ↔ ∃ unit, 0 < errorsAbout gen.diagnostics unit := by
  have hstatus : gen.status = .incomplete ↔ gen.diagnostics.any Diagnostic.isError = true := by
    rw [status, Status.ofDiagnostics]
    split
    · next h => simp [h]
    · next h =>
      split <;> simp [h]
  rw [hstatus, List.any_eq_true]
  simp only [errorsAbout, List.count_pos_iff, List.mem_map, List.mem_filter]
  constructor
  · rintro ⟨d, hd, he⟩
    exact ⟨d.unit, d, ⟨hd, he⟩, rfl⟩
  · rintro ⟨_, d, ⟨hd, he⟩, -⟩
    exact ⟨d, hd, he⟩

end Generation

namespace Generator

variable {g : Generator} {text : String} {format : Format} {gen : Generation}

/-- The stages of a run that comes to its end. -/
theorem run_stages (h : g.run text format = .ok gen) :
    ∃ d e m, Document.load text format = .ok d ∧ g.extraction d = .ok e ∧ g.model e = .ok m ∧
      gen = ⟨(CodeUnit.ofModel g.target d.info g.config m).1,
        Template.unknown g.config.templates ++ e.diagnostics ++ m.diagnostics ++
          (CodeUnit.ofModel g.target d.info g.config m).2⟩ := by
  unfold run at h
  cases hload : g.checkpoint .load with
  | error failure => simp [hload, bind, Except.bind] at h
  | ok _ =>
    cases hd : Document.load text format with
    | error failure => simp [hload, hd, bind, Except.bind] at h
    | ok d =>
      simp only [hload, hd, bind, Except.bind, ofDocument] at h
      cases he : g.extraction d with
      | error failure => simp [he] at h
      | ok e =>
        cases hm : g.model e with
        | error failure => simp [he, hm] at h
        | ok m =>
          cases hrender : g.checkpoint .render with
          | error failure => simp [he, hm, hrender] at h
          | ok _ =>
            simp only [he, hm, hrender] at h
            cases h
            exact ⟨d, e, m, rfl, he, hm, rfl⟩

section Names

variable {d : Document} {e : Extraction} {m : Model} (he : g.extraction d = .ok e)

include he

theorem lost_rooted {id : SchemaId} (hl : id ∈ lost e.slots.graph g.target g.config) :
    id.pointer.toList.head? = some '#' := by
  have hids : (e.slots.graph.definitions.map (·.id)).Nodup := Slots.graph_nodup (extraction_spec he).2.1
  obtain ⟨definition, hd, rfl⟩ := List.mem_map.1 ((kept_lost_perm hids).mem_iff.1 (List.mem_append_right _ hl))
  exact extraction_rooted he hd

variable (hm : g.model e = .ok m)

include hm

theorem model_nodup : (m.types.map (·.name)).Nodup := by
  rw [model_eq hm]
  exact types_nodup (Slots.graph_nodup (extraction_spec he).2.1) e.operations

theorem model_capitalized : ∀ t ∈ m.types, Capitalized t.name := by
  rw [model_eq hm]
  exact types_capitalized (Slots.graph_nodup (extraction_spec he).2.1) e.operations

end Names

/-- What every stage leaves out: operations at extraction, definitions and operations in the model, types and
operations at rendering. -/
structure Rest (g : Generator) (d : Document) (e : Extraction) (m : Model) (gen : Generation)
    (unbuilt unlowered : List String) (unrendered : List (UnitKind × String)) : Prop where
  entries : (e.operations.map (·.id) ++ unbuilt).Perm (d.operations.map g.config.operationNaming.identify)
  operations : (m.operations.map (·.id) ++ unlowered).Perm (e.operations.map (·.id))
  units : (gen.units.map CodeUnit.key ++ unrendered).Perm (CodeUnit.keys m)
  errors : ∀ unit, errorsAbout gen.diagnostics unit = unbuilt.count unit +
    ((lost e.slots.graph g.target g.config).map (·.pointer)).count unit + unlowered.count unit +
      (unrendered.map (·.2)).count unit

theorem errorsAbout_unknown (overrides : List (String × String)) (unit : String) :
    errorsAbout (Template.unknown overrides) unit = 0 := by
  have hnone : (Template.unknown overrides).filter Diagnostic.isError = [] := by
    rw [List.filter_eq_nil_iff]
    intro d hd
    obtain ⟨_, -, rfl⟩ := List.mem_map.1 hd
    exact Bool.false_ne_true
  rw [errorsAbout, hnone]
  rfl

/-- The errors of a run are what its stages leave out. -/
theorem run_rest {d : Document} {e : Extraction} {m : Model} (he : g.extraction d = .ok e) (hm : g.model e = .ok m)
    (hgen : gen = ⟨(CodeUnit.ofModel g.target d.info g.config m).1,
      Template.unknown g.config.templates ++ e.diagnostics ++ m.diagnostics ++
        (CodeUnit.ofModel g.target d.info g.config m).2⟩) :
    ∃ unbuilt unlowered unrendered, Rest g d e m gen unbuilt unlowered unrendered := by
  obtain ⟨ha, -, hlabels⟩ := extraction_spec he
  obtain ⟨unlowered, herrors, hoperations⟩ := ofGraph_errors e.slots.graph g.target g.config e.operations
  obtain ⟨unrendered, hunits, hunit, hrendering⟩ := CodeUnit.ofModel_accounts g.target d.info g.config m
  rw [← model_eq hm] at herrors hoperations
  refine ⟨(e.diagnostics.filter Diagnostic.isError).map (·.unit), unlowered, unrendered, ?_, hoperations, ?_, ?_⟩
  · refine ha.perm.trans ?_
    rw [hlabels]
    exact List.reverse_perm _
  · rw [hgen]
    exact hunits
  · intro unit
    have hmodel : errorsAbout m.diagnostics unit =
        ((lost e.slots.graph g.target g.config).map (·.pointer)).count unit + unlowered.count unit := by
      rw [errorsAbout, herrors, List.count_append, List.map_reverse, List.count_reverse]
    have hlast : errorsAbout (CodeUnit.ofModel g.target d.info g.config m).2 unit =
        (unrendered.map (·.2)).count unit := by
      rw [errorsAbout, List.filter_eq_self.2 hrendering, hunit]
    rw [hgen]
    dsimp only
    rw [errorsAbout_append, errorsAbout_append, errorsAbout_append, errorsAbout_unknown, hmodel, hlast, errorsAbout]
    omega

namespace Rest

variable {d : Document} {e : Extraction} {m : Model} {unbuilt unlowered : List String}
  {unrendered : List (UnitKind × String)}

theorem units_add (h : Rest g d e m gen unbuilt unlowered unrendered) (name : String) :
    gen.unitsFor .model name + unrendered.count (.model, name) = (m.types.map (·.name)).count name ∧
      gen.unitsFor .operation name + unrendered.count (.operation, name) = (m.operations.map (·.id)).count name := by
  rw [← (CodeUnit.count_keys m name).1, ← (CodeUnit.count_keys m name).2, ← h.units.count_eq, ← h.units.count_eq, List.count_append,
    List.count_append]
  exact ⟨rfl, rfl⟩

theorem operations_add (h : Rest g d e m gen unbuilt unlowered unrendered) (id : String) :
    (m.operations.map (·.id)).count id + unlowered.count id + unbuilt.count id =
      (d.operations.map g.config.operationNaming.identify).count id := by
  rw [← h.entries.count_eq, List.count_append, ← h.operations.count_eq, List.count_append]

/-- Something that stands in what rendering leaves out is a type or an operation of the model. -/
theorem mem_keys (h : Rest g d e m gen unbuilt unlowered unrendered) {item : UnitKind × String}
    (hitem : item ∈ unrendered) : (item.1 = .model ∧ item.2 ∈ m.types.map (·.name)) ∨
      (item.1 = .operation ∧ item.2 ∈ m.operations.map (·.id)) := by
  have hmem := h.units.mem_iff.1 (List.mem_append_right _ hitem)
  rcases List.mem_append.1 hmem with hmem | hmem
  · obtain ⟨t, ht, rfl⟩ := List.mem_map.1 hmem
    exact .inl ⟨rfl, List.mem_map_of_mem ht⟩
  · obtain ⟨o, ho, rfl⟩ := List.mem_map.1 hmem
    exact .inr ⟨rfl, List.mem_map_of_mem ho⟩

/-- What is left out of the operations, and those in the model, are entries of `paths`. -/
theorem mem_entries (h : Rest g d e m gen unbuilt unlowered unrendered) {id : String}
    (hid : id ∈ unbuilt ∨ id ∈ unlowered ∨ id ∈ m.operations.map (·.id)) :
    id ∈ d.operations.map g.config.operationNaming.identify := by
  rcases hid with hid | hid | hid
  · exact h.entries.mem_iff.1 (List.mem_append_right _ hid)
  · exact h.entries.mem_iff.1 (List.mem_append_left _ (h.operations.mem_iff.1 (List.mem_append_right _ hid)))
  · exact h.entries.mem_iff.1 (List.mem_append_left _ (h.operations.mem_iff.1 (List.mem_append_left _ hid)))

/-- A text that is no small name is none of an operation. -/
theorem count_operations (h : Rest g d e m gen unbuilt unlowered unrendered) {name : String} (hname : ¬ SmallLettered name) :
    unbuilt.count name = 0 ∧ unlowered.count name = 0 ∧ (m.operations.map (·.id)).count name = 0 := by
  have hnot : ¬ (name ∈ unbuilt ∨ name ∈ unlowered ∨ name ∈ m.operations.map (·.id)) := by
    intro hmem
    obtain ⟨entry, -, hentry⟩ := List.mem_map.1 (h.mem_entries hmem)
    exact hname (hentry ▸ g.config.operationNaming.smallLettered_identify entry)
  rw [not_or, not_or] at hnot
  exact ⟨List.count_eq_zero.2 hnot.1, List.count_eq_zero.2 hnot.2.1, List.count_eq_zero.2 hnot.2.2⟩

section Keys

variable (h : Rest g d e m gen unbuilt unlowered unrendered) (he : g.extraction d = .ok e) (hm : g.model e = .ok m)

include h he hm

/-- Every entry of `paths` has a unit or an error. -/
theorem entry_accounted {id : String} (hid : id ∈ d.operations.map g.config.operationNaming.identify) :
    gen.Accounted .operation id := by
  obtain ⟨entry, -, rfl⟩ := List.mem_map.1 hid
  have hsmall := g.config.operationNaming.smallLettered_identify entry
  generalize g.config.operationNaming.identify entry = id at hid hsmall
  have hlost : ((lost e.slots.graph g.target g.config).map (·.pointer)).count id = 0 := by
    refine List.count_eq_zero.2 fun hmem => ?_
    obtain ⟨lostId, hl, rfl⟩ := List.mem_map.1 hmem
    exact hsmall.ne_of_hash (lost_rooted he hl) rfl
  have htypes : (m.types.map (·.name)).count id = 0 := by
    refine List.count_eq_zero.2 fun hmem => ?_
    obtain ⟨t, ht, rfl⟩ := List.mem_map.1 hmem
    exact hsmall.ne_of_capitalized (model_capitalized he hm t ht) rfl
  have hone := List.count_eq_one_of_mem (extraction_nodup he) hid
  have herrors := h.errors id
  have hsplit := CodeUnit.count_map_snd unrendered id
  have hunits := h.units_add id
  have hoperations := h.operations_add id
  unfold Generation.Accounted
  omega

/-- Every type of the model has a unit or an error. -/
theorem type_accounted {t : TypeDef} (ht : t ∈ m.types) : gen.Accounted .model t.name := by
  have hcapital := model_capitalized he hm t ht
  have hlost : ((lost e.slots.graph g.target g.config).map (·.pointer)).count t.name = 0 := by
    refine List.count_eq_zero.2 fun hmem => ?_
    obtain ⟨lostId, hl, heq⟩ := List.mem_map.1 hmem
    exact hcapital.ne_of_hash (lost_rooted he hl) heq.symm
  have hone := List.count_eq_one_of_mem (model_nodup he hm) (List.mem_map_of_mem ht)
  have hcount := h.count_operations fun hsmall => hsmall.ne_of_capitalized hcapital rfl
  have herrors := h.errors t.name
  have hsplit := CodeUnit.count_map_snd unrendered t.name
  have hunits := h.units_add t.name
  unfold Generation.Accounted
  omega

/-- The errors about a definition are as many as it is lost. -/
theorem errorsAbout_pointer {definition : Definition} (hd : definition ∈ e.slots.graph.definitions) :
    errorsAbout gen.diagnostics definition.id.pointer =
      ((lost e.slots.graph g.target g.config).map (·.pointer)).count definition.id.pointer := by
  have hrooted := extraction_rooted he hd
  have htypes : (m.types.map (·.name)).count definition.id.pointer = 0 := by
    refine List.count_eq_zero.2 fun hmem => ?_
    obtain ⟨t, ht, heq⟩ := List.mem_map.1 hmem
    exact (model_capitalized he hm t ht).ne_of_hash hrooted heq
  have hcount := h.count_operations fun hsmall => hsmall.ne_of_hash hrooted rfl
  have herrors := h.errors definition.id.pointer
  have hsplit := CodeUnit.count_map_snd unrendered definition.id.pointer
  have hunits := h.units_add definition.id.pointer
  omega

/-- A definition has a type with a unit or an error, and no error of its own, or it has an error and no type. -/
theorem definition_accounted {definition : Definition} (hd : definition ∈ e.slots.graph.definitions) :
    (∃ t ∈ m.types, t.source = definition.id ∧ (∀ t' ∈ m.types, t'.source = definition.id → t' = t) ∧
      gen.Accounted .model t.name ∧ errorsAbout gen.diagnostics definition.id.pointer = 0) ∨
        (¬ m.Generates definition.id ∧ errorsAbout gen.diagnostics definition.id.pointer = 1) := by
  have hcount := count_lost he hm hd
  rw [h.errorsAbout_pointer he hm hd]
  by_cases hgen : m.Generates definition.id
  · obtain ⟨t, ht, hsource⟩ := hgen
    refine .inl ⟨t, ht, hsource, fun t' ht' hsource' => ?_, h.type_accounted he hm ht, hcount.1 ⟨t, ht, hsource⟩⟩
    have hdefines : e.slots.graph.defines t.source = true :=
      SchemaGraph.defines_iff.2 (hsource ▸ List.mem_map_of_mem hd)
    rw [model_eq hm] at ht ht'
    exact eq_of_source (Slots.graph_nodup (extraction_spec he).2.1) e.operations ht ht' hdefines
      (hsource'.trans hsource.symm)
  · exact .inr ⟨hgen, hcount.2 hgen⟩

/-- Every error is about an entry of `paths`, about a definition that is left out, or about a type of the model. -/
theorem of_error {unit : String} (herror : 0 < errorsAbout gen.diagnostics unit) :
    unit ∈ d.operations.map g.config.operationNaming.identify ∨
      (∃ definition ∈ e.slots.graph.definitions, definition.id.pointer = unit ∧ ¬ m.Generates definition.id) ∨
        ∃ t ∈ m.types, t.name = unit := by
  rw [h.errors unit] at herror
  by_cases hentry : unit ∈ d.operations.map g.config.operationNaming.identify
  · exact .inl hentry
  · have hunbuilt : unbuilt.count unit = 0 := List.count_eq_zero.2 fun hmem => hentry (h.mem_entries (.inl hmem))
    have hunlowered : unlowered.count unit = 0 :=
      List.count_eq_zero.2 fun hmem => hentry (h.mem_entries (.inr (.inl hmem)))
    right
    by_cases hlost : unit ∈ (lost e.slots.graph g.target g.config).map (·.pointer)
    · left
      have hids : (e.slots.graph.definitions.map (·.id)).Nodup := Slots.graph_nodup (extraction_spec he).2.1
      obtain ⟨id, hl, rfl⟩ := List.mem_map.1 hlost
      obtain ⟨definition, hd, rfl⟩ := List.mem_map.1 ((kept_lost_perm hids).mem_iff.1 (List.mem_append_right _ hl))
      refine ⟨definition, hd, rfl, ?_⟩
      rw [model_eq hm, generates_iff hids e.operations (List.mem_map_of_mem hd)]
      exact not_not.2 hl
    · right
      rw [← List.count_eq_zero] at hlost
      have hpos : 0 < (unrendered.map (·.2)).count unit := by omega
      obtain ⟨item, hitem, rfl⟩ := List.mem_map.1 (List.count_pos_iff.1 hpos)
      rcases h.mem_keys hitem with ⟨-, htype⟩ | ⟨-, hoperation⟩
      · exact List.mem_map.1 htype
      · exact absurd (h.mem_entries (.inr (.inr hoperation))) hentry

/-- A run is incomplete if something is left out: an entry of `paths`, a definition, or a type inside others. -/
theorem incomplete_iff : gen.status = .incomplete ↔
    (∃ entry ∈ d.operations, gen.unitsFor .operation (g.config.operationNaming.identify entry) = 0) ∨
      (∃ definition ∈ e.slots.graph.definitions, ¬ gen.Renders m definition.id) ∨
        ∃ t ∈ m.types, e.slots.graph.defines t.source = false ∧ gen.unitsFor .model t.name = 0 := by
  rw [Generation.status_incomplete]
  constructor
  · rintro ⟨unit, herror⟩
    rcases h.of_error he hm herror with hentry | ⟨definition, hd, -, hgen⟩ | ⟨t, ht, rfl⟩
    · obtain ⟨entry, hmem, rfl⟩ := List.mem_map.1 hentry
      refine .inl ⟨entry, hmem, ?_⟩
      have haccounted := h.entry_accounted he hm hentry
      unfold Generation.Accounted at haccounted
      omega
    · exact .inr (.inl ⟨definition, hd, fun ⟨t, ht, hsource, _⟩ => hgen ⟨t, ht, hsource⟩⟩)
    · have haccounted := h.type_accounted he hm ht
      have hnone : gen.unitsFor .model t.name = 0 := by
        unfold Generation.Accounted at haccounted
        omega
      cases hdefines : e.slots.graph.defines t.source with
      | false => exact .inr (.inr ⟨t, ht, hdefines, hnone⟩)
      | true =>
        obtain ⟨definition, hd, hid⟩ := List.mem_map.1 (SchemaGraph.defines_iff.1 hdefines)
        refine .inr (.inl ⟨definition, hd, ?_⟩)
        rintro ⟨t', ht', hsource, hunits⟩
        rw [model_eq hm] at ht ht'
        obtain rfl := eq_of_source (Slots.graph_nodup (extraction_spec he).2.1) e.operations ht ht' hdefines
          (hsource.trans hid)
        omega
  · rintro (⟨entry, hmem, hnone⟩ | ⟨definition, hd, hrenders⟩ | ⟨t, ht, -, hnone⟩)
    · have haccounted := h.entry_accounted he hm (List.mem_map_of_mem hmem)
      refine ⟨g.config.operationNaming.identify entry, ?_⟩
      unfold Generation.Accounted at haccounted
      omega
    · rcases h.definition_accounted he hm hd with ⟨t, ht, hsource, -, haccounted, -⟩ | ⟨-, herror⟩
      · have hnot : gen.unitsFor .model t.name ≠ 1 := fun hone => hrenders ⟨t, ht, hsource, hone⟩
        refine ⟨t.name, ?_⟩
        unfold Generation.Accounted at haccounted
        omega
      · exact ⟨definition.id.pointer, by omega⟩
    · have haccounted := h.type_accounted he hm ht
      refine ⟨t.name, ?_⟩
      unfold Generation.Accounted at haccounted
      omega

end Keys

end Rest

/-- A run that comes to its end accounts for everything: each entry of `paths` has one unit or one error, each
definition one unit or one error, under its type's name where it has a type and under its pointer where it has none;
and the run is incomplete exactly if an entry, a definition or a type inside others has no unit. -/
theorem run_accounts (h : g.run text format = .ok gen) :
    ∃ d e m, Document.load text format = .ok d ∧ g.extraction d = .ok e ∧ g.model e = .ok m ∧
      (d.operations.map g.config.operationNaming.identify).Nodup ∧
      (∀ entry ∈ d.operations, gen.Accounted .operation (g.config.operationNaming.identify entry)) ∧
      (∀ definition ∈ e.slots.graph.definitions,
        (∃ t ∈ m.types, t.source = definition.id ∧ (∀ t' ∈ m.types, t'.source = definition.id → t' = t) ∧
          gen.Accounted .model t.name ∧ errorsAbout gen.diagnostics definition.id.pointer = 0) ∨
            (¬ m.Generates definition.id ∧ errorsAbout gen.diagnostics definition.id.pointer = 1)) ∧
      (gen.status = .incomplete ↔
        (∃ entry ∈ d.operations, gen.unitsFor .operation (g.config.operationNaming.identify entry) = 0) ∨
          (∃ definition ∈ e.slots.graph.definitions, ¬ gen.Renders m definition.id) ∨
            ∃ t ∈ m.types, e.slots.graph.defines t.source = false ∧ gen.unitsFor .model t.name = 0) := by
  obtain ⟨d, e, m, hd, he, hm, hgen⟩ := run_stages h
  obtain ⟨unbuilt, unlowered, unrendered, hrest⟩ := run_rest he hm hgen
  refine ⟨d, e, m, hd, he, hm, extraction_nodup he, fun entry hentry => ?_, fun definition hdef => ?_, ?_⟩
  · exact hrest.entry_accounted he hm (List.mem_map_of_mem hentry)
  · exact hrest.definition_accounted he hm hdef
  · exact hrest.incomplete_iff he hm

/-- The text of a contract with an operation, and with a definition that is a list of unknown items. -/
def partialText : String :=
  "\x7b\"paths\":\x7b\"/p\":\x7b\"get\":\x7b\x7d\x7d\x7d,"
    ++ "\"components\":\x7b\"schemas\":\x7b\"A\":\x7b\"type\":\"array\"\x7d\x7d\x7d\x7d"

theorem run_accounts_partialText : ∃ gen, strict.run partialText .json = .ok gen ∧ gen.status = .incomplete ∧
    ∃ d e m, Document.load partialText .json = .ok d ∧ strict.extraction d = .ok e ∧ strict.model e = .ok m ∧
      (d.operations.map strict.config.operationNaming.identify).Nodup ∧
      (∀ entry ∈ d.operations, gen.Accounted .operation (strict.config.operationNaming.identify entry)) ∧
      (∀ definition ∈ e.slots.graph.definitions,
        (∃ t ∈ m.types, t.source = definition.id ∧ (∀ t' ∈ m.types, t'.source = definition.id → t' = t) ∧
          gen.Accounted .model t.name ∧ errorsAbout gen.diagnostics definition.id.pointer = 0) ∨
            (¬ m.Generates definition.id ∧ errorsAbout gen.diagnostics definition.id.pointer = 1)) ∧
      (gen.status = .incomplete ↔
        (∃ entry ∈ d.operations, gen.unitsFor .operation (strict.config.operationNaming.identify entry) = 0) ∨
          (∃ definition ∈ e.slots.graph.definitions, ¬ gen.Renders m definition.id) ∨
            ∃ t ∈ m.types, e.slots.graph.defines t.source = false ∧ gen.unitsFor .model t.name = 0) := by
  have hrun : (strict.run partialText .json).toOption.map (·.status) = some .incomplete := by decide +kernel
  obtain ⟨gen, hgen, hstatus⟩ := Option.map_eq_some_iff.1 hrun
  have hgen := ok_of_toOption hgen
  exact ⟨gen, hgen, hstatus, run_accounts hgen⟩

end Generator

end ContractBindings
