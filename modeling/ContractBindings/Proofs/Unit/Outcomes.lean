import Mathlib.Data.List.Count
import Mathlib.Data.List.Forall2
import ContractBindings.Unit.Rendering

/-!
# Outcomes of rendering

Rendering a type or an operation gives a unit of its kind and name, or an error under its name (`assemble_answers`). So
the units and the errors of a model together are its types and operations, each once (`ofModel_accounts`).
-/

namespace ContractBindings.CodeUnit

/-- The kind and the name of a unit. -/
def key (u : CodeUnit) : UnitKind × String := (u.kind, u.name)

/-- The kinds and names of what a model has. -/
def keys (m : Model) : List (UnitKind × String) :=
  m.types.map (fun t => (.model, t.name)) ++ m.operations.map fun o => (.operation, o.id)

/-- An outcome for a kind and a name: a unit of them, or an error under the name. -/
def Answers (item : UnitKind × String) : Except Diagnostic CodeUnit → Prop
  | .ok u => u.key = item
  | .error d => d.isError = true ∧ d.unit = item.2

theorem assemble_answers (target : Target) (info : Info) (config : Config) (kind : UnitKind) (name : String)
    (parts : Except UnitError UnitParts) : Answers (kind, name) (assemble target info config kind name parts) := by
  cases parts with
  | error e => exact ⟨rfl, rfl⟩
  | ok parts =>
    rw [assemble]
    dsimp only [bind, Except.bind]
    cases Template.render target config.templates (Template.nameOf target kind)
        (templateValues name info config parts) with
    | error e => exact ⟨rfl, rfl⟩
    | ok text =>
      dsimp only
      cases fault? text target with
      | none => exact rfl
      | some fault => exact ⟨rfl, rfl⟩

/-- A unit is the rendering of its parts, in which no fault is found. -/
theorem ok_of_assemble {target : Target} {info : Info} {config : Config} {kind : UnitKind} {name : String}
    {parts : Except UnitError UnitParts} {u : CodeUnit} (h : assemble target info config kind name parts = .ok u) :
    ∃ p, parts = .ok p ∧ Template.render target config.templates (Template.nameOf target kind)
      (templateValues name info config p) = .ok u.text ∧ fault? u.text target = none ∧ u.path = kind.path name target := by
  cases parts with
  | error e => cases h
  | ok p =>
    rw [assemble] at h
    dsimp only [bind, Except.bind] at h
    cases htext : Template.render target config.templates (Template.nameOf target kind)
        (templateValues name info config p) with
    | error e =>
      rw [htext] at h
      cases h
    | ok text =>
      rw [htext] at h
      dsimp only at h
      cases hfault : fault? text target with
      | none =>
        rw [hfault] at h
        cases h
        exact ⟨p, rfl, htext, hfault, rfl⟩
      | some fault =>
        rw [hfault] at h
        cases h

theorem outcomes_answer (target : Target) (info : Info) (config : Config) (m : Model) :
    List.Forall₂ Answers (keys m) (outcomes target info config m) := by
  refine List.rel_append ?_ ?_
  · rw [List.forall₂_map_left_iff, List.forall₂_map_right_iff, List.forall₂_same]
    exact fun t _ => assemble_answers ..
  · rw [List.forall₂_map_left_iff, List.forall₂_map_right_iff, List.forall₂_same]
    exact fun o _ => assemble_answers ..

/-- What is rendered and what fails is everything there is, each once. -/
theorem ofModel_accounts (target : Target) (info : Info) (config : Config) (m : Model) :
    ∃ failed, ((ofModel target info config m).1.map key ++ failed).Perm (keys m) ∧
      (ofModel target info config m).2.map (·.unit) = failed.map (·.2) ∧
        ∀ d ∈ (ofModel target info config m).2, d.isError = true := by
  have h := outcomes_answer target info config m
  rw [ofModel]
  generalize keys m = items at h ⊢
  generalize outcomes target info config m = all at h ⊢
  induction h with
  | nil => exact ⟨[], .nil, rfl, by simp⟩
  | @cons item outcome items outcomes hone _ ih =>
    obtain ⟨failed, hperm, hunits, herrors⟩ := ih
    cases outcome with
    | ok u =>
      obtain rfl : u.key = item := hone
      exact ⟨failed, hperm.cons u.key, hunits, herrors⟩
    | error d =>
      refine ⟨item :: failed, ?_, ?_, ?_⟩
      · exact List.perm_middle.trans (hperm.cons item)
      · simpa [hone.2] using hunits
      · exact List.forall_mem_cons.2 ⟨hone.1, herrors⟩

theorem count_map_snd (items : List (UnitKind × String)) (name : String) :
    (items.map (·.2)).count name = items.count (.model, name) + items.count (.operation, name) := by
  induction items with
  | nil => rfl
  | cons item items ih =>
    obtain ⟨kind, other⟩ := item
    cases kind <;> by_cases h : other = name <;> simp [ih, h] <;> omega

theorem count_keys (m : Model) (name : String) :
    (keys m).count (.model, name) = (m.types.map (·.name)).count name ∧
      (keys m).count (.operation, name) = (m.operations.map (·.id)).count name := by
  have hmodel (names : List String) : (names.map fun n => (UnitKind.model, n)).count (.model, name) =
      names.count name := List.count_map_of_injective _ _ (fun _ _ h => (Prod.mk.inj h).2) _
  have hoperation (names : List String) : (names.map fun n => (UnitKind.operation, n)).count (.operation, name) =
      names.count name := List.count_map_of_injective _ _ (fun _ _ h => (Prod.mk.inj h).2) _
  have hsplit : keys m = (m.types.map (·.name)).map (fun n => (UnitKind.model, n)) ++
      (m.operations.map (·.id)).map fun n => (UnitKind.operation, n) := by
    rw [keys, List.map_map, List.map_map]
    rfl
  rw [hsplit, List.count_append, List.count_append, hmodel, hoperation]
  constructor
  · rw [Nat.add_eq_left, List.count_eq_zero]
    simp
  · rw [Nat.add_eq_right, List.count_eq_zero]
    simp

end ContractBindings.CodeUnit
