import Mathlib.Logic.Relation
import ContractBindings.Proofs.Messages.Imports
import ContractBindings.Proofs.Text.Lines
import ContractBindings.Proofs.Unit.Paths

/-!
# Units that import each other

What a unit imports is read off the text of its imports: the lines name the files (`lines_importText`). Only units of
types are imported. The unit of a type is imported where its name is used, up to the snake form, by another type
(`path_mem_importedFiles_iff`). Where snake forms tell the types of a model apart, no unit imports itself, and a circle of
imports is a circle of uses that goes over different types (`Model.Told.imports_acyclic_iff`).
-/

namespace ContractBindings

namespace Messages

open Naming

/-- The line that imports a file. -/
def importLine (file : String) : String := "import \"" ++ file ++ "\";"

theorem importLine_injective : Function.Injective importLine := by
  intro file other h
  have hchars := congrArg String.toList h
  simp only [importLine, String.toList_append] at hchars
  exact String.toList_inj.1 (List.append_cancel_left (List.append_cancel_right hchars))

/-- The lines of imports, where no file breaks its line. -/
theorem lines_importText {files : List String} (h : ∀ file ∈ files, '\n' ∉ file.toList ∧ '\r' ∉ file.toList) :
    Text.lines (importText files) = files.map importLine := by
  induction files with
  | nil => rfl
  | cons file files ih =>
    obtain ⟨hfile, hfiles⟩ := List.forall_mem_cons.1 h
    have htext : (importText (file :: files)).toList =
        (importLine file).toList ++ '\n' :: (importText files).toList := by
      simp [importText, importLine, String.toList_append]
    have hfeed : '\n' ∉ (importLine file).toList := by
      simpa [importLine, String.toList_append] using hfile.1
    have hreturn : '\r' ∉ (importLine file).toList := by
      simpa [importLine, String.toList_append] using hfile.2
    rw [Text.lines, htext, Text.lineChars_append hfeed hreturn, List.map_cons, String.ofList_toList, List.map_cons,
      ← ih hfiles]
    rfl

/-! ## Imported files -/

/-- The files of the well-known types. -/
def wellKnownFiles : List String :=
  ["google/protobuf/timestamp.proto", "google/protobuf/struct.proto", "google/protobuf/empty.proto"]

mutual

theorem wellKnown_subset : ∀ type : TypeDescriptor, wellKnown type ⊆ wellKnownFiles
  | .mk kind _ => wellKnownOfKind_subset kind

theorem wellKnownOfKind_subset : ∀ kind : TypeKind, wellKnownOfKind kind ⊆ wellKnownFiles
  | .list item => wellKnown_subset item
  | .map value => wellKnown_subset value
  | .scalar scalar => by cases scalar <;> simp [wellKnownOfKind, wellKnownFiles]
  | .named .. => List.nil_subset _
  | .opaqueValue => by simp [wellKnownOfKind, wellKnownFiles]
  | .unit => by simp [wellKnownOfKind, wellKnownFiles]

end

/-- A unit does not stand at the file of a well-known type. -/
theorem path_not_mem_wellKnown (kind : UnitKind) (name : String) (type : TypeDescriptor) :
    kind.path name .protobuf ∉ wellKnown type := by
  intro h
  have hfolder : kind.folder = "google" := by
    have hparts : ∀ file ∈ wellKnownFiles, (Place.parts file).head? = some "google" := by decide
    have hhead := hparts _ (wellKnown_subset type h)
    rw [UnitKind.parts_path] at hhead
    exact Option.some.inj hhead
  cases kind <;> exact absurd hfolder (by decide)

/-- A unit that is imported is that of a type: one with the snake form of a name that is used and not the own one. -/
theorem path_mem_importedFiles_iff {kind : UnitKind} {name own : String} {used : List TypeDescriptor} :
    kind.path name .protobuf ∈ importedFiles own used ↔
      kind = .model ∧ ∃ n ∈ used.flatMap TypeDescriptor.names, n ≠ own ∧ snakeCase n = snakeCase name := by
  rw [importedFiles, mem_sortedNames, List.mem_flatMap]
  constructor
  · rintro ⟨type, ht, hfile⟩
    rcases List.mem_append.1 hfile with hfile | hfile
    · exact absurd hfile (path_not_mem_wellKnown kind name type)
    · obtain ⟨n, hn, hpath⟩ := List.mem_map.1 hfile
      obtain ⟨hn, hown⟩ := List.mem_filter.1 hn
      obtain ⟨rfl, hform⟩ := UnitKind.path_inj hpath
      exact ⟨rfl, n, List.mem_flatMap.2 ⟨type, ht, hn⟩, by simpa using hown, hform⟩
  · rintro ⟨rfl, n, hn, hown, hform⟩
    obtain ⟨type, ht, hn⟩ := List.mem_flatMap.1 hn
    refine ⟨type, ht, List.mem_append_right _ (List.mem_map.2 ⟨n, List.mem_filter.2 ⟨hn, by simpa using hown⟩, ?_⟩)⟩
    rw [UnitKind.path, UnitKind.path, hform]

/-- No imported file breaks its line. -/
theorem importedFiles_unbroken {own file : String} {used : List TypeDescriptor} (h : file ∈ importedFiles own used) :
    '\n' ∉ file.toList ∧ '\r' ∉ file.toList := by
  rw [importedFiles, mem_sortedNames, List.mem_flatMap] at h
  obtain ⟨type, -, hfile⟩ := h
  rcases List.mem_append.1 hfile with hfile | hfile
  · have hknown : ∀ file ∈ wellKnownFiles, '\n' ∉ file.toList ∧ '\r' ∉ file.toList := by decide
    exact hknown file (wellKnown_subset type hfile)
  · obtain ⟨n, -, rfl⟩ := List.mem_map.1 hfile
    have hfeed : '\n' ∉ (snakeCase n).toList := UnitKind.not_mem_snakeCase n fun h => absurd h.2 (by decide)
    have hreturn : '\r' ∉ (snakeCase n).toList := UnitKind.not_mem_snakeCase n fun h => absurd h.2 (by decide)
    rw [UnitKind.toList_path]
    constructor
    · simpa [UnitKind.folder, Target.extension] using hfeed
    · simpa [UnitKind.folder, Target.extension] using hreturn

/-! ## Circles -/

/-- The unit at the first path imports the second file: the text of its imports has the line for the file. -/
inductive Imports (m : Model) : String → String → Prop
  | ofType {t : TypeDef} {parts : UnitParts} {file : String} (ht : t ∈ m.types)
      (hparts : UnitParts.ofType t .protobuf = .ok parts) (hline : importLine file ∈ Text.lines parts.imports) :
      Imports m (UnitKind.model.path t.name .protobuf) file
  | ofOperation {o : OperationDef} {parts : UnitParts} {file : String} (ho : o ∈ m.operations)
      (hparts : UnitParts.ofOperation o .protobuf = .ok parts) (hline : importLine file ∈ Text.lines parts.imports) :
      Imports m (UnitKind.operation.path o.id .protobuf) file

/-- The lines for files are those of the files found from the descriptors. -/
theorem line_mem_importText_iff {own file : String} {used : List TypeDescriptor} :
    importLine file ∈ Text.lines (importText (importedFiles own used)) ↔ file ∈ importedFiles own used := by
  rw [lines_importText fun file h => importedFiles_unbroken h, List.mem_map_of_injective importLine_injective]

theorem imports_iff {m : Model} {file imported : String} : Imports m file imported ↔
    (∃ t ∈ m.types, file = UnitKind.model.path t.name .protobuf ∧
      imported ∈ importedFiles t.name (descriptorsOfType t)) ∨
    ∃ o ∈ m.operations, file = UnitKind.operation.path o.id .protobuf ∧
      imported ∈ importedFiles o.request (descriptorsOfOperation o) := by
  constructor
  · rintro (@⟨t, parts, _, ht, hparts, hline⟩ | @⟨o, parts, _, ho, hparts, hline⟩)
    · cases hparts
      exact .inl ⟨t, ht, rfl, line_mem_importText_iff.1 hline⟩
    · cases hparts
      exact .inr ⟨o, ho, rfl, line_mem_importText_iff.1 hline⟩
  · rintro (⟨t, ht, rfl, hfile⟩ | ⟨o, ho, rfl, hfile⟩)
    · exact .ofType ht rfl (line_mem_importText_iff.2 hfile)
    · exact .ofOperation ho rfl (line_mem_importText_iff.2 hfile)

end Messages

/-- A type of the model uses another one, or itself. -/
def Model.Uses (m : Model) (t u : TypeDef) : Prop := t ∈ m.types ∧ u ∈ m.types ∧ u.name ∈ t.uses

/-- Snake forms tell the types of a model apart, also from what they use. -/
structure Model.Told (m : Model) : Prop where
  forms : (m.types.map fun t => Naming.snakeCase t.name).Nodup
  uses : ∀ t ∈ m.types, ∀ n ∈ t.uses, ∀ u ∈ m.types, Naming.snakeCase n = Naming.snakeCase u.name → n = u.name

/-- A circle over different elements, step by step, is one that leads from an element to another one and back. -/
theorem acyclic_ne_iff {α : Type} {R : α → α → Prop} :
    (∀ a, ¬ Relation.TransGen (fun a b => R a b ∧ a ≠ b) a a) ↔
      ∀ a b, Relation.TransGen R a b → Relation.TransGen R b a → a = b := by
  constructor
  · intro h a b hab hba
    by_contra hne
    -- steps from an element to itself are left out
    have hskip {x y : α} (hxy : Relation.TransGen R x y) : Relation.ReflTransGen (fun a b => R a b ∧ a ≠ b) x y := by
      induction hxy with
      | @single y hstep =>
        by_cases heq : x = y
        · exact heq ▸ .refl
        · exact .single ⟨hstep, heq⟩
      | @tail y z _ hstep ih =>
        by_cases heq : y = z
        · exact heq ▸ ih
        · exact ih.tail ⟨hstep, heq⟩
    rcases Relation.reflTransGen_iff_eq_or_transGen.1 (hskip hab) with heq | hway
    · exact hne heq.symm
    · exact h a (hway.trans_left (hskip hba))
  · intro h a hcycle
    obtain ⟨b, ⟨hab, hne⟩, hba⟩ := Relation.TransGen.head'_iff.1 hcycle
    rcases Relation.reflTransGen_iff_eq_or_transGen.1 hba with heq | hba
    · exact hne heq
    · exact hne (h a b (.single hab) (Relation.TransGen.mono (fun _ _ h => h.1) _ _ hba))

namespace Model.Told

open Messages

variable {m : Model} {t u : TypeDef}

theorem eq_of_form (h : m.Told) (ht : t ∈ m.types) (hu : u ∈ m.types)
    (hform : Naming.snakeCase t.name = Naming.snakeCase u.name) : t = u :=
  List.inj_on_of_nodup_map h.forms ht hu hform

/-- The unit of a type imports that of another type if the type uses the other one. -/
theorem imports_iff_uses (h : m.Told) (ht : t ∈ m.types) (hu : u ∈ m.types) :
    Imports m (UnitKind.model.path t.name .protobuf) (UnitKind.model.path u.name .protobuf) ↔
      m.Uses t u ∧ t ≠ u := by
  rw [imports_iff]
  constructor
  · rintro (⟨t', ht', hpath, hfile⟩ | ⟨o, -, hpath, -⟩)
    · obtain rfl := h.eq_of_form ht ht' (UnitKind.path_inj hpath).2
      obtain ⟨-, n, hn, hown, hform⟩ := path_mem_importedFiles_iff.1 hfile
      rw [descriptorsOfType_eq] at hn
      obtain rfl := h.uses t ht n hn u hu hform
      exact ⟨⟨ht, hu, hn⟩, fun heq => hown (by rw [heq])⟩
    · cases (UnitKind.path_inj hpath).1
  · rintro ⟨⟨-, -, hn⟩, hne⟩
    refine .inl ⟨t, ht, rfl, path_mem_importedFiles_iff.2 ⟨rfl, u.name, ?_, fun hown => ?_, rfl⟩⟩
    · rwa [descriptorsOfType_eq]
    · exact hne (h.eq_of_form ht hu (by rw [hown]))

/-- A unit that imports and is imported is that of a type. -/
theorem exists_type {file before after : String} (hb : Imports m before file) (ha : Imports m file after) :
    ∃ t ∈ m.types, file = UnitKind.model.path t.name .protobuf := by
  rcases imports_iff.1 ha with ⟨t, ht, hpath, -⟩ | ⟨o, -, rfl, -⟩
  · exact ⟨t, ht, hpath⟩
  · rcases imports_iff.1 hb with ⟨t, -, -, hfile⟩ | ⟨o', -, -, hfile⟩
    · cases (path_mem_importedFiles_iff.1 hfile).1
    · cases (path_mem_importedFiles_iff.1 hfile).1

/-- The units that import each other are those of types that use each other. -/
theorem uses_of_imports (h : m.Told) {file file' : String} (hway : Relation.TransGen (Imports m) file file') :
    ∀ t ∈ m.types, ∀ u ∈ m.types, file = UnitKind.model.path t.name .protobuf →
      file' = UnitKind.model.path u.name .protobuf → Relation.TransGen (fun t u => m.Uses t u ∧ t ≠ u) t u := by
  induction hway with
  | single hstep =>
    rintro t ht u hu rfl rfl
    exact .single ((h.imports_iff_uses ht hu).1 hstep)
  | tail hway hstep ih =>
    rintro t ht u hu rfl rfl
    obtain ⟨b, -, hbefore⟩ := Relation.TransGen.tail'_iff.1 hway
    obtain ⟨t', ht', rfl⟩ := exists_type hbefore hstep
    exact (ih t ht t' ht' rfl rfl).tail ((h.imports_iff_uses ht' hu).1 hstep)

theorem not_imports_self (h : m.Told) (file : String) : ¬ Imports m file file := by
  intro hself
  obtain ⟨t, ht, rfl⟩ := exists_type hself hself
  exact ((h.imports_iff_uses ht ht).1 hself).2 rfl

/-- Imports go in no circle exactly if no two types use each other, over any number of types. -/
theorem imports_acyclic_iff (h : m.Told) : (∀ file, ¬ Relation.TransGen (Imports m) file file) ↔
    ∀ t u, Relation.TransGen m.Uses t u → Relation.TransGen m.Uses u t → t = u := by
  rw [← acyclic_ne_iff]
  constructor
  · intro hacyclic t hcycle
    refine hacyclic (UnitKind.model.path t.name .protobuf)
      (hcycle.lift (fun t : TypeDef => UnitKind.model.path t.name .protobuf) ?_)
    rintro a b ⟨huses, hne⟩
    exact (h.imports_iff_uses huses.1 huses.2.1).2 ⟨huses, hne⟩
  · intro hacyclic file hcycle
    obtain ⟨after, hafter, -⟩ := Relation.TransGen.head'_iff.1 hcycle
    obtain ⟨before, -, hbefore⟩ := Relation.TransGen.tail'_iff.1 hcycle
    obtain ⟨t, ht, hfile⟩ := exists_type hbefore hafter
    exact hacyclic t (h.uses_of_imports hcycle t ht t ht hfile hfile)

end Model.Told

end ContractBindings
