import ContractBindings.Proofs.Files.Writing
import ContractBindings.Proofs.Generation.Accounting
import ContractBindings.Proofs.Unit.Paths

/-!
# What a run produces can be written

Units are refused only for a path that leads out of the output directory or for two paths to one place, which paths of
normal parts that differ do not give occasion to (`not_refused_of_normal`); the faults that come later are those of the
file system (`write_fault`). The units of a run have paths of two parts that differ, since their names differ in their
snake forms: those of types through the registry of names, those of operations because identifiers are snake forms
already (`operations_forms_nodup`). So writing what a run produced meets no fault of its own (`run_written`).
-/

namespace ContractBindings

open Naming Lowering

namespace Output

/-- A file is planned at the parts of its path, all of which lead on. -/
theorem names_plannedAt (directory text : String) {path : String}
    (h : ∀ part ∈ Place.parts path, part ≠ "" ∧ part ≠ "." ∧ part ≠ "..") :
    (plannedAt directory path text).place.names = (Place.ofPath directory).names ++ Place.parts path := by
  have hleads : (Place.parts path).filter Place.leads = Place.parts path := by
    rw [List.filter_eq_self]
    intro part hpart
    obtain ⟨hempty, hdot, -⟩ := h part hpart
    simp [Place.leads, hempty, hdot]
  rw [plannedAt, Place.under, hleads]

/-- Writing planned files meets faults of the file system only. -/
theorem writeFiles_fault : ∀ (planned : List PlannedFile) (files : Files) (written : List String) {e : OutputError},
    (writeFiles planned files written).2 = .error e → ∃ fault, e.fault = .file fault
  | [], _, _, _, h => by
    rw [writeFiles] at h
    cases h
  | p :: planned, files, written, e, h => by
    rw [writeFiles] at h
    split at h
    · next fault _ =>
      cases h
      exact ⟨fault, rfl⟩
    · exact writeFiles_fault planned files written h
    · split at h
      · next fault _ =>
        cases h
        exact ⟨fault, rfl⟩
      · exact writeFiles_fault planned _ _ h

/-- Units whose paths differ and consist of normal parts are not refused. -/
theorem not_refused_of_normal {units : List CodeUnit} (hnodup : (units.map CodeUnit.path).Nodup)
    (hparts : ∀ u ∈ units, ∀ v ∈ units, Place.parts u.path = Place.parts v.path → u.path = v.path)
    (hnormal : ∀ u ∈ units, Place.isAbsolute u.path = false ∧
      ∀ part ∈ Place.parts u.path, part ≠ "" ∧ part ≠ "." ∧ part ≠ "..") (directory : String) :
    ¬ Refused directory units := by
  rw [Refused, not_or, not_not]
  constructor
  · rintro ⟨u, hu, hempty | habsolute | hup⟩
    · have hmem : "" ∈ Place.parts u.path := by
        rw [hempty]
        decide
      exact ((hnormal u hu).2 "" hmem).1 rfl
    · rw [(hnormal u hu).1] at habsolute
      cases habsolute
    · exact ((hnormal u hu).2 ".." hup).2.2 rfl
  · rw [placesOf, List.map_map]
    refine List.pairwise_map.2 ((List.pairwise_map.1 hnodup).imp_of_mem ?_)
    intro u v hu hv hne heq
    have hnames {w : CodeUnit} (hw : w ∈ units) :
        (unitFile directory w).place.names = (Place.ofPath directory).names ++ Place.parts w.path :=
      names_plannedAt directory _ (hnormal w hw).2
    exact hne (hparts u hu v hv (List.append_cancel_left ((hnames hu).symm.trans (heq.trans (hnames hv)))))

/-- Units that are not refused are written, up to faults of the file system. -/
theorem write_fault {units : List CodeUnit} {directory : String} (hunits : ¬ Refused directory units) (files : Files)
    (report : Report) {e : OutputError} (h : (write files directory units report).2 = .error e) :
    ∃ fault, e.fault = .file fault := by
  rw [write, plan_of_not_refused hunits] at h
  exact writeFiles_fault _ _ _ h

end Output

namespace Generator

variable {g : Generator} {d : Document} {e : Extraction} {m : Model}

/-- The names of a model's types differ in their snake forms. -/
theorem model_forms_nodup (he : g.extraction d = .ok e) (hm : g.model e = .ok m) :
    (m.types.map fun t => snakeCase t.name).Nodup := by
  rw [model_eq hm]
  exact types_forms_nodup (Slots.graph_nodup (extraction_spec he).2.1) e.operations

/-- The identifiers of a model's operations differ, and they are their own snake forms. -/
theorem operations_forms_nodup (he : g.extraction d = .ok e) (hm : g.model e = .ok m) :
    (m.operations.map fun o => snakeCase o.id).Nodup := by
  obtain ⟨ha, -, hlabels⟩ := extraction_spec he
  obtain ⟨bad, -, hperm⟩ := ofGraph_errors e.slots.graph g.target g.config e.operations
  rw [← model_eq hm] at hperm
  have hsub : m.operations.map (·.id) ⊆ d.operations.map g.config.operationNaming.identify := by
    intro id hid
    have hextracted : id ∈ e.operations.map (·.id) := hperm.subset (List.mem_append_left _ hid)
    have hlabel : id ∈ e.labels.map (·.1) := ha.perm.subset (List.mem_append_left _ hextracted)
    rw [hlabels] at hlabel
    exact List.mem_reverse.1 hlabel
  have hfixed : ∀ o ∈ m.operations, snakeCase o.id = o.id := by
    intro o ho
    obtain ⟨entry, -, hentry⟩ := List.mem_map.1 (hsub (List.mem_map_of_mem ho))
    rw [← hentry]
    exact snakeCase_identifier _ _ _ _
  have hextracted : (e.operations.map (·.id)).Nodup :=
    (List.nodup_append.1 (ha.perm.nodup_iff.2 ha.nodup)).1
  have hids : (m.operations.map (·.id)).Nodup := (List.nodup_append.1 (hperm.nodup_iff.2 hextracted)).1
  rwa [List.map_congr_left hfixed]

/-- The units of a run have paths that differ even where capitals and small letters are not told apart. None is the path
of the report, and each is relative, of parts that name a file or a folder. So writing the units, wherever and with
whatever report, ends with no refusal of a path, neither because it leads out of the directory nor because it is there
twice. -/
theorem run_written {text : String} {format : Format} {gen : Generation} (h : g.run text format = .ok gen) :
    (gen.units.map fun u => Text.lower u.path).Nodup ∧
    (∀ u ∈ gen.units, Text.lower u.path ≠ Text.lower Output.reportName ∧ Place.isAbsolute u.path = false ∧
      ∀ part ∈ Place.parts u.path, part ≠ "" ∧ part ≠ "." ∧ part ≠ "..") ∧
    ∀ (files : Files) (directory : String) (report : Report) (failure : OutputError),
      (Output.write files directory gen.units report).2 = .error failure →
        failure.fault ≠ .escapes ∧ ∀ path, failure.fault ≠ .producedTwice path := by
  obtain ⟨d, e, m, -, he, hm, hgen⟩ := run_stages h
  have hpath : ∀ u ∈ gen.units, u.path = u.kind.path u.name g.target := by
    intro u hu
    rw [hgen] at hu
    exact CodeUnit.path_of_mem hu
  have hnodup : (gen.units.map CodeUnit.path).Nodup := by
    rw [hgen]
    exact CodeUnit.ofModel_paths_nodup _ _ _ (model_forms_nodup he hm) (operations_forms_nodup he hm)
  have hlower : ∀ u ∈ gen.units, Text.lower u.path = u.path := by
    intro u hu
    rw [hpath u hu]
    exact UnitKind.lower_path _ _ _
  have hnormal : ∀ u ∈ gen.units, Place.isAbsolute u.path = false ∧
      ∀ part ∈ Place.parts u.path, part ≠ "" ∧ part ≠ "." ∧ part ≠ ".." := by
    intro u hu
    rw [hpath u hu]
    exact UnitKind.path_normal _ _ _
  refine ⟨?_, fun u hu => ⟨?_, hnormal u hu⟩, ?_⟩
  · rwa [List.map_congr_left hlower]
  · -- the report's name has one part
    rw [hlower u hu]
    intro hreport
    have hname : Text.lower Output.reportName = Output.reportName :=
      Text.lower_of_small (Text.small_of_all (by decide))
    have hparts : Place.parts u.path = ["apigen-report.json"] := by
      rw [hreport, hname]
      decide
    rw [hpath u hu, UnitKind.parts_path] at hparts
    exact absurd (congrArg List.length hparts) (by simp)
  · intro files directory report failure hwrite
    have hparts : ∀ u ∈ gen.units, ∀ v ∈ gen.units, Place.parts u.path = Place.parts v.path → u.path = v.path := by
      intro u hu v hv heq
      rw [hpath u hu, hpath v hv, UnitKind.parts_path, UnitKind.parts_path] at heq
      obtain ⟨hfolder, hfile⟩ := List.cons.inj heq
      rw [hpath u hu, hpath v hv]
      simp only [UnitKind.path, String.append_assoc] at hfile ⊢
      rw [hfolder, (List.cons.inj hfile).1]
    have hunits := Output.not_refused_of_normal hnodup hparts hnormal directory
    obtain ⟨fault, hfault⟩ := Output.write_fault hunits files report hwrite
    rw [hfault]
    exact ⟨by simp, by simp⟩

/-- Generation of protobuf files that hold the version alone. -/
def versions : Generator :=
  ⟨.protobuf, { templates := [("protobuf/model", "syntax = \"proto3\";"), ("protobuf/operation", "syntax = \"proto3\";")] },
    none⟩

/-- The text of a contract with two schemas whose names differ only in their spelling, and an operation. -/
def spellingsText : String :=
  "\x7b\"paths\":\x7b\"/p\":\x7b\"get\":\x7b\x7d\x7d\x7d,"
    ++ "\"components\":\x7b\"schemas\":\x7b\"Ab\":\x7b\"properties\":\x7b\x7d\x7d,\"ab\":\x7b\"properties\":\x7b\x7d\x7d\x7d\x7d\x7d"

theorem run_written_spellingsText : ∃ gen, versions.run spellingsText .json = .ok gen ∧
    gen.units.map CodeUnit.path = ["models/ab.proto", "models/ab_2.proto", "operations/get_p.proto"] ∧
    (gen.units.map fun u => Text.lower u.path).Nodup ∧
    (∀ u ∈ gen.units, Text.lower u.path ≠ Text.lower Output.reportName ∧ Place.isAbsolute u.path = false ∧
      ∀ part ∈ Place.parts u.path, part ≠ "" ∧ part ≠ "." ∧ part ≠ "..") ∧
    ∀ (files : Files) (directory : String) (report : Report) (failure : OutputError),
      (Output.write files directory gen.units report).2 = .error failure →
        failure.fault ≠ .escapes ∧ ∀ path, failure.fault ≠ .producedTwice path := by
  have hrun : (versions.run spellingsText .json).toOption.map (fun gen => gen.units.map CodeUnit.path) =
      some ["models/ab.proto", "models/ab_2.proto", "operations/get_p.proto"] := by decide +kernel
  obtain ⟨gen, hgen, hpaths⟩ := Option.map_eq_some_iff.1 hrun
  have hgen := ok_of_toOption hgen
  exact ⟨gen, hgen, hpaths, run_written hgen⟩

end Generator

end ContractBindings
