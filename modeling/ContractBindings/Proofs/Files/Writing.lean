import ContractBindings.Output
import ContractBindings.Proofs.Files.Tree

/-!
# Writing units into a tree of files

Writing is told by the files that are not there with their texts (`stale`). One file that is written is there with its
text, and no other file changes (`writeFile_ok`); one that cannot be written changes no file (`writeFile_error`). So
writing files in order comes to a tree where those before the first that fails are there with their texts, and lists
those of them that were stale (`Wrote`, `writeFiles_wrote`).

Planning refuses a unit whose path leads out of the directory or to the place of another unit, before anything is written
(`plan_of_not_refused`, `plan_of_refused`). Together they account for all that writing does (`write_accounts`).
-/

namespace ContractBindings.Output

open Files (IsTree ChangedAt)

/-! ## One file -/

/-- A file is there with its text. -/
def Holds (files : Files) (p : PlannedFile) : Prop := files.read p.place = .ok p.text.toUTF8

/-- A file is not there, or not with its text. -/
def stale (files : Files) (p : PlannedFile) : Bool :=
  match files.read p.place with
  | .ok bytes => bytes != p.text.toUTF8
  | .error _ => true

variable {files files' files'' : Files} {p : PlannedFile} {done planned : List PlannedFile} {written : List String}

theorem beq_bytes_iff {a b : ByteArray} : (a == b) = true ↔ a = b := by
  obtain ⟨a⟩ := a
  obtain ⟨b⟩ := b
  change (a == b) = true ↔ _
  rw [beq_iff_eq, ByteArray.mk.injEq]

theorem stale_eq_false_iff : stale files p = false ↔ Holds files p := by
  unfold stale Holds
  split
  · next bytes hread => simp [hread, bne, beq_bytes_iff]
  · next fault hread => simp [hread]

theorem isUpToDate_true_iff : isUpToDate files p = .ok true ↔ Holds files p := by
  unfold isUpToDate Holds
  split
  · next bytes hread => simp [hread, beq_bytes_iff]
  · next hread => simp [hread]
  · next fault hread => simp [hread]

/-- A file that is written is there with its text, and no other file changes. -/
theorem writeFile_ok (h : files.IsTree) (hwrite : writeFile files p = (files', .ok ())) :
    files'.IsTree ∧ ChangedAt [p.place.names] files files' ∧ Holds files' p := by
  unfold writeFile at hwrite
  split at hwrite
  · cases hwrite
  · next made hmade =>
    obtain ⟨htree, hchanged, -⟩ := Files.makeDirectories_ok h (Files.get?_root files) hmade
    split at hwrite
    · cases hwrite
    · next last hlast =>
      cases hwrite
      obtain ⟨htree', hchanged', hread⟩ := Files.write_ok htree hlast
      exact ⟨htree', hchanged.trans hchanged', hread⟩

/-- A file that cannot be written changes no file. -/
theorem writeFile_error {fault : FileFault} (h : files.IsTree) (hwrite : writeFile files p = (files', .error fault)) :
    files'.IsTree ∧ ChangedAt [] files files' := by
  unfold writeFile at hwrite
  split at hwrite
  · cases hwrite
    exact ⟨h, .refl _⟩
  · next made hmade =>
    obtain ⟨htree, hchanged, -⟩ := Files.makeDirectories_ok h (Files.get?_root files) hmade
    split at hwrite
    · cases hwrite
      exact ⟨htree, hchanged⟩
    · cases hwrite

/-- A file at another place is as stale as before. -/
theorem stale_eq {places : List (List String)} (hchanged : ChangedAt places files files') (h : files.IsTree)
    (h' : files'.IsTree) (hplace : p.place.names ∉ places) : stale files' p = stale files p := by
  have hholds : Holds files' p ↔ Holds files p := hchanged.read_iff h h' hplace
  rw [Bool.eq_iff_iff, ← not_iff_not, Bool.not_eq_true, Bool.not_eq_true, stale_eq_false_iff, stale_eq_false_iff, hholds]

/-! ## Files in order -/

/-- The places of files. -/
def placesOf (planned : List PlannedFile) : List (List String) := planned.map (·.place.names)

/-- What becomes of a tree when files were written in order, with the paths of those that were not up to date. -/
structure Wrote (files : Files) (done : List PlannedFile) (files' : Files) (written : List String) : Prop where
  isTree : files'.IsTree
  changed : ChangedAt (placesOf (done.filter (stale files))) files files'
  holds : ∀ p ∈ done, Holds files' p
  written_eq : written = (done.filter (stale files)).map (·.path)

theorem mem_placesOf {names : List String} (h : names ∈ placesOf (done.filter (stale files))) :
    names ∈ placesOf done := by
  obtain ⟨p, hp, rfl⟩ := List.mem_map.1 h
  exact List.mem_map_of_mem (List.mem_filter.1 hp).1

theorem Wrote.nil (h : files'.IsTree) (hchanged : ChangedAt [] files files') : Wrote files [] files' [] :=
  ⟨h, hchanged, fun _ hp => absurd hp List.not_mem_nil, rfl⟩

/-- A file that is up to date is passed over. -/
theorem Wrote.pass (hp : Holds files p) (h : files.IsTree) (hfresh : p.place.names ∉ placesOf done)
    (hw : Wrote files done files' written) : Wrote files (p :: done) files' written := by
  have hfilter : (p :: done).filter (stale files) = done.filter (stale files) :=
    List.filter_cons_of_neg (by simp [stale_eq_false_iff.2 hp])
  refine ⟨hw.isTree, by rw [hfilter]; exact hw.changed, ?_, by rw [hfilter]; exact hw.written_eq⟩
  intro q hq
  rcases List.mem_cons.1 hq with rfl | hq
  · exact (hw.changed.read_iff h hw.isTree fun hmem => hfresh (mem_placesOf hmem)).2 hp
  · exact hw.holds q hq

/-- A stale file is written, and listed. -/
theorem Wrote.step (hstale : stale files p = true) (h : files.IsTree) (hfresh : p.place.names ∉ placesOf done)
    (h' : files'.IsTree) (hchanged : ChangedAt [p.place.names] files files') (hp : Holds files' p)
    (hw : Wrote files' done files'' written) : Wrote files (p :: done) files'' (p.path :: written) := by
  have hsame : done.filter (stale files') = done.filter (stale files) := by
    refine List.filter_congr fun q hq => stale_eq hchanged h h' fun hmem => hfresh ?_
    rw [← List.mem_singleton.1 hmem]
    exact List.mem_map_of_mem hq
  have hfilter : (p :: done).filter (stale files) = p :: done.filter (stale files') := by
    rw [List.filter_cons_of_pos hstale, hsame]
  refine ⟨hw.isTree, ?_, ?_, ?_⟩
  · rw [hfilter]
    exact hchanged.trans hw.changed
  · intro q hq
    rcases List.mem_cons.1 hq with rfl | hq
    · exact (hw.changed.read_iff h' hw.isTree fun hmem => hfresh (mem_placesOf hmem)).2 hp
    · exact hw.holds q hq
  · rw [hfilter, List.map_cons, ← hw.written_eq]

/-- Files are written in order up to the first that fails. -/
theorem writeFiles_wrote : ∀ (planned : List PlannedFile) {files : Files} (before : List String), files.IsTree →
    (placesOf planned).Nodup → ∃ done rest written, planned = done ++ rest ∧
      Wrote files done (writeFiles planned files before).1 written ∧
      ((rest = [] ∧ (writeFiles planned files before).2 = .ok (before ++ written)) ∨
        ∃ p more fault, rest = p :: more ∧
          (writeFiles planned files before).2 = .error ⟨p.path, before ++ written, .file fault⟩)
  | [], files, before, h, _ => ⟨[], [], [], rfl, .nil h (.refl files), .inl ⟨rfl, by rw [writeFiles, List.append_nil]⟩⟩
  | p :: planned, files, before, h, hn => by
    obtain ⟨hfresh, hrest⟩ := List.nodup_cons.1 (show (p.place.names :: placesOf planned).Nodup from hn)
    have hfresh' : ∀ {done rest : List PlannedFile}, planned = done ++ rest → p.place.names ∉ placesOf done := by
      intro done rest hsplit hmem
      obtain ⟨q, hq, heq⟩ := List.mem_map.1 hmem
      refine hfresh (List.mem_map.2 ⟨q, ?_, heq⟩)
      rw [hsplit]
      exact List.mem_append_left rest hq
    rw [writeFiles]
    split
    · next fault _ =>
      exact ⟨[], p :: planned, [], rfl, .nil h (.refl files),
        .inr ⟨p, planned, fault, rfl, by rw [List.append_nil]⟩⟩
    · next hcurrent =>
      obtain ⟨done, rest, written, hsplit, hw, hend⟩ := writeFiles_wrote planned before h hrest
      exact ⟨p :: done, rest, written, by rw [hsplit, List.cons_append],
        hw.pass (isUpToDate_true_iff.1 hcurrent) h (hfresh' hsplit), hend⟩
    · next hcurrent =>
      have hstale : stale files p = true := by
        rw [← Bool.not_eq_false, stale_eq_false_iff, ← isUpToDate_true_iff, hcurrent]
        simp
      split
      · next files' fault hwrite =>
        obtain ⟨h', hchanged⟩ := writeFile_error h hwrite
        exact ⟨[], p :: planned, [], rfl, .nil h' hchanged,
          .inr ⟨p, planned, fault, rfl, by rw [List.append_nil]⟩⟩
      · next files' hwrite =>
        obtain ⟨h', hchanged, hp⟩ := writeFile_ok h hwrite
        obtain ⟨done, rest, written, hsplit, hw, hend⟩ := writeFiles_wrote planned (before ++ [p.path]) h' hrest
        rw [List.append_assoc, List.singleton_append] at hend
        exact ⟨p :: done, rest, p.path :: written, by rw [hsplit, List.cons_append],
          .step hstale h (hfresh' hsplit) h' hchanged hp hw, hend⟩

/-- Writing that fails has failed at a file: those before it are written and stale ones of them listed, and no other file
has changed. -/
theorem writeFiles_error (h : files.IsTree) (hn : (placesOf planned).Nodup) {e : OutputError}
    (herror : writeFiles planned files [] = (files', .error e)) : ∃ before p later fault, planned = before ++ p :: later ∧
      e = ⟨p.path, (before.filter (stale files)).map (·.path), .file fault⟩ ∧ (∀ q ∈ before, Holds files' q) ∧
      (∀ q ∈ p :: later, files'.fileAt? q.place.names = files.fileAt? q.place.names) ∧
      ∀ names, names ∉ placesOf before → files'.fileAt? names = files.fileAt? names := by
  obtain ⟨done, rest, written, rfl, hw, hend⟩ := writeFiles_wrote planned [] h hn
  rw [herror] at hw hend
  rcases hend with ⟨-, hend⟩ | ⟨p, later, fault, rfl, hend⟩
  · cases hend
  · have hother : ∀ names, names ∉ placesOf done → files'.fileAt? names = files.fileAt? names :=
      fun names hnames => hw.changed.fileAt_eq fun hmem => hnames (mem_placesOf hmem)
    refine ⟨done, p, later, fault, rfl, ?_, hw.holds, fun q hq => hother _ fun hmem => ?_, hother⟩
    · rw [Except.error.inj hend, List.nil_append, hw.written_eq]
    · rw [placesOf, List.map_append] at hn
      exact (List.nodup_append.1 hn).2.2 _ hmem _ (List.mem_map_of_mem hq) rfl

/-- After writing without a failure, all files are written and stale ones listed, and no other file has changed. -/
theorem writeFiles_ok (h : files.IsTree) (hn : (placesOf planned).Nodup)
    (hok : writeFiles planned files [] = (files', .ok written)) : (∀ q ∈ planned, Holds files' q) ∧
      (∀ names, names ∉ placesOf planned → files'.fileAt? names = files.fileAt? names) ∧
      written = (planned.filter (stale files)).map (·.path) := by
  obtain ⟨done, rest, listed, rfl, hw, hend⟩ := writeFiles_wrote planned [] h hn
  rw [hok] at hw hend
  rcases hend with ⟨rfl, hend⟩ | ⟨p, later, fault, rfl, hend⟩
  · rw [List.append_nil]
    refine ⟨hw.holds, fun names hnames => hw.changed.fileAt_eq fun hmem => hnames (mem_placesOf hmem), ?_⟩
    rw [Except.ok.inj hend, List.nil_append, hw.written_eq]
  · cases hend

/-- Files that are all there with their texts are left as they are. -/
theorem writeFiles_of_holds : ∀ (planned : List PlannedFile) {files : Files} (before : List String),
    (∀ p ∈ planned, Holds files p) → writeFiles planned files before = (files, .ok before)
  | [], _, _, _ => rfl
  | p :: planned, files, before, h => by
    rw [writeFiles, isUpToDate_true_iff.2 (h p List.mem_cons_self)]
    exact writeFiles_of_holds planned before fun q hq => h q (List.mem_cons_of_mem p hq)

/-! ## Planning -/

/-- The file of a unit. -/
def unitFile (directory : String) (u : CodeUnit) : PlannedFile := plannedAt directory u.path u.text

/-- The file of a report. -/
def reportFile (directory : String) (report : Report) : PlannedFile := plannedAt directory reportName report.text

/-- The files of units, and the report's file after them. -/
def intended (directory : String) (units : List CodeUnit) (report : Report) : List PlannedFile :=
  units.map (unitFile directory) ++ [reportFile directory report]

/-- The path of a unit is empty, absolute or leads up, or two units have the same place. -/
def Refused (directory : String) (units : List CodeUnit) : Prop :=
  (∃ u ∈ units, u.path = "" ∨ Place.isAbsolute u.path = true ∨ ".." ∈ Place.parts u.path) ∨
    ¬ (placesOf (units.map (unitFile directory))).Nodup

section Planning

variable {directory : String} {units : List CodeUnit} {report : Report}

theorem isContained_eq_false_iff {path : String} :
    Place.isContained path = false ↔ path = "" ∨ Place.isAbsolute path = true ∨ ".." ∈ Place.parts path := by
  rw [Place.isContained, Bool.and_eq_false_iff, Bool.and_eq_false_iff, or_assoc]
  simp

/-- A unit is refused if its path is not contained or its place is taken, and takes its place otherwise. -/
theorem planUnits_cons (u : CodeUnit) (units : List CodeUnit) (taken : List (List String)) :
    planUnits directory (u :: units) taken =
      if Place.isContained u.path = false then .error ⟨u.path, [], .escapes⟩
      else if (unitFile directory u).place.names ∈ taken then
        .error ⟨(unitFile directory u).path, [], .producedTwice u.path⟩
      else (planUnits directory units ((unitFile directory u).place.names :: taken)).map (unitFile directory u :: ·) := by
  rw [planUnits]
  cases Place.isContained u.path with
  | false => rfl
  | true =>
    by_cases htaken : (unitFile directory u).place.names ∈ taken
    · rw [if_neg (by simp), if_pos htaken]
      unfold unitFile at htaken ⊢
      simp [htaken, bind, Except.bind, throw, throwThe, MonadExceptOf.throw]
    · rw [if_neg (by simp), if_neg htaken]
      unfold unitFile at htaken ⊢
      cases hrest : planUnits directory units ((plannedAt directory u.path u.text).place.names :: taken) with
      | error e =>
        simp only [if_false, List.contains_iff_mem, htaken, hrest, bind, Except.bind]
        rfl
      | ok rest =>
        simp only [if_false, List.contains_iff_mem, htaken, hrest, bind, Except.bind]
        rfl

/-- Files are planned for units whose paths stay below the directory and lead to places that differ and are not taken. -/
theorem planUnits_ok (directory : String) : ∀ (units : List CodeUnit) (taken : List (List String)),
    (∀ u ∈ units, Place.isContained u.path = true) → (placesOf (units.map (unitFile directory)) ++ taken).Nodup →
      planUnits directory units taken = .ok (units.map (unitFile directory))
  | [], _, _, _ => rfl
  | u :: units, taken, hcontained, hn => by
    have hn' : ((unitFile directory u).place.names :: (placesOf (units.map (unitFile directory)) ++ taken)).Nodup := hn
    have htaken : (unitFile directory u).place.names ∉ taken :=
      fun hmem => (List.nodup_cons.1 hn').1 (List.mem_append_right _ hmem)
    have hrest := planUnits_ok directory units ((unitFile directory u).place.names :: taken)
      (fun v hv => hcontained v (List.mem_cons_of_mem _ hv)) (List.perm_middle.nodup_iff.2 hn')
    rw [planUnits_cons, hcontained u List.mem_cons_self, if_neg (by simp), if_neg htaken, hrest]
    rfl

/-- What units are planned for stays below the directory, at places that differ. -/
theorem planUnits_spec : ∀ {units : List CodeUnit} {taken : List (List String)} {planned : List PlannedFile},
    planUnits directory units taken = .ok planned → taken.Nodup →
      (∀ u ∈ units, Place.isContained u.path = true) ∧ (placesOf (units.map (unitFile directory)) ++ taken).Nodup
  | [], taken, planned, _, hn => ⟨by simp, hn⟩
  | u :: units, taken, planned, h, hn => by
    rw [planUnits_cons] at h
    split at h
    · cases h
    · next hu =>
      split at h
      · cases h
      · next htaken =>
        cases hrest : planUnits directory units ((unitFile directory u).place.names :: taken) with
        | error e =>
          rw [hrest] at h
          cases h
        | ok rest =>
          obtain ⟨hcontained, hn'⟩ := planUnits_spec hrest (List.nodup_cons.2 ⟨htaken, hn⟩)
          refine ⟨?_, List.perm_middle.nodup_iff.1 hn'⟩
          intro v hv
          rcases List.mem_cons.1 hv with rfl | hv
          · simpa using hu
          · exact hcontained v hv

/-- A refusal of a path comes before any writing. -/
theorem planUnits_error : ∀ {units : List CodeUnit} {taken : List (List String)} {e : OutputError},
    planUnits directory units taken = .error e → e.written = []
  | [], _, _, h => by cases h
  | u :: units, taken, e, h => by
    rw [planUnits_cons] at h
    split at h
    · cases h
      rfl
    · split at h
      · cases h
        rfl
      · cases hrest : planUnits directory units ((unitFile directory u).place.names :: taken) with
        | error e' =>
          rw [hrest] at h
          cases h
          exact planUnits_error hrest
        | ok rest =>
          rw [hrest] at h
          cases h

/-- Where no unit is refused, what is planned are the files of the units and the report. -/
theorem plan_of_not_refused (h : ¬ Refused directory units) (report : Report) :
    plan directory units report = .ok (intended directory units report) := by
  rw [Refused, not_or, not_not] at h
  obtain ⟨hpaths, hn⟩ := h
  have hcontained : ∀ u ∈ units, Place.isContained u.path = true := by
    intro u hu
    rw [← Bool.not_eq_false, isContained_eq_false_iff]
    exact fun hbad => hpaths ⟨u, hu, hbad⟩
  rw [plan, planUnits_ok directory units [] hcontained (by rwa [List.append_nil])]
  rfl

/-- Where a unit is refused, nothing is planned. -/
theorem plan_of_refused (h : Refused directory units) (report : Report) :
    ∃ e, plan directory units report = .error e ∧ e.written = [] := by
  cases hunits : planUnits directory units [] with
  | error e =>
    refine ⟨e, ?_, planUnits_error hunits⟩
    rw [plan, hunits]
    rfl
  | ok planned =>
    obtain ⟨hcontained, hn⟩ := planUnits_spec hunits List.nodup_nil
    rcases h with ⟨u, hu, hbad⟩ | htwice
    · have := hcontained u hu
      rw [isContained_eq_false_iff.2 hbad] at this
      cases this
    · exact absurd (by rwa [List.append_nil] at hn) htwice

/-- The files of units and of a report are at different places, where no unit is refused or has the report's place. -/
theorem nodup_intended (h : ¬ Refused directory units)
    (hreport : ∀ u ∈ units, (unitFile directory u).place.names ≠ (reportFile directory report).place.names) :
    (placesOf (intended directory units report)).Nodup := by
  rw [Refused, not_or, not_not] at h
  rw [intended, placesOf, List.map_append, List.nodup_append]
  refine ⟨h.2, by simp, ?_⟩
  intro names hunit names' hlast heq
  obtain ⟨p, hp, rfl⟩ := List.mem_map.1 hunit
  obtain ⟨u, hu, rfl⟩ := List.mem_map.1 hp
  rw [List.map_singleton, List.mem_singleton] at hlast
  exact hreport u hu (heq.trans hlast)

end Planning

/-! ## All that writing does -/

/-- Writing units and their report into a tree of files, where no unit has the report's place. Where a path is refused,
nothing is written. Else a failure is one of the file system at some file: the files before it are there with their
texts, those of them that were not before are listed, and no other file has changed. Without a failure all files are
there with their texts, those that were not before are listed, no other file has changed, and writing the same again
changes nothing. -/
theorem write_accounts {files : Files} (h : files.IsTree) (directory : String) (units : List CodeUnit) (report : Report)
    (hreport : ∀ u ∈ units, (unitFile directory u).place.names ≠ (reportFile directory report).place.names) :
    (Refused directory units → ∃ e, write files directory units report = (files, .error e) ∧ e.written = []) ∧
    (¬ Refused directory units → ∀ files' e, write files directory units report = (files', .error e) →
      ∃ before p later fault, intended directory units report = before ++ p :: later ∧
        e = ⟨p.path, (before.filter (stale files)).map (·.path), .file fault⟩ ∧
        (∀ q ∈ before, Holds files' q) ∧
        (∀ q ∈ p :: later, files'.fileAt? q.place.names = files.fileAt? q.place.names) ∧
        ∀ names, names ∉ placesOf before → files'.fileAt? names = files.fileAt? names) ∧
    ∀ files' written, write files directory units report = (files', .ok written) →
      (∀ q ∈ intended directory units report, Holds files' q) ∧
      (∀ names, names ∉ placesOf (intended directory units report) → files'.fileAt? names = files.fileAt? names) ∧
      written = ((intended directory units report).filter (stale files)).map (·.path) ∧
      write files' directory units report = (files', .ok []) := by
  by_cases hrefused : Refused directory units
  · obtain ⟨e, hplan, hwritten⟩ := plan_of_refused hrefused report
    have hwrite : write files directory units report = (files, .error e) := by rw [write, hplan]
    refine ⟨fun _ => ⟨e, hwrite, hwritten⟩, fun hno => absurd hrefused hno, fun files' written hok => ?_⟩
    rw [hwrite] at hok
    cases hok
  · have hplan := plan_of_not_refused hrefused report
    have hn := nodup_intended hrefused hreport
    have hwrite (files : Files) : write files directory units report =
        writeFiles (intended directory units report) files [] := by rw [write, hplan]
    refine ⟨fun hyes => absurd hyes hrefused, fun _ files' e herror => ?_, fun files' written hok => ?_⟩
    · exact writeFiles_error h hn ((hwrite files).symm.trans herror)
    · obtain ⟨hholds, hother, hwritten⟩ := writeFiles_ok h hn ((hwrite files).symm.trans hok)
      exact ⟨hholds, hother, hwritten, (hwrite files').trans (writeFiles_of_holds _ [] hholds)⟩

/-- A directory with a file that is as planned, one that is not, and nothing else. -/
def partlyWritten : Files :=
  ⟨[(["out"], .directory), (["out", "kept"], .file "a".toUTF8), (["out", "old"], .file "b".toUTF8)]⟩

/-- Units for the two files of the directory, and one in a directory that is not there. -/
def threeUnits : List CodeUnit := [⟨"K", .model, "kept", "a"⟩, ⟨"O", .model, "./old", "c"⟩, ⟨"N", .model, "deep/new", "d"⟩]

theorem write_accounts_partlyWritten :
    ∃ files', write partlyWritten "out" threeUnits ⟨[], []⟩ =
        (files', .ok ["out/./old", "out/deep/new", "out/apigen-report.json"]) ∧
      files'.read ⟨["out", "deep", "new"], .name⟩ = .ok "d".toUTF8 ∧
      write files' "out" threeUnits ⟨[], []⟩ = (files', .ok []) := by
  have hlisted : (write partlyWritten "out" threeUnits ⟨[], []⟩).2 =
      .ok ["out/./old", "out/deep/new", "out/apigen-report.json"] := by decide +kernel
  obtain ⟨hholds, -, -, hagain⟩ := (write_accounts (Files.isTree_of_entries (by decide +kernel)) "out" threeUnits ⟨[], []⟩
    (by decide +kernel)).2.2 _ _ (Prod.ext rfl hlisted)
  exact ⟨_, Prod.ext rfl hlisted, hholds _ (List.mem_of_getElem? (i := 2) rfl), hagain⟩

end ContractBindings.Output
