import Mathlib.Data.List.Induction
import ContractBindings.Files
import ContractBindings.Proofs.Lookup

/-!
# Trees of files

In a tree of files a directory holds whatever stands anywhere (`Files.IsTree`). So what stands at a place tells whether
the place can be reached, and reading, making directories and writing are told by the places that they meet
(`read_eq_ok_iff`, `makeDirectories_ok`, `write_ok`).

A change of the tree is told by the places of the files that it writes: at any other place nothing changes, but that a
directory is made where nothing stood (`Files.ChangedAt`). So a file at another place reads as before
(`ChangedAt.read_iff`).
-/

namespace ContractBindings.Files

/-- Whatever stands at a place is held by a directory. -/
def IsTree (files : Files) : Prop :=
  ∀ names, files.get? names ≠ none → files.get? names.dropLast = some .directory

/-- The bytes of the file that stands at a place. -/
def fileAt? (files : Files) (names : List String) : Option ByteArray :=
  match files.get? names with
  | some (.file bytes) => some bytes
  | _ => none

/-- From one tree to the other, files are written at the given places only; elsewhere at most directories are made where
nothing stood. -/
def ChangedAt (places : List (List String)) (files files' : Files) : Prop :=
  ∀ names, names ∉ places → files'.get? names = files.get? names ∨
    (files.get? names = none ∧ files'.get? names = some .directory)

variable {files files' files'' : Files} {names above path : List String} {place : Place} {bytes : ByteArray}
  {places places' : List (List String)}

theorem get?_root (files : Files) : files.get? [] = some .directory := rfl

theorem fileAt?_eq_some_iff : files.fileAt? names = some bytes ↔ files.get? names = some (.file bytes) := by
  unfold fileAt?
  split
  · next own h => rw [h, Option.some.injEq, Option.some.injEq, FileEntry.file.injEq]
  · next h =>
    constructor
    · intro heq
      cases heq
    · exact fun heq => absurd heq (h bytes)

/-! ## Changes -/

namespace ChangedAt

theorem refl (files : Files) : ChangedAt [] files files := fun _ _ => .inl rfl

theorem trans (h : ChangedAt places files files') (h' : ChangedAt places' files' files'') :
    ChangedAt (places ++ places') files files'' := by
  intro names hnames
  rw [List.mem_append, not_or] at hnames
  rcases h names hnames.1 with heq | ⟨hnone, hmade⟩ <;> rcases h' names hnames.2 with heq' | ⟨hnone', hmade'⟩
  · exact .inl (heq'.trans heq)
  · exact .inr ⟨heq ▸ hnone', hmade'⟩
  · exact .inr ⟨hnone, heq'.trans hmade⟩
  · rw [hmade] at hnone'
    cases hnone'

/-- A file is written. -/
theorem put (files : Files) (names : List String) (entry : FileEntry) :
    ChangedAt [names] files (files.put names entry) := by
  intro other hother
  exact .inl (get?_put_of_ne files (fun h => hother (List.mem_singleton.2 h)) entry)

/-- A directory is made where nothing stood. -/
theorem put_directory (h : files.get? names = none) : ChangedAt [] files (files.put names .directory) := by
  intro other _
  by_cases heq : other = names
  · subst heq
    have hne : other ≠ [] := by
      rintro rfl
      cases h
    exact .inr ⟨h, get?_put_self files hne .directory⟩
  · exact .inl (get?_put_of_ne files heq .directory)

/-- At other places the same files stand. -/
theorem fileAt_eq (h : ChangedAt places files files') (hnames : names ∉ places) :
    files'.fileAt? names = files.fileAt? names := by
  rcases h names hnames with heq | ⟨hnone, hmade⟩
  · rw [fileAt?, fileAt?, heq]
  · rw [fileAt?, fileAt?, hnone, hmade]

/-- Where no file is written, a directory stays. -/
theorem directory (h : ChangedAt [] files files') (hd : files.get? names = some .directory) :
    files'.get? names = some .directory := by
  rcases h names List.not_mem_nil with heq | ⟨hnone, -⟩
  · rw [heq, hd]
  · rw [hd] at hnone
    cases hnone

end ChangedAt

/-! ## What a tree holds -/

/-- That directories hold all that stands can be tested. -/
theorem isTree_of_entries (h : ∀ e ∈ files.entries, files.get? e.1.dropLast = some .directory) : files.IsTree := by
  intro names hstands
  by_cases hempty : names = []
  · rw [hempty]
    rfl
  · obtain ⟨entry, hentry⟩ := Option.ne_none_iff_exists'.1 hstands
    rw [get?, if_neg hempty] at hentry
    exact h _ (mem_of_lookup hentry)

/-- What is on the way to something is a directory. -/
theorem IsTree.directory_above (h : files.IsTree) (hpath : path ≠ []) (hstands : files.get? (above ++ path) ≠ none) :
    files.get? above = some .directory := by
  induction path using List.reverseRecOn with
  | nil => exact absurd rfl hpath
  | append_singleton path name ih =>
    have hholder := h _ hstands
    rw [← List.append_assoc, List.dropLast_concat] at hholder
    by_cases hempty : path = []
    · rwa [hempty, List.append_nil] at hholder
    · exact ih hempty (by rw [hholder]; simp)

theorem isTree_put {entry : FileEntry} (h : files.IsTree) (hnames : names ≠ [])
    (hholder : files.get? names.dropLast = some .directory)
    (hentry : entry = .directory ∨ files.get? names ≠ some .directory) : (files.put names entry).IsTree := by
  -- what stood at the place was no directory that holds anything, or a directory stands there now
  have hkept : ∀ {other : List String}, files.get? other = some .directory →
      (files.put names entry).get? other = some .directory := by
    intro other hother
    by_cases heq : other = names
    · subst heq
      rcases hentry with rfl | hentry
      · exact get?_put_self files hnames .directory
      · exact absurd hother hentry
    · rw [get?_put_of_ne files heq, hother]
  intro other hother
  by_cases heq : other = names
  · subst heq
    exact hkept hholder
  · rw [get?_put_of_ne files heq] at hother
    exact hkept (h other hother)

/-! ## Ways down -/

theorem descend_ok (h : files.IsTree) (hend : files.get? (above ++ path) = some .directory) :
    files.descend above path = .ok () := by
  induction path generalizing above with
  | nil => rfl
  | cons name rest ih =>
    rw [List.append_cons] at hend
    have hnext : files.get? (above ++ [name]) = some .directory := by
      by_cases hrest : rest = []
      · rwa [hrest, List.append_nil] at hend
      · exact h.directory_above hrest (by rw [hend]; simp)
    rw [descend, hnext]
    exact ih hend

theorem directory_of_descend (habove : files.get? above = some .directory) (h : files.descend above path = .ok ()) :
    files.get? (above ++ path) = some .directory := by
  induction path generalizing above with
  | nil => rwa [List.append_nil]
  | cons name rest ih =>
    rw [descend] at h
    rw [List.append_cons]
    split at h
    · next hnext => exact ih hnext h
    · cases h
    · cases h

/-- Missing directories are made, and nothing else changes. -/
theorem makeDirectories_ok (h : files.IsTree) (habove : files.get? above = some .directory)
    (hmade : files.makeDirectories above path = .ok files') :
    files'.IsTree ∧ ChangedAt [] files files' ∧ files'.get? (above ++ path) = some .directory := by
  induction path generalizing files above with
  | nil =>
    cases hmade
    exact ⟨h, .refl _, by rwa [List.append_nil]⟩
  | cons name rest ih =>
    rw [makeDirectories] at hmade
    rw [List.append_cons]
    split at hmade
    · next hnext => exact ih h hnext hmade
    · cases hmade
    · next hnone =>
      have hne : above ++ [name] ≠ [] := by simp
      have hput : (files.put (above ++ [name]) .directory).IsTree :=
        isTree_put h hne (by rwa [List.dropLast_concat]) (.inl rfl)
      obtain ⟨htree, hchanged, hend⟩ := ih hput (get?_put_self files hne .directory) hmade
      exact ⟨htree, (ChangedAt.put_directory hnone).trans hchanged, hend⟩

/-! ## Files -/

/-- A file is read where it stands, by a path that ends in its name. -/
theorem read_eq_ok_iff (h : files.IsTree) :
    files.read place = .ok bytes ↔ place.ending = .name ∧ files.get? place.names = some (.file bytes) := by
  unfold read
  constructor
  · intro hread
    cases hdescend : files.descend [] place.parent with
    | error fault =>
      rw [hdescend] at hread
      cases hread
    | ok =>
      rw [hdescend] at hread
      dsimp only [bind, Except.bind] at hread
      split at hread
      · cases hread
      · next own hfile hname =>
        cases hread
        exact ⟨hname, hfile⟩
      · cases hread
      · cases hread
  · rintro ⟨hname, hfile⟩
    have hdescend : files.descend [] place.parent = .ok () :=
      descend_ok h (h place.names (by rw [hfile]; simp))
    rw [hdescend, hfile, hname]
    rfl

/-- A written file stands at its place, which was no directory, and nothing else changes. -/
theorem write_ok (h : files.IsTree) (hwrite : files.write place bytes = .ok files') :
    files'.IsTree ∧ ChangedAt [place.names] files files' ∧ files'.read place = .ok bytes := by
  have hput : files.get? place.names.dropLast = some .directory ∧ place.ending = .name ∧
      files.get? place.names ≠ some .directory ∧ files' = files.put place.names (.file bytes) := by
    unfold write at hwrite
    cases hdescend : files.descend [] place.parent with
    | error fault =>
      rw [hdescend] at hwrite
      cases hwrite
    | ok =>
      rw [hdescend] at hwrite
      dsimp only [bind, Except.bind] at hwrite
      refine ⟨directory_of_descend (get?_root files) hdescend, ?_⟩
      split at hwrite
      · cases hwrite
      · next hname hno =>
        cases hwrite
        exact ⟨hname, hno, rfl⟩
      · cases hwrite
      · cases hwrite
      · cases hwrite
  obtain ⟨hholder, hname, hno, rfl⟩ := hput
  have hne : place.names ≠ [] := fun hempty => hno (by rw [hempty, get?_root])
  have htree : (files.put place.names (.file bytes)).IsTree := isTree_put h hne hholder (.inr hno)
  exact ⟨htree, .put files place.names _, (read_eq_ok_iff htree).2 ⟨hname, get?_put_self files hne _⟩⟩

/-- A file at another place reads as before. -/
theorem ChangedAt.read_iff (hchanged : ChangedAt places files files') (h : files.IsTree) (h' : files'.IsTree)
    (hplace : place.names ∉ places) : files'.read place = .ok bytes ↔ files.read place = .ok bytes := by
  rw [read_eq_ok_iff h, read_eq_ok_iff h', ← fileAt?_eq_some_iff, ← fileAt?_eq_some_iff, hchanged.fileAt_eq hplace]

end ContractBindings.Files
