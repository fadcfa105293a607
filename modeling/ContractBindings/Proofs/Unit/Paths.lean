import ContractBindings.Files
import ContractBindings.Proofs.Naming.SnakeForm
import ContractBindings.Proofs.Schema.Identity
import ContractBindings.Proofs.Unit.Outcomes
import ContractBindings.Text.CaseMapping

/-!
# Paths of units

The path of a unit has two parts, the folder of its kind and the file named after it (`parts_path`), so it tells the
kind and the snake form of the name (`path_inj`). It leads to no other directory (`path_normal`) and is written without
capitals, so it is its own lower case (`lower_path`). Where the snake forms of the names of a kind differ, so do the
paths of all units of a model (`ofModel_paths_nodup`).
-/

namespace ContractBindings

open Naming

/-! ## Lower case -/

theorem Naming.SmallChar.toNat_lt {c : Char} (h : SmallChar c) : c.toNat < 0x80 := by
  rcases h.2 with h | rfl
  · delta Char.isAlphanum Char.isAlpha Char.isUpper Char.isLower Char.isDigit at h
    simp only [Bool.or_eq_true, Bool.and_eq_true, decide_eq_true_eq, UInt32.le_iff_toNat_le, ge_iff_le] at h
    have hval : c.toNat = c.val.toNat := rfl
    have hZ : 'Z'.val.toNat = 90 := rfl
    have hz : 'z'.val.toNat = 122 := rfl
    have h9 : '9'.val.toNat = 57 := rfl
    omega
  · decide

/-- That characters are ASCII without capitals can be tested. -/
theorem Text.small_of_all {cs : List Char} (h : (cs.all fun c => decide (c.toNat < 0x80) && !c.isUpper) = true) :
    ∀ c ∈ cs, c.toNat < 0x80 ∧ c.isUpper = false := by
  intro c hc
  have hsmall := List.all_eq_true.1 h c hc
  simpa using hsmall

/-- A text of ASCII characters without capitals is its own lower case. -/
theorem Text.lower_of_small {s : String} (h : ∀ c ∈ s.toList, c.toNat < 0x80 ∧ c.isUpper = false) :
    Text.lower s = s := by
  have hmain : ∀ (cs before : List Char), (∀ c ∈ cs, c.toNat < 0x80 ∧ c.isUpper = false) →
      Text.lowerFrom before cs = cs := by
    intro cs
    induction cs with
    | nil =>
      intro _ _
      rfl
    | cons c cs ih =>
      intro before hcs
      obtain ⟨hlt, hupper⟩ := hcs c List.mem_cons_self
      have hsigma : (c == Char.ofNat 0x3A3) = false := by
        rw [beq_eq_false_iff_ne]
        rintro rfl
        exact absurd hlt (by decide)
      have hchar : Text.lowerChar c = [c] := by rw [Text.lowerChar, if_pos hlt, toLower_of_not_isUpper hupper]
      have hrest : Text.lowerFrom (c :: before) cs = cs := ih _ fun d hd => hcs d (List.mem_cons_of_mem _ hd)
      rw [Text.lowerFrom, hsigma, hchar, hrest]
      rfl
  rw [Text.lower, hmain _ _ h, String.ofList_toList]

/-! ## The path of a unit -/

namespace UnitKind

variable (kind : UnitKind) (name : String) (target : Target)

theorem toList_path : (kind.path name target).toList =
    kind.folder.toList ++ '/' :: ((snakeCase name).toList ++ '.' :: target.extension.toList) := by
  simp [UnitKind.path, String.toList_append]

theorem not_mem_snakeCase {c : Char} (h : ¬ SmallChar c) : c ∉ (snakeCase name).toList :=
  fun hc => h (smallLettered_snakeCase name c hc)

/-- A path has two parts: the folder and the file. -/
theorem parts_path : Place.parts (kind.path name target) =
    [kind.folder, snakeCase name ++ "." ++ target.extension] := by
  have hslash : ¬ SmallChar '/' := by
    rintro ⟨-, h | h⟩
    · exact absurd h (by decide)
    · exact absurd h (by decide)
  have hfolder : '/' ∉ kind.folder.toList := by
    cases kind <;> decide
  have hfile : '/' ∉ (snakeCase name).toList ++ '.' :: target.extension.toList := by
    rw [List.mem_append]
    rintro (h | h)
    · exact not_mem_snakeCase name hslash h
    · cases target <;> exact absurd h (by decide)
  have hjoin : String.ofList ((snakeCase name).toList ++ '.' :: target.extension.toList) =
      snakeCase name ++ "." ++ target.extension := by
    rw [← String.toList_inj]
    simp [String.toList_append]
  rw [Place.parts, toList_path, Pointer.splitSlash_append_slash, Pointer.splitSlash_of_not_mem hfolder,
    Pointer.splitSlash_of_not_mem hfile, List.singleton_append, List.map_cons, List.map_singleton, String.ofList_toList,
    hjoin]

theorem length_file : 3 ≤ (snakeCase name ++ "." ++ target.extension).toList.length := by
  cases target <;> simp [String.toList_append, Target.extension]

/-- A path begins with the name of a folder, and no part of it leads elsewhere than down. -/
theorem path_normal : Place.isAbsolute (kind.path name target) = false ∧
    ∀ part ∈ Place.parts (kind.path name target), part ≠ "" ∧ part ≠ "." ∧ part ≠ ".." := by
  constructor
  · rw [Place.isAbsolute, toList_path]
    cases kind <;> rfl
  · intro part hpart
    rw [parts_path, List.mem_cons, List.mem_singleton] at hpart
    rcases hpart with rfl | rfl
    · cases kind <;> decide
    · have hlength := length_file name target
      refine ⟨?_, ?_, ?_⟩ <;>
        · intro h
          rw [h] at hlength
          exact absurd hlength (by decide)

/-- A path is written in ASCII without capitals. -/
theorem path_small : ∀ c ∈ (kind.path name target).toList, c.toNat < 0x80 ∧ c.isUpper = false := by
  have hfolder : ∀ c ∈ kind.folder.toList, c.toNat < 0x80 ∧ c.isUpper = false := by
    cases kind <;> exact Text.small_of_all (by decide)
  have hend : ∀ c ∈ '.' :: target.extension.toList, c.toNat < 0x80 ∧ c.isUpper = false := by
    cases target <;> exact Text.small_of_all (by decide)
  intro c hc
  rw [toList_path, List.mem_append, List.mem_cons, List.mem_append] at hc
  rcases hc with hc | rfl | hc | hc
  · exact hfolder c hc
  · decide
  · have hsmall := smallLettered_snakeCase name c hc
    exact ⟨hsmall.toNat_lt, hsmall.1⟩
  · exact hend c hc

theorem lower_path : Text.lower (kind.path name target) = kind.path name target :=
  Text.lower_of_small (path_small kind name target)

variable {kind name target}

/-- A path tells the kind and the snake form of the name. -/
theorem path_inj {kind' : UnitKind} {name' : String} (h : kind.path name target = kind'.path name' target) :
    kind = kind' ∧ snakeCase name = snakeCase name' := by
  have hparts : Place.parts (kind.path name target) = Place.parts (kind'.path name' target) := by rw [h]
  rw [parts_path, parts_path] at hparts
  obtain ⟨hfolder, hfile⟩ := List.cons.inj hparts
  constructor
  · cases kind <;> cases kind' <;> first | rfl | exact absurd hfolder (by decide)
  · have hchars := congrArg String.toList (List.cons.inj hfile).1
    simp only [String.toList_append, List.append_assoc] at hchars
    exact String.toList_inj.1 (List.append_cancel_right hchars)

end UnitKind

/-! ## The paths of all units -/

namespace CodeUnit

/-- A unit stands at the path of its kind and name. -/
theorem path_of_assemble {target : Target} {info : Info} {config : Config} {kind : UnitKind} {name : String}
    {parts : Except UnitError UnitParts} {u : CodeUnit} (h : assemble target info config kind name parts = .ok u) :
    u.path = u.kind.path u.name target := by
  obtain ⟨p, -, -, -, hpath⟩ := ok_of_assemble h
  have hanswers := assemble_answers target info config kind name parts
  rw [h] at hanswers
  have hkey : (u.kind, u.name) = (kind, name) := hanswers
  rw [hpath, (Prod.mk.inj hkey).1, (Prod.mk.inj hkey).2]

theorem path_of_mem {target : Target} {info : Info} {config : Config} {m : Model} {u : CodeUnit}
    (hu : u ∈ (ofModel target info config m).1) : u.path = u.kind.path u.name target := by
  rw [ofModel, List.mem_filterMap] at hu
  obtain ⟨outcome, houtcome, hok⟩ := hu
  cases outcome with
  | error d => cases hok
  | ok unit =>
    cases hok
    rcases List.mem_append.1 houtcome with h | h
    · obtain ⟨t, -, ht⟩ := List.mem_map.1 h
      exact path_of_assemble ht
    · obtain ⟨o, -, ho⟩ := List.mem_map.1 h
      exact path_of_assemble ho

/-- The kinds of a model's units with the snake forms of their names differ, where the forms of each kind do. -/
theorem keys_forms_nodup {m : Model} (htypes : (m.types.map fun t => snakeCase t.name).Nodup)
    (hoperations : (m.operations.map fun o => snakeCase o.id).Nodup) :
    ((keys m).map fun key => (key.1, snakeCase key.2)).Nodup := by
  have hmap : (keys m).map (fun key => (key.1, snakeCase key.2)) =
      (m.types.map fun t => snakeCase t.name).map (fun form => (UnitKind.model, form)) ++
        (m.operations.map fun o => snakeCase o.id).map fun form => (UnitKind.operation, form) := by
    rw [keys, List.map_append, List.map_map, List.map_map, List.map_map, List.map_map]
    rfl
  rw [hmap, List.nodup_append]
  refine ⟨htypes.map fun _ _ h => (Prod.mk.inj h).2, hoperations.map fun _ _ h => (Prod.mk.inj h).2, ?_⟩
  intro x hx y hy hxy
  obtain ⟨_, -, rfl⟩ := List.mem_map.1 hx
  obtain ⟨_, -, rfl⟩ := List.mem_map.1 hy
  cases hxy

/-- The paths of a model's units differ, where the snake forms of the names of each kind do. -/
theorem ofModel_paths_nodup (target : Target) (info : Info) (config : Config) {m : Model}
    (htypes : (m.types.map fun t => snakeCase t.name).Nodup)
    (hoperations : (m.operations.map fun o => snakeCase o.id).Nodup) :
    ((ofModel target info config m).1.map CodeUnit.path).Nodup := by
  obtain ⟨failed, hperm, -⟩ := ofModel_accounts target info config m
  have hforms : (((ofModel target info config m).1.map key).map fun k => (k.1, snakeCase k.2)).Nodup := by
    have hall := ((hperm.map fun k => (k.1, snakeCase k.2)).nodup_iff).2 (keys_forms_nodup htypes hoperations)
    rw [List.map_append] at hall
    exact (List.nodup_append.1 hall).1
  rw [List.map_map] at hforms
  have hpair := List.pairwise_map.1 hforms
  refine List.pairwise_map.2 (hpair.imp_of_mem ?_)
  intro u u' hu hu' hne heq
  rw [path_of_mem hu, path_of_mem hu'] at heq
  obtain ⟨hkind, hform⟩ := UnitKind.path_inj heq
  exact hne (by simp [key, hkind, hform])

end CodeUnit

end ContractBindings
