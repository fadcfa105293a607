import Mathlib.Data.List.Nodup
import Mathlib.Data.List.Pairwise
import Mathlib.Data.List.Perm.Subperm
import Mathlib.Data.Nat.Find
import ContractBindings.Messages.OfModel
import ContractBindings.Proofs.Model.Claims
import ContractBindings.Proofs.Naming.SnakeForm

/-!
# Names of enumeration values

The values of an enumeration are named by its own name and a *stem* (`valueNames_ofType`). The zero is given a stem that
none of the other values has (`zeroName_not_mem`), so the names in one enumeration differ (`stems_nodup`). Those of two
enumerations do unless the name of one goes on from that of the other with words that begin one of its values
(`TypeDef.Overlaps`): then a text can be taken apart in two ways (`append_underscore_inj`).
-/

namespace ContractBindings

open Naming

namespace Messages

/-- The names of the values of an enumeration, the zero first. -/
def Enumeration.valueNames (e : Enumeration) : List String := e.zero :: e.values.map (·.2)

/-- The names of the enumeration values that a unit declares. -/
def Declaration.valueNames : Declaration → List String
  | .enumeration e => e.valueNames
  | _ => []

/-! ## The zero -/

/-- A name that is made longer a number of times. -/
def lengthened (name : String) : Nat → String
  | 0 => name
  | times + 1 => lengthened (name ++ "_VALUE") times

theorem length_lengthened : ∀ (times : Nat) (name : String), (lengthened name times).length = name.length + 6 * times
  | 0, _ => rfl
  | times + 1, name => by
    rw [lengthened, length_lengthened times, String.length_append, show "_VALUE".length = 6 by decide]
    omega

theorem lengthened_injective (name : String) : Function.Injective (lengthened name) := by
  intro i j h
  have hlength := congrArg String.length h
  rw [length_lengthened, length_lengthened] at hlength
  omega

/-- So many times a name is made longer until it is none of the others. -/
structure FirstFree (taken : List String) (name : String) (times : Nat) : Prop where
  free : lengthened name times ∉ taken
  passed : ∀ earlier < times, lengthened name earlier ∈ taken

/-- The loop ends at the first free name, whatever fuel it has beyond that. -/
theorem FirstFree.zeroName_eq {taken : List String} : ∀ {fuel : Nat} {name : String} {times : Nat},
    FirstFree taken name times → times < fuel → zeroName taken fuel name = lengthened name times
  | 0, _, _, _, hfuel => absurd hfuel (Nat.not_lt_zero _)
  | fuel + 1, name, 0, h, _ => by
    have hfree : name ∉ taken := h.free
    rw [zeroName, if_neg (by simpa using hfree)]
    rfl
  | fuel + 1, name, times + 1, h, hfuel => by
    have hmem : name ∈ taken := h.passed 0 (Nat.succ_pos times)
    rw [zeroName, if_pos (by simpa using hmem)]
    exact zeroName_eq ⟨h.free, fun earlier hlt => h.passed (earlier + 1) (Nat.succ_lt_succ hlt)⟩ (Nat.lt_of_succ_lt_succ hfuel)

/-- Of one more lengthened names than there are others one is none of them. -/
theorem exists_firstFree (taken : List String) (name : String) : ∃ times ≤ taken.length, FirstFree taken name times := by
  have hexists : ∃ times < taken.length + 1, lengthened name times ∉ taken := by
    by_contra! hno
    have hsub : (List.range (taken.length + 1)).map (lengthened name) ⊆ taken := by
      intro form hform
      obtain ⟨times, htimes, rfl⟩ := List.mem_map.1 hform
      exact hno times (List.mem_range.1 htimes)
    have hnodup := List.Nodup.map (lengthened_injective name) (List.nodup_range (n := taken.length + 1))
    have hlength := (List.subperm_of_subset hnodup hsub).length_le
    rw [List.length_map, List.length_range] at hlength
    omega
  obtain ⟨hlt, hfree⟩ := Nat.find_spec hexists
  refine ⟨Nat.find hexists, by omega, hfree, fun earlier hearlier => ?_⟩
  by_contra hmem
  exact Nat.find_min hexists hearlier ⟨by omega, hmem⟩

/-- The fuel is enough: the name of the zero is the first free one. -/
theorem zeroName_firstFree (taken : List String) (name : String) : ∃ times ≤ taken.length, FirstFree taken name times ∧
    zeroName taken (taken.length + 1) name = lengthened name times := by
  obtain ⟨times, hle, hfirst⟩ := exists_firstFree taken name
  exact ⟨times, hle, hfirst, hfirst.zeroName_eq (by omega)⟩

theorem zeroName_not_mem (taken : List String) (name : String) : zeroName taken (taken.length + 1) name ∉ taken := by
  obtain ⟨times, -, hfirst, heq⟩ := zeroName_firstFree taken name
  exact heq ▸ hfirst.free

theorem prepend_injective (front : String) : Function.Injective (front ++ ·) :=
  fun _ _ h => (String.append_right_inj front).1 h

/-- What is in front of all names stays in front of the zero. -/
theorem zeroName_prepend (front : String) (taken : List String) : ∀ (fuel : Nat) (name : String),
    zeroName (taken.map (front ++ ·)) fuel (front ++ name) = front ++ zeroName taken fuel name
  | 0, _ => rfl
  | fuel + 1, name => by
    have hcontains : (taken.map (front ++ ·)).contains (front ++ name) = taken.contains name := by
      rw [Bool.eq_iff_iff, List.contains_iff_mem, List.contains_iff_mem]
      exact List.mem_map_of_injective (prepend_injective front)
    rw [zeroName, zeroName, hcontains, String.append_assoc, zeroName_prepend front taken fuel, apply_ite (front ++ ·)]

end Messages

open Messages

/-! ## Stems -/

/-- What the names of the values of an enumeration end in, the zero first. -/
def TypeBody.stems : TypeBody → List String
  | .enumeration _ variants =>
    zeroName (variants.map fun v => screamingSnakeCase v.name) (variants.length + 1) "UNSPECIFIED"
      :: variants.map fun v => screamingSnakeCase v.name
  | _ => []

/-- The values are named by the name of the enumeration and their stems. -/
theorem valueNames_ofType (t : TypeDef) : (Declaration.ofType t).valueNames =
    t.body.stems.map fun stem => screamingSnakeCase t.name ++ "_" ++ stem := by
  unfold Declaration.ofType
  cases hbody : t.body with
  | enumeration repr variants =>
    have hvalues : (variants.map fun v => screamingSnakeCase t.name ++ "_" ++ screamingSnakeCase v.name) =
        (variants.map fun v => screamingSnakeCase v.name).map (screamingSnakeCase t.name ++ "_" ++ ·) := by
      rw [List.map_map]
      rfl
    have hzero : screamingSnakeCase t.name ++ "_UNSPECIFIED" = screamingSnakeCase t.name ++ "_" ++ "UNSPECIFIED" := by
      rw [String.append_assoc]
      rfl
    simp only [Declaration.valueNames, Enumeration.valueNames, Enumeration.ofVariants, TypeBody.stems, List.map_map,
      Function.comp_def, List.length_map, List.map_cons, hzero]
    rw [hvalues, zeroName_prepend, List.map_map]
  | _ => rfl

/-- The stems of an enumeration with names from claims differ. -/
theorem stems_nodup {target : Target} {b : TypeBody} (h : b.Claimed target) : b.stems.Nodup := by
  cases b with
  | enumeration repr variants =>
    have hnames : variants.map (·.name) = ((Registry.reserving ["Self"]).claimAll _).1 := h.variants
    have hforms : ((variants.map (·.name)).map snakeCase).Nodup := hnames ▸ (Registry.claimAll_forms _ _).1
    rw [List.map_map] at hforms
    have hstems := nodup_screamingSnakeCase hforms
    have hzero := zeroName_not_mem (variants.map fun v => screamingSnakeCase v.name) "UNSPECIFIED"
    rw [List.length_map] at hzero
    exact List.nodup_cons.2 ⟨hzero, hstems⟩
  | _ => exact List.nodup_nil

/-! ## Two enumerations -/

/-- A text that is taken apart at two underscores: they are one, or what stands in front of one of them goes on from what
stands in front of the other. -/
theorem append_cons_inj {c : Char} {a b v w : List Char} (h : a ++ c :: v = b ++ c :: w) :
    a = b ∨ (∃ x, b = a ++ c :: x ∧ v = x ++ c :: w) ∨ ∃ x, a = b ++ c :: x ∧ w = x ++ c :: v := by
  rcases List.append_eq_append_iff.1 h with ⟨r, hb, hv⟩ | ⟨r, ha, hw⟩
  · cases r with
    | nil => exact .inl (by rw [hb, List.append_nil])
    | cons d x =>
      obtain ⟨rfl, htail⟩ := List.cons.inj hv
      exact .inr (.inl ⟨x, hb, htail⟩)
  · cases r with
    | nil => exact .inl (by rw [ha, List.append_nil])
    | cons d x =>
      obtain ⟨rfl, htail⟩ := List.cons.inj hw
      exact .inr (.inr ⟨x, ha, htail⟩)

theorem append_underscore_inj {a b v w : String} (h : a ++ "_" ++ v = b ++ "_" ++ w) :
    a = b ∨ (∃ x, b = a ++ "_" ++ x ∧ v = x ++ "_" ++ w) ∨ ∃ x, a = b ++ "_" ++ x ∧ w = x ++ "_" ++ v := by
  have htext (s t : String) : (s ++ "_" ++ t).toList = s.toList ++ '_' :: t.toList := by
    rw [String.toList_append, String.toList_append, List.append_assoc]
    rfl
  have hback {s t : String} {x : List Char} (hs : s.toList = t.toList ++ '_' :: x) : s = t ++ "_" ++ String.ofList x :=
    String.toList_inj.1 (by rw [htext, String.toList_ofList, hs])
  have hfront {s t : String} {x : List Char} (hs : s.toList = x ++ '_' :: t.toList) : s = String.ofList x ++ "_" ++ t :=
    String.toList_inj.1 (by rw [htext, String.toList_ofList, hs])
  have hlist := congrArg String.toList h
  rw [htext, htext] at hlist
  rcases append_cons_inj hlist with hab | ⟨x, hb, hv⟩ | ⟨x, ha, hw⟩
  · exact .inl (String.toList_inj.1 hab)
  · exact .inr (.inl ⟨String.ofList x, hback hb, hfront hv⟩)
  · exact .inr (.inr ⟨String.ofList x, hback ha, hfront hw⟩)

/-- The name of the second enumeration goes on from that of the first with words that begin a value of the first; behind
them stands what is a value of the second. -/
def TypeDef.Overlaps (t u : TypeDef) : Prop :=
  ∃ between, screamingSnakeCase u.name = screamingSnakeCase t.name ++ "_" ++ between ∧
    ∃ stem ∈ u.body.stems, between ++ "_" ++ stem ∈ t.body.stems

variable {t u : TypeDef}

/-- Enumerations of one text in front of their values have names of one snake form. -/
theorem overlaps_of_common {name : String} (hforms : snakeCase t.name ≠ snakeCase u.name)
    (ht : name ∈ (Declaration.ofType t).valueNames) (hu : name ∈ (Declaration.ofType u).valueNames) :
    t.Overlaps u ∨ u.Overlaps t := by
  rw [valueNames_ofType] at ht hu
  obtain ⟨v, hv, rfl⟩ := List.mem_map.1 ht
  obtain ⟨w, hw, heq⟩ := List.mem_map.1 hu
  rcases append_underscore_inj heq.symm with hsame | ⟨x, hname, rfl⟩ | ⟨x, hname, rfl⟩
  · exact absurd (snakeCase_eq_of_screamingSnakeCase_eq hsame) hforms
  · exact .inl ⟨x, hname, w, hw, hv⟩
  · exact .inr ⟨x, hname, v, hv, hw⟩

/-- Enumerations that overlap have a common value. -/
theorem TypeDef.Overlaps.common (h : t.Overlaps u) :
    ∃ name ∈ (Declaration.ofType t).valueNames, name ∈ (Declaration.ofType u).valueNames := by
  obtain ⟨between, hname, stem, hstem, hlong⟩ := h
  rw [valueNames_ofType, valueNames_ofType]
  refine ⟨_, List.mem_map_of_mem hlong, ?_⟩
  rw [← String.append_assoc, ← String.append_assoc, ← hname]
  exact List.mem_map_of_mem hstem

/-- An enumeration does not overlap with itself. -/
theorem TypeDef.not_overlaps_self (t : TypeDef) : ¬ t.Overlaps t := by
  rintro ⟨between, hname, -⟩
  have hlength := congrArg String.length hname
  rw [String.length_append, String.length_append, show "_".length = 1 by decide] at hlength
  omega

/-- The names of the values of one enumeration differ. -/
theorem valueNames_nodup {target : Target} (h : t.body.Claimed target) : (Declaration.ofType t).valueNames.Nodup := by
  rw [valueNames_ofType]
  exact (stems_nodup h).map (prepend_injective (screamingSnakeCase t.name ++ "_"))

/-- The names of all enumeration values of types differ exactly if no two of the types overlap. -/
theorem flatMap_valueNames_nodup_iff {types : List TypeDef} {target : Target} (hforms : (types.map fun t => snakeCase t.name).Nodup)
    (hclaimed : ∀ t ∈ types, t.body.Claimed target) :
    (types.flatMap fun t => (Declaration.ofType t).valueNames).Nodup ↔ ∀ t ∈ types, ∀ u ∈ types, ¬ t.Overlaps u := by
  rw [List.nodup_flatMap, and_iff_right fun t ht => valueNames_nodup (hclaimed t ht)]
  constructor
  · intro hpairs t ht u hu hoverlaps
    have hne : t ≠ u := by
      rintro rfl
      exact t.not_overlaps_self hoverlaps
    obtain ⟨name, hfirst, hsecond⟩ := hoverlaps.common
    have hsymm : Std.Symm fun t u : TypeDef =>
      List.Disjoint (Declaration.ofType t).valueNames (Declaration.ofType u).valueNames :=
        ⟨fun _ _ hdisjoint _ hfirst hsecond => hdisjoint hsecond hfirst⟩
    exact hpairs.forall ht hu hne hfirst hsecond
  · intro hno
    refine (List.pairwise_map.1 hforms).imp_of_mem fun ht hu hne name hfirst hsecond => ?_
    rcases overlaps_of_common hne hfirst hsecond with hoverlaps | hoverlaps
    · exact hno _ ht _ hu hoverlaps
    · exact hno _ hu _ ht hoverlaps

end ContractBindings
