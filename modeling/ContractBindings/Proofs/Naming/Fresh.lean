import Mathlib.Data.List.Nodup
import Mathlib.Data.List.Perm.Subperm
import ContractBindings.Naming.Registry

/-!
# Fresh names

A claim is never given a name whose snake form is taken (`claim_fresh`). Where the base is taken, numbers are tried in
order: a number adds a word of its own (`words_append_underscore`), so the forms of numbered names differ
(`snakeCase_numbered_injective`), and among one more of them than there are taken forms one is free
(`exists_free_number`), and the least is given (`freeNumber_least`). Registries only grow (`Registry.le_claim`); the names
claimed on the way from one registry to another are new in the first and taken in the second (`Registry.Between`). With
more names taken a claim is given the same name, unless that is one of them (`Registry.Exceeds`).
-/

namespace ContractBindings.Naming

/-! ## Words of a numbered name -/

theorem consWord_ne_nil (c : Char) (ws : List (List Char)) : consWord c ws ≠ [] := by
  cases ws <;> simp [consWord]

theorem consWord_append (c : Char) {ws vs : List (List Char)} (h : ws ≠ []) :
    consWord c (ws ++ vs) = consWord c ws ++ vs := by
  cases ws with
  | nil => exact absurd rfl h
  | cons w ws => rfl

/-- A letter or digit starts a word. -/
theorem words_ne_nil {c : Char} {cs : List Char} (h : c.isAlphanum = true) : words (c :: cs) ≠ [] := by
  rw [words.eq_def]
  simp only [h, ↓reduceIte]
  split
  · split
    · exact consWord_ne_nil _ _
    · simp
  · simp

/-- An underscore separates words. -/
theorem words_append_underscore (ds : List Char) : ∀ cs : List Char, words (cs ++ '_' :: ds) = words cs ++ words ds
  | [] => by
    rw [List.nil_append, words.eq_def]
    rfl
  | [c] => by
    have hd : ('_').isAlphanum = false := rfl
    by_cases hc : c.isAlphanum <;> simp [words, hc, hd]
  | c :: d :: cs => by
    have ih := words_append_underscore ds (d :: cs)
    simp only [List.cons_append] at ih ⊢
    rw [words.eq_def (c :: d :: (cs ++ _)), words.eq_def (c :: d :: cs)]
    simp only [ih]
    by_cases hc : c.isAlphanum
    · simp only [hc, ↓reduceIte]
      split
      · next hd =>
        have hd' : d.isAlphanum = true := (Bool.and_eq_true _ _ ▸ hd).1
        rw [consWord_append _ (words_ne_nil hd')]
      · rfl
    · simp [hc]

theorem not_isUpper_of_isDigit {d : Char} (h : d.isDigit = true) : d.isUpper = false := by
  simp only [Char.isDigit, Bool.and_eq_true, decide_eq_true_eq, ge_iff_le, UInt32.le_iff_toNat_le] at h
  delta Char.isUpper
  simp only [decide_eq_false_iff_not, ge_iff_le, UInt32.le_iff_toNat_le]
  have h9 : '9'.val.toNat = 57 := rfl
  have hA : 'A'.val.toNat = 65 := rfl
  omega

theorem toLower_of_isDigit {d : Char} (h : d.isDigit = true) : d.toLower = d := by
  have hu : ¬ (d.val ≥ 'A'.val ∧ d.val ≤ 'Z'.val) := of_decide_eq_false (not_isUpper_of_isDigit h)
  exact dif_neg hu

/-- A run of digits is one word. -/
theorem words_digits : ∀ {ds : List Char}, ds ≠ [] → (∀ d ∈ ds, d.isDigit = true) → words ds = [ds]
  | [], h, _ => absurd rfl h
  | [d], _, hd => by
    have h := hd d List.mem_cons_self
    have hl : d.toLower = d := toLower_of_isDigit h
    simp [words, Char.isAlphanum, h, hl]
  | d :: e :: ds, _, hd => by
    have h := hd d List.mem_cons_self
    have he := hd e (by simp)
    have hl : d.toLower = d := toLower_of_isDigit h
    have ih : words (e :: ds) = [e :: ds] := words_digits (by simp) fun x hx => hd x (List.mem_cons_of_mem _ hx)
    rw [words, ih]
    simp [Char.isAlphanum, h, he, hl, not_isUpper_of_isDigit he, startsWord, consWord]

/-- A number is a word of its own at the end of a name. -/
theorem words_numbered (base : String) (k : Nat) :
    words (Registry.numbered base k).toList = words base.toList ++ [Nat.toDigits 10 k] := by
  have hd : words (Nat.toDigits 10 k) = [Nat.toDigits 10 k] :=
    words_digits Nat.toDigits_ne_nil fun d hd => Nat.isDigit_of_mem_toDigits (by decide) (by decide) hd
  have hl : (Registry.numbered base k).toList = base.toList ++ '_' :: Nat.toDigits 10 k := by
    simp [Registry.numbered, String.toList_append]
  rw [hl, words_append_underscore, hd]

/-- What follows the same words is told by the joined text. -/
theorem joinWords_append_inj {v w : List Char} :
    ∀ {ws : List (List Char)}, joinWords (ws ++ [v]) = joinWords (ws ++ [w]) → v = w
  | [], h => h
  | [u], h => by simpa [joinWords] using h
  | u :: u' :: us, h => by
    have htail : joinWords (u' :: us ++ [v]) = joinWords (u' :: us ++ [w]) := by simpa [joinWords] using h
    exact joinWords_append_inj htail

/-- The snake forms of numbered names differ. -/
theorem snakeCase_numbered_injective (base : String) :
    Function.Injective fun k => snakeCase (Registry.numbered base k) := by
  intro j k h
  simp only [snakeCase, words_numbered, String.ofList_inj] at h
  have hd := congrArg (fun ds => Nat.ofDigitChars 10 ds 0) (joinWords_append_inj h)
  simpa using hd

/-! ## Claims -/

namespace Registry

variable {r r' r'' : Registry}

/-- Of one more numbered names than there are taken forms, one is free. -/
theorem exists_free_number (r : Registry) (base : String) :
    ∃ k ∈ List.range' 2 (r.taken.length + 1), r.isFree (numbered base k) = true := by
  by_contra hno
  have hall : ∀ k ∈ List.range' 2 (r.taken.length + 1), snakeCase (numbered base k) ∈ r.taken := by
    intro k hk
    by_contra hfree
    exact hno ⟨k, hk, by simp [isFree, hfree]⟩
  have hnd : ((List.range' 2 (r.taken.length + 1)).map fun k => snakeCase (numbered base k)).Nodup :=
    List.Nodup.map (snakeCase_numbered_injective base) List.nodup_range'
  have hsub : (List.range' 2 (r.taken.length + 1)).map (fun k => snakeCase (numbered base k)) ⊆ r.taken := by
    intro form hform
    obtain ⟨k, hk, rfl⟩ := List.mem_map.mp hform
    exact hall k hk
  have hlen := (List.subperm_of_subset hnd hsub).length_le
  rw [List.length_map, List.length_range'] at hlen
  omega

theorem isFree_iff {name : String} : r.isFree name = true ↔ snakeCase name ∉ r.taken := by simp [isFree]

/-- The number of a name is the least from two on that makes it free. -/
theorem freeNumber_least (r : Registry) (base : String) : 2 ≤ r.freeNumber base ∧
    r.isFree (numbered base (r.freeNumber base)) = true ∧
      ∀ j, 2 ≤ j → j < r.freeNumber base → r.isFree (numbered base j) = false := by
  obtain ⟨k, hk, hf⟩ := r.exists_free_number base
  have hsome : ((List.range' 2 (r.taken.length + 1)).find? fun k => r.isFree (numbered base k)).isSome :=
    List.find?_isSome.2 ⟨k, hk, hf⟩
  obtain ⟨j, hj⟩ := Option.isSome_iff_exists.mp hsome
  obtain ⟨hfree, hmem, hleast⟩ := List.find?_range'_eq_some.1 hj
  rw [freeNumber, hj, Option.getD_some]
  exact ⟨(List.mem_range'_1.1 hmem).1, hfree, fun i hi hlt => by simpa using hleast i hi hlt⟩

/-- A claim is given a name whose snake form was not taken. -/
theorem claim_fresh (r : Registry) (base : String) : snakeCase (r.claim base).1 ∉ r.taken := by
  rw [← isFree_iff, claim, nameFor]
  split
  · next h => exact h
  · exact (r.freeNumber_least base).2.1

/-! ## Growth of a registry -/

/-- Every form taken in the first registry is taken in the second. -/
def Le (r r' : Registry) : Prop := r.taken ⊆ r'.taken

theorem Le.refl (r : Registry) : Le r r := fun _ h => h

theorem Le.trans (h : Le r r') (h' : Le r' r'') : Le r r'' := fun _ hx => h' (h hx)

theorem le_claim (r : Registry) (base : String) : Le r (r.claim base).2 := fun _ hx => List.mem_cons_of_mem _ hx

/-- A name that was claimed on the way from the first registry to the second. -/
def Between (r r' : Registry) (name : String) : Prop := snakeCase name ∉ r.taken ∧ snakeCase name ∈ r'.taken

theorem between_claim (r : Registry) (base : String) : Between r (r.claim base).2 (r.claim base).1 :=
  ⟨r.claim_fresh base, List.mem_cons_self⟩

theorem Between.mono {r₀ r₁ : Registry} {name : String} (h : Between r r' name) (h₀ : Le r₀ r) (h₁ : Le r' r₁) :
    Between r₀ r₁ name := ⟨fun hx => h.1 (h₀ hx), h₁ h.2⟩

/-! ## More names taken -/

/-- The first registry has the names of the second and extra ones. -/
def Exceeds (extra : String → Prop) (r r' : Registry) : Prop := ∀ form, form ∈ r.taken ↔ form ∈ r'.taken ∨ extra form

namespace Exceeds

variable {extra : String → Prop}

/-- With extra names taken a claim is given the same name, unless that is one of them. -/
theorem nameFor_eq (h : Exceeds extra r r') {base : String} (hname : ¬ extra (snakeCase (r'.nameFor base))) :
    r.nameFor base = r'.nameFor base := by
  have htaken {name : String} (hfree : r'.isFree name = false) : r.isFree name = false := by
    rw [← Bool.not_eq_true, isFree_iff, not_not] at hfree ⊢
    exact (h _).2 (.inl hfree)
  have hfree {name : String} (hfree : r'.isFree name = true) (hextra : ¬ extra (snakeCase name)) :
      r.isFree name = true := by
    rw [isFree_iff] at hfree ⊢
    exact fun hmem => ((h _).1 hmem).elim hfree hextra
  unfold nameFor at hname ⊢
  cases hbase : r'.isFree base with
  | true =>
    rw [hbase, if_pos rfl] at hname
    rw [if_pos (hfree hbase hname), if_pos rfl]
  | false =>
    rw [hbase, if_neg Bool.false_ne_true] at hname
    rw [htaken hbase, if_neg Bool.false_ne_true, if_neg Bool.false_ne_true]
    obtain ⟨htwo, hk, hleast⟩ := r'.freeNumber_least base
    obtain ⟨htwo', hk', hleast'⟩ := r.freeNumber_least base
    -- each of the two numbers is free for both registries, so neither is less than the other
    rcases Nat.lt_trichotomy (r.freeNumber base) (r'.freeNumber base) with hlt | heq | hlt
    · exact absurd hk' (by simp [htaken (hleast _ htwo' hlt)])
    · rw [heq]
    · exact absurd (hfree hk hname) (by simp [hleast' _ htwo hlt])

theorem claim (h : Exceeds extra r r') {base : String} (hname : ¬ extra (snakeCase (r'.claim base).1)) :
    (r.claim base).1 = (r'.claim base).1 ∧ Exceeds extra (r.claim base).2 (r'.claim base).2 := by
  have heq := h.nameFor_eq hname
  refine ⟨heq, fun form => ?_⟩
  simp only [Registry.claim, heq, List.mem_cons, h form, or_assoc]

end Exceeds

end Registry

end ContractBindings.Naming
