import ContractBindings.Naming.Registry

/-!
# Capitalized and small names

Names of types begin with a capital letter: the Pascal form does, or has something in front that does, and what is put
at the end of a name or claimed for it begins as the name does. Snake forms are made of small letters, digits and
underscores. So no type is named like a pointer or like an identifier in small letters.
-/

namespace ContractBindings.Naming

/-! ## Capital and small letters -/

theorem not_isUpper_toLower (c : Char) : c.toLower.isUpper = false := by
  delta Char.isUpper Char.toLower
  split <;> grind [UInt32.toNat_add, Char.toNat_val]

theorem not_isLower_toUpper (c : Char) : c.toUpper.isLower = false := by
  delta Char.isLower Char.toUpper
  split <;> grind [UInt32.toNat_add, Char.toNat_val]

theorem isUpper_iff {c : Char} : c.isUpper = true ↔ 65 ≤ c.toNat ∧ c.toNat ≤ 90 := by
  delta Char.isUpper
  rw [decide_eq_true_iff]
  simp only [ge_iff_le, UInt32.le_iff_toNat_le]
  rfl

theorem isLower_iff {c : Char} : c.isLower = true ↔ 97 ≤ c.toNat ∧ c.toNat ≤ 122 := by
  delta Char.isLower
  rw [Bool.and_eq_true, decide_eq_true_iff, decide_eq_true_iff]
  simp only [ge_iff_le, UInt32.le_iff_toNat_le]
  rfl

theorem isDigit_iff {c : Char} : c.isDigit = true ↔ 48 ≤ c.toNat ∧ c.toNat ≤ 57 := by
  delta Char.isDigit
  rw [Bool.and_eq_true, decide_eq_true_iff, decide_eq_true_iff]
  simp only [ge_iff_le, UInt32.le_iff_toNat_le]
  rfl

theorem not_isDigit_of_isLower {c : Char} (h : c.isLower = true) : c.isDigit = false := by
  have hrange := isLower_iff.1 h
  refine Bool.eq_false_iff.2 fun hdigit => ?_
  have hnine : c.val ≤ '9'.val := of_decide_eq_true (Bool.and_eq_true_iff.1 hdigit).2
  have hlast : c.toNat ≤ 57 := UInt32.le_iff_toNat_le.1 hnine
  omega

theorem toNat_toLower {c : Char} (h : c.isUpper = true) : c.toLower.toNat = c.toNat + 32 := by
  have hc := isUpper_iff.1 h
  have hval : c.toLower.val = c.val + 32 := congrArg Char.val (dif_pos (of_decide_eq_true h))
  rw [← Char.toNat_val, hval, UInt32.toNat_add, Char.toNat_val]
  exact Nat.mod_eq_of_lt (by simp; omega)

theorem toNat_toUpper {c : Char} (h : c.isLower = true) : c.toUpper.toNat + 32 = c.toNat := by
  have hc := isLower_iff.1 h
  have hboth := Bool.and_eq_true_iff.1 h
  have hlow : 'a'.val ≤ c.val ∧ c.val ≤ 'z'.val := ⟨of_decide_eq_true hboth.1, of_decide_eq_true hboth.2⟩
  have hval : c.toUpper.val = c.val + ('A'.val - 'a'.val) := by
    delta Char.toUpper
    rw [dif_pos hlow]
  have hdiff : ('A'.val - 'a'.val).toNat = 4294967264 := rfl
  rw [← Char.toNat_val, hval, UInt32.toNat_add, Char.toNat_val, hdiff]
  omega

theorem toLower_of_not_isUpper {c : Char} (h : c.isUpper = false) : c.toLower = c := by
  have hu : ¬ (c.val ≥ 'A'.val ∧ c.val ≤ 'Z'.val) := of_decide_eq_false h
  exact dif_neg hu

theorem toUpper_of_not_isLower {c : Char} (h : c.isLower = false) : c.toUpper = c := by
  refine dif_neg fun hlow => Bool.eq_false_iff.1 h ?_
  exact Bool.and_eq_true_iff.2 ⟨decide_eq_true hlow.1, decide_eq_true hlow.2⟩

/-- A letter that is not small is the capital of its small letter. -/
theorem toUpper_toLower {c : Char} (h : c.isLower = false) : c.toLower.toUpper = c := by
  cases hupper : c.isUpper with
  | true =>
    have hlower := toNat_toLower hupper
    have hrange := isUpper_iff.1 hupper
    have hback := toNat_toUpper (isLower_iff.2 ⟨by omega, by omega⟩ : c.toLower.isLower = true)
    exact Char.toNat_inj.1 (by omega)
  | false => rw [toLower_of_not_isUpper hupper, toUpper_of_not_isLower h]

/-- A letter that is no capital is the small letter of its capital. -/
theorem toLower_toUpper {c : Char} (h : c.isUpper = false) : c.toUpper.toLower = c := by
  cases hlower : c.isLower with
  | true =>
    have hupper := toNat_toUpper hlower
    have hrange := isLower_iff.1 hlower
    have hback := toNat_toLower (isUpper_iff.2 ⟨by omega, by omega⟩ : c.toUpper.isUpper = true)
    exact Char.toNat_inj.1 (by omega)
  | false => rw [toUpper_of_not_isLower hlower, toLower_of_not_isUpper h]

/-! ## Names of types -/

/-- A text that begins with a capital letter. -/
def Capitalized (s : String) : Prop := ∃ c cs, s.toList = c :: cs ∧ c.isUpper = true

/-- That a text begins with a capital letter can be tested. -/
theorem capitalized_of_head {s : String} (h : s.toList.head?.any Char.isUpper = true) : Capitalized s := by
  cases hs : s.toList with
  | nil =>
    rw [hs] at h
    cases h
  | cons c cs =>
    rw [hs] at h
    exact ⟨c, cs, hs, h⟩

theorem Capitalized.append {s : String} (h : Capitalized s) (t : String) : Capitalized (s ++ t) := by
  obtain ⟨c, cs, hs, hc⟩ := h
  exact ⟨c, cs ++ t.toList, by rw [String.toList_append, hs, List.cons_append], hc⟩

/-- Pascal forms begin with no small letter. -/
theorem head_pascalChars {c : Char} {rest : List Char} :
    ∀ {cs : List Char}, pascalChars true cs = c :: rest → c.isLower = false
  | [], h => by cases h
  | d :: ds, h => by
    rw [pascalChars] at h
    split at h
    · obtain ⟨rfl, -⟩ := List.cons.inj h
      exact not_isLower_toUpper d
    · exact head_pascalChars h

theorem capitalized_pascalCaseOr (s : String) {lead : String} (h : Capitalized lead) :
    Capitalized (pascalCaseOr s lead) := by
  unfold pascalCaseOr
  split
  · next c cs hcs =>
    split
    · next hc =>
      have hlow : c.isLower = false := head_pascalChars (by simpa [pascalCase] using hcs)
      have halpha : (c.isUpper || c.isLower) = true := hc
      exact ⟨c, cs, hcs, by simpa [hlow] using halpha⟩
    · exact h.append _
  · exact h

theorem Registry.capitalized_claim (r : Registry) {base : String} (h : Capitalized base) :
    Capitalized (r.claim base).1 := by
  rw [claim]
  unfold nameFor
  split
  · exact h
  · exact (h.append _).append _

/-! ## Names in small letters -/

/-- A small letter, a digit or an underscore. -/
def SmallChar (c : Char) : Prop := c.isUpper = false ∧ (c.isAlphanum = true ∨ c = '_')

/-- A text of small letters, digits and underscores. -/
def SmallLettered (s : String) : Prop := ∀ c ∈ s.toList, SmallChar c

theorem smallChar_toLower {c : Char} (h : c.isAlphanum = true) : SmallChar c.toLower := by
  refine ⟨not_isUpper_toLower c, .inl ?_⟩
  delta Char.toLower
  split
  · next hc =>
    have hlow : (97 : UInt32) ≤ c.val + 32 ∧ c.val + 32 ≤ 122 := by
      simp only [UInt32.le_iff_toNat_le, UInt32.toNat_add] at hc ⊢
      simp at hc ⊢
      omega
    delta Char.isAlphanum Char.isAlpha Char.isLower
    simp [hlow]
  · exact h

theorem smallChar_of_mem_words {word : List Char} :
    ∀ {cs : List Char}, word ∈ words cs → ∀ c ∈ word, SmallChar c
  | [], h => by cases h
  | [d], h => by
    intro c hc
    rw [words] at h
    split at h
    · next hd =>
      rw [List.mem_singleton.1 h, List.mem_singleton] at hc
      exact hc ▸ smallChar_toLower hd
    · cases h
  | d :: e :: cs, h => by
    have ih : ∀ word ∈ words (e :: cs), ∀ c ∈ word, SmallChar c := fun _ => smallChar_of_mem_words
    intro c hc
    rw [words] at h
    split at h
    · next hd =>
      split at h
      · cases hwords : words (e :: cs) with
        | nil =>
          rw [hwords, consWord, List.mem_singleton] at h
          rw [h, List.mem_singleton] at hc
          exact hc ▸ smallChar_toLower hd
        | cons first rest =>
          rw [hwords] at h ih
          rcases List.mem_cons.1 h with rfl | h
          · rcases List.mem_cons.1 hc with rfl | hc
            · exact smallChar_toLower hd
            · exact ih first List.mem_cons_self c hc
          · exact ih word (List.mem_cons_of_mem _ h) c hc
      · rcases List.mem_cons.1 h with rfl | h
        · exact List.mem_singleton.1 hc ▸ smallChar_toLower hd
        · exact ih word h c hc
    · exact ih word h c hc

theorem smallChar_of_mem_joinWords : ∀ {ws : List (List Char)}, (∀ word ∈ ws, ∀ c ∈ word, SmallChar c) →
    ∀ c ∈ joinWords ws, SmallChar c
  | [], _, c, hc => by cases hc
  | [word], h, c, hc => h word List.mem_cons_self c hc
  | word :: next :: rest, h, c, hc => by
    rw [joinWords.eq_def] at hc
    rcases List.mem_append.1 hc with hc | hc
    · exact h word List.mem_cons_self c hc
    · rcases List.mem_cons.1 hc with rfl | hc
      · exact ⟨rfl, .inr rfl⟩
      · exact smallChar_of_mem_joinWords (fun w hw => h w (List.mem_cons_of_mem _ hw)) c hc

theorem smallLettered_snakeCase (s : String) : SmallLettered (snakeCase s) := by
  intro c hc
  exact smallChar_of_mem_joinWords (fun _ => smallChar_of_mem_words) c (by simpa [snakeCase] using hc)

/-- A small name is no pointer. -/
theorem SmallLettered.ne_of_hash {s t : String} (h : SmallLettered s) (ht : t.toList.head? = some '#') : s ≠ t := by
  rintro rfl
  obtain ⟨-, hc | hc⟩ := h '#' (List.mem_of_head? ht)
  · revert hc
    decide
  · cases hc

/-- A small name is not capitalized. -/
theorem SmallLettered.ne_of_capitalized {s t : String} (h : SmallLettered s) (ht : Capitalized t) : s ≠ t := by
  rintro rfl
  obtain ⟨c, cs, hs, hc⟩ := ht
  rw [(h c (by simp [hs])).1] at hc
  cases hc

/-- A capitalized name is no pointer. -/
theorem Capitalized.ne_of_hash {s t : String} (h : Capitalized s) (ht : t.toList.head? = some '#') : s ≠ t := by
  rintro rfl
  obtain ⟨c, cs, hs, hc⟩ := h
  rw [hs] at ht
  cases ht
  revert hc
  decide

end ContractBindings.Naming
