import ContractBindings.Naming.Identifier
import ContractBindings.Proofs.Naming.Claims
import ContractBindings.Proofs.Naming.SnakeForm
import ContractBindings.Text.Blank

/-!
# Names of letters, digits and underscores

Whatever a name is asked for, the names that are made of it are words: they are not empty and have ASCII letters, digits and
underscores only (`word_pascalCaseOr`, `word_protobufIdent`). What is put behind a word to tell it from others leaves it
one (`Registry.Given.word`).

A Pascal form begins with a letter or digit of the text, so where the text has no letter, what must begin with one begins
as the lead in front of it (`pascalCaseOr_of_no_letter`). A number that is put behind a name leaves the beginning as it
was, and so does the form in capitals of a capitalized name (`Registry.Given.screamingSnakeCase_ne`).
-/

namespace ContractBindings.Naming

/-- An ASCII letter, a digit or an underscore. -/
def WordChar (c : Char) : Prop := c.isAlphanum = true ∨ c = '_'

/-- A text of letters, digits and underscores. -/
def Lettered (s : String) : Prop := ∀ c ∈ s.toList, WordChar c

/-- A text of letters, digits and underscores that is not empty. -/
structure Word (s : String) : Prop where
  ne_empty : s ≠ ""
  lettered : Lettered s

instance (c : Char) : Decidable (WordChar c) := inferInstanceAs (Decidable (_ ∨ _))

instance (s : String) : Decidable (Lettered s) := List.decidableBAll WordChar s.toList

instance (s : String) : Decidable (Word s) :=
  decidable_of_iff (s ≠ "" ∧ Lettered s) ⟨fun h => ⟨h.1, h.2⟩, fun h => ⟨h.ne_empty, h.lettered⟩⟩

variable {s t : String}

theorem Lettered.append (hs : Lettered s) (ht : Lettered t) : Lettered (s ++ t) := by
  intro c hc
  rw [String.toList_append, List.mem_append] at hc
  exact hc.elim (hs c) (ht c)

theorem Word.append (hs : Word s) (ht : Lettered t) : Word (s ++ t) :=
  ⟨fun h => hs.ne_empty (String.append_eq_empty_iff.1 h).1, hs.lettered.append ht⟩

theorem Capitalized.word (h : Capitalized s) (hs : Lettered s) : Word s := by
  refine ⟨?_, hs⟩
  rintro rfl
  obtain ⟨c, cs, hnil, -⟩ := h
  cases hnil

/-- A character that stands in no word. -/
theorem Lettered.not_mem (h : Lettered s) {c : Char} (hc : ¬ WordChar c) : c ∉ s.toList := fun hmem => hc (h c hmem)

theorem WordChar.not_isBlank {c : Char} (h : WordChar c) : Text.isBlank c = false := by
  have hnumber : 48 ≤ c.toNat ∧ c.toNat ≤ 122 := by
    rcases h with h | rfl
    · delta Char.isAlphanum Char.isAlpha at h
      simp only [Bool.or_eq_true, isUpper_iff, isLower_iff, isDigit_iff] at h
      omega
    · decide
  rw [Text.isBlank]
  simp
  omega

theorem lettered_toString_nat (n : Nat) : Lettered (toString n) := by
  intro c hc
  rw [Nat.toString_eq_repr, Nat.toList_repr] at hc
  left
  delta Char.isAlphanum
  rw [Nat.isDigit_of_mem_toDigits (by decide) (by decide) hc, Bool.or_true]

/-! ## Forms of names -/

theorem SmallLettered.lettered (h : SmallLettered s) : Lettered s := fun c hc => (h c hc).2

theorem isAlpha_of_isUpper {c : Char} (h : c.isUpper = true) : c.isAlpha = true := by
  delta Char.isAlpha
  rw [h, Bool.true_or]

theorem isAlphanum_of_isUpper {c : Char} (h : c.isUpper = true) : c.isAlphanum = true := by
  delta Char.isAlphanum
  rw [isAlpha_of_isUpper h, Bool.true_or]

theorem isAlphanum_toUpper {c : Char} (h : c.isAlphanum = true) : c.toUpper.isAlphanum = true := by
  cases hlower : c.isLower with
  | false => rw [toUpper_of_not_isLower hlower, h]
  | true =>
    have hc := isLower_iff.1 hlower
    exact isAlphanum_of_isUpper (isUpper_iff.2 (by have := toNat_toUpper hlower; omega))

theorem WordChar.toUpper {c : Char} (h : WordChar c) : WordChar c.toUpper := by
  rcases h with h | rfl
  · exact .inl (isAlphanum_toUpper h)
  · exact .inr rfl

theorem lettered_screamingSnakeCase (s : String) : Lettered (screamingSnakeCase s) := by
  intro c hc
  rw [screamingSnakeCase, String.toList_ofList] at hc
  obtain ⟨d, hd, rfl⟩ := List.mem_map.1 hc
  exact ((smallLettered_snakeCase s).lettered d hd).toUpper

theorem isAlphanum_of_mem_pascalChars {c : Char} : ∀ {cs : List Char} {atStart : Bool},
    c ∈ pascalChars atStart cs → c.isAlphanum = true
  | [], _, h => by cases h
  | d :: cs, atStart, h => by
    rw [pascalChars] at h
    split at h
    · next hd =>
      rcases List.mem_cons.1 h with rfl | h
      · cases atStart with
        | true => exact isAlphanum_toUpper hd
        | false => exact hd
      · exact isAlphanum_of_mem_pascalChars h
    · exact isAlphanum_of_mem_pascalChars h

theorem lettered_pascalCase (s : String) : Lettered (pascalCase s) := by
  intro c hc
  rw [pascalCase, String.toList_ofList] at hc
  exact .inl (isAlphanum_of_mem_pascalChars hc)

theorem word_pascalCaseOr (s : String) {lead : String} (h : Word lead) : Word (pascalCaseOr s lead) := by
  unfold pascalCaseOr
  split
  · next c cs hcs =>
    split
    · refine ⟨fun he => ?_, lettered_pascalCase s⟩
      rw [he] at hcs
      cases hcs
    · exact h.append (lettered_pascalCase s)
  · exact h

theorem word_fieldStem (name : String) : Word (fieldStem name) := by
  unfold fieldStem
  split
  · decide
  · next h => exact ⟨by simpa using h, (smallLettered_snakeCase name).lettered⟩

theorem word_protobufIdent (name : String) : Word (protobufIdent name) := by
  unfold protobufIdent
  split
  · exact Word.append (by decide) (word_fieldStem name).lettered
  · exact word_fieldStem name

/-! ## Names that are given -/

namespace Registry

theorem Given.word {base name : String} (h : Given base name) (hbase : Word base) : Word name := by
  rcases h with rfl | ⟨k, -, rfl⟩
  · exact hbase
  · exact (hbase.append (by decide)).append (lettered_toString_nat k)

theorem word_claim (r : Registry) {base : String} (h : Word base) : Word (r.claim base).1 := (r.given_claim base).word h

/-- Names that are given for words are words. -/
theorem word_claimAll {r : Registry} {bases : List String} (h : ∀ base ∈ bases, Word base) :
    ∀ name ∈ (r.claimAll bases).1, Word name := by
  intro name hname
  obtain ⟨base, hbase, hgiven⟩ := exists_asked hname
  exact hgiven.word (h base hbase)

end Registry

/-! ## What names begin with -/

/-- A Pascal form begins with a letter or digit of the text, as a capital. -/
theorem exists_of_pascalChars {c : Char} {rest : List Char} :
    ∀ {cs : List Char}, pascalChars true cs = c :: rest → ∃ d ∈ cs, c = d.toUpper
  | [], h => by cases h
  | d :: ds, h => by
    rw [pascalChars] at h
    split at h
    · obtain ⟨rfl, -⟩ := List.cons.inj h
      exact ⟨d, List.mem_cons_self, rfl⟩
    · obtain ⟨d', hd', hc⟩ := exists_of_pascalChars h
      exact ⟨d', List.mem_cons_of_mem d hd', hc⟩

/-- A text without letters gets the lead in front. -/
theorem pascalCaseOr_of_no_letter {s : String} (h : ∀ c ∈ s.toList, c.isAlpha = false) (lead : String) :
    pascalCaseOr s lead = lead ++ pascalCase s := by
  unfold pascalCaseOr
  split
  · next c cs hcs =>
    rw [pascalCase, String.toList_ofList] at hcs
    obtain ⟨d, hd, rfl⟩ := exists_of_pascalChars hcs
    have hd : d.isAlpha = false := h d hd
    have hlower : d.isLower = false := (Bool.or_eq_false_iff.1 hd).2
    simp [toUpper_of_not_isLower hlower, hd]
  · next hnil => rw [String.toList_eq_nil_iff.1 hnil, String.append_empty]

theorem Capitalized.head?_append {s : String} (h : Capitalized s) (t : String) :
    (s ++ t).toList.head? = s.toList.head? := by
  obtain ⟨c, cs, hs, -⟩ := h
  simp [hs]

theorem Registry.Given.head? {base name : String} (h : Given base name) (hbase : Capitalized base) :
    name.toList.head? = base.toList.head? := by
  rcases h with rfl | ⟨k, -, rfl⟩
  · rfl
  · rw [numbered, (hbase.append "_").head?_append, hbase.head?_append]

/-- The form in capitals of a capitalized name begins as the name does. -/
theorem Capitalized.head?_screamingSnakeCase {s : String} (h : Capitalized s) :
    (screamingSnakeCase s).toList.head? = s.toList.head? := by
  obtain ⟨c, cs, hs, hc⟩ := h
  have hlower : c.isLower = false := by
    have hrange := isUpper_iff.1 hc
    rw [← Bool.not_eq_true, isLower_iff]
    omega
  obtain ⟨word, ws, hwords⟩ := exists_words_cons (isAlphanum_of_isUpper hc) cs
  have hhead : (joinWords (Naming.words (c :: cs))).head? = some c.toLower := by
    rw [hwords]
    cases ws <;> rfl
  simp [screamingSnakeCase, Naming.snakeCase, hs, hhead, toUpper_toLower hlower]

/-- A name in capitals is none that begins unlike the base. -/
theorem Registry.Given.screamingSnakeCase_ne {base name other : String} (h : Given base name) (hbase : Capitalized base)
    (hother : base.toList.head? ≠ other.toList.head?) : screamingSnakeCase name ≠ other := by
  rintro rfl
  rw [(h.capitalized hbase).head?_screamingSnakeCase, h.head? hbase] at hother
  exact hother rfl

end ContractBindings.Naming
