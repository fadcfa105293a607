import ContractBindings.Naming.Identifier
import ContractBindings.Proofs.Naming.Capital
import ContractBindings.Proofs.Naming.Claims
import ContractBindings.Proofs.Naming.SnakeForm

/-!
# Identifiers that are the same word

A raw identifier is the same as the word behind `r#` (`rustWord`), while the registry compares snake forms, in which `r` is
a word of its own. So identifiers that claims are given may be the same word though their snake forms differ. What is asked
for is never a bare reserved word (`RustAsked`), so this is so in one case only: a number was put behind a raw identifier,
and the plain identifier with that number was asked for, too (`claimAll_rustWords_nodup_iff`).
-/

namespace ContractBindings.Naming

open Registry

/-- The word that an identifier is: of a raw one, what stands behind `r#`. -/
def rustWord (ident : String) : String :=
  match ident.toList with
  | 'r' :: '#' :: word => String.ofList word
  | _ => ident

/-- The reserved words that have a raw form. -/
def rawWords : List String := reservedWords.filter fun word => !pathWords.contains word

/-! ## Words of identifiers -/

theorem smallWord_rawWord {word : String} (h : word ∈ rawWords) :
    SmallWord word.toList ∧ startsWithDigit word = false := by
  have hall : ∀ word ∈ rawWords, word.toList ≠ [] ∧ (word.toList.all fun c => c.isAlphanum && !c.isUpper) = true ∧
      startsWithDigit word = false := by
    decide +kernel
  obtain ⟨hne, hsmall, hdigit⟩ := hall word h
  exact ⟨smallWord_of_all hne hsmall, hdigit⟩

theorem exists_head_rawWord {word : String} (h : word ∈ rawWords) :
    ∃ c cs, word.toList = c :: cs ∧ c.isDigit = false := by
  obtain ⟨⟨hne, -⟩, hdigit⟩ := smallWord_rawWord h
  obtain ⟨c, cs, htext⟩ := List.exists_cons_of_ne_nil hne
  rw [startsWithDigit, htext] at hdigit
  exact ⟨c, cs, htext, hdigit⟩

theorem underscore_not_mem {word : String} (h : word ∈ reservedWords ++ pathWords) : '_' ∉ word.toList := by
  have hall : ∀ word ∈ reservedWords ++ pathWords, '_' ∉ word.toList := by decide +kernel
  exact hall word h

theorem words_rawWord {word : String} (h : word ∈ rawWords) : words word.toList = [word.toList] :=
  words_smallWord (smallWord_rawWord h).1

theorem words_numbered_rawWord {word : String} (h : word ∈ rawWords) (k : Nat) :
    words (numbered word k).toList = [word.toList, Nat.toDigits 10 k] := by
  rw [words_numbered, words_rawWord h]
  rfl

/-- In a raw identifier `r` is a word of its own. -/
theorem words_raw {word : String} (h : word ∈ rawWords) : words ("r#" ++ word).toList = [['r'], word.toList] := by
  have htext : ("r#" ++ word).toList = 'r' :: '#' :: word.toList := by rw [String.toList_append]; rfl
  have hr : words ('r' :: '#' :: word.toList) = ['r'] :: words word.toList := rfl
  rw [htext, hr, words_rawWord h]

theorem snakeCase_eq_of_words {s t : String} (h : words s.toList = [t.toList]) : snakeCase s = t := by
  rw [snakeCase, h, joinWords, String.ofList_toList]

theorem snakeCase_numbered_rawWord {word : String} (h : word ∈ rawWords) (k : Nat) :
    snakeCase (numbered word k) = numbered word k := by
  rw [snakeCase, words_numbered_rawWord h, ← String.toList_inj, String.toList_ofList]
  simp [joinWords, numbered, String.toList_append]

theorem raw_numbered (word : String) (k : Nat) : numbered ("r#" ++ word) k = "r#" ++ numbered word k := by
  rw [numbered, numbered, String.append_assoc, String.append_assoc, String.append_assoc]

theorem SmallLettered.numbered {base : String} (h : SmallLettered base) (k : Nat) :
    SmallLettered (Registry.numbered base k) := by
  intro c hc
  have htext : (Registry.numbered base k).toList = base.toList ++ '_' :: Nat.toDigits 10 k := by
    simp [Registry.numbered, String.toList_append]
  rw [htext] at hc
  rcases List.mem_append.1 hc with hc | hc
  · exact h c hc
  · rcases List.mem_cons.1 hc with rfl | hc
    · exact ⟨rfl, .inr rfl⟩
    · have hdigit := Nat.isDigit_of_mem_toDigits (b := 10) (by decide) (by decide) hc
      exact ⟨not_isUpper_of_isDigit hdigit, .inl (by simp [Char.isAlphanum, hdigit])⟩

/-- An identifier without a hash is its own word. -/
theorem rustWord_of_smallLettered {ident : String} (h : SmallLettered ident) : rustWord ident = ident := by
  unfold rustWord
  split
  · next word htext =>
    obtain ⟨-, hhash | hhash⟩ := h '#' (by simp [htext])
    · exact absurd hhash (by decide)
    · cases hhash
  · rfl

theorem rustWord_raw (word : String) : rustWord ("r#" ++ word) = word := by
  have htext : ("r#" ++ word).toList = 'r' :: '#' :: word.toList := by rw [String.toList_append]; rfl
  rw [rustWord, htext]
  exact String.ofList_toList

/-! ## What is asked for -/

/-- An identifier that is asked for: a raw one, or a small one that is not, but for underscores, a reserved word, nor
such a word with a number unless it is just that. -/
inductive RustAsked (base : String) : Prop
  | raw {word : String} : word ∈ rawWords → base = "r#" ++ word → RustAsked base
  | plain : SmallLettered base → snakeCase base ∉ rawWords →
      (∀ word ∈ rawWords, ∀ k, snakeCase base = numbered word k → base = numbered word k) → RustAsked base

theorem RustAsked.of_form {base : String} (hform : snakeCase base = base) (hword : base ∉ rawWords) :
    RustAsked base := by
  refine .plain (hform ▸ smallLettered_snakeCase base) (hform.symm ▸ hword) fun word _ k hk => ?_
  rw [← hform, hk]

theorem snakeCase_fieldStem (name : String) : snakeCase (fieldStem name) = fieldStem name := by
  unfold fieldStem
  split
  · decide
  · exact snakeCase_snakeCase name

theorem startsWithDigit_numbered {word : String} (h : word ∈ rawWords) (k : Nat) :
    startsWithDigit (numbered word k) = false := by
  obtain ⟨c, cs, htext, hdigit⟩ := exists_head_rawWord h
  have hnumbered : (numbered word k).toList = c :: (cs ++ '_' :: Nat.toDigits 10 k) := by
    simp [numbered, String.toList_append, htext]
  rw [startsWithDigit, hnumbered]
  exact hdigit

theorem underscore_mem_numbered (base : String) (k : Nat) : '_' ∈ (numbered base k).toList := by
  simp [numbered, String.toList_append]

theorem smallLettered_append {s t : String} (hs : SmallLettered s) (ht : SmallLettered t) : SmallLettered (s ++ t) := by
  intro c hc
  rw [String.toList_append] at hc
  exact (List.mem_append.1 hc).elim (hs c) (ht c)

theorem smallLettered_underscore : SmallLettered "_" := by
  intro c hc
  rw [List.mem_singleton.1 hc]
  exact ⟨rfl, .inr rfl⟩

theorem snakeCase_underscore_append (s : String) : snakeCase ("_" ++ s) = snakeCase s := by
  have htext : ("_" ++ s).toList = '_' :: s.toList := by rw [String.toList_append]; rfl
  have hwords : words ('_' :: s.toList) = words s.toList := words_append_underscore s.toList []
  rw [snakeCase, htext, hwords, snakeCase]

theorem snakeCase_append_underscore (s : String) : snakeCase (s ++ "_") = snakeCase s := by
  have htext : (s ++ "_").toList = s.toList ++ '_' :: [] := by rw [String.toList_append]; rfl
  have hwords : words (s.toList ++ '_' :: []) = words s.toList := by
    rw [words_append_underscore, words, List.append_nil]
  rw [snakeCase, htext, hwords, snakeCase]

/-- A stem that begins with a digit, with an underscore in front. -/
theorem RustAsked.of_digit {stem : String} (hform : snakeCase stem = stem) (hdigit : startsWithDigit stem = true) :
    RustAsked ("_" ++ stem) := by
  have hsnake : snakeCase ("_" ++ stem) = stem := (snakeCase_underscore_append stem).trans hform
  refine .plain (smallLettered_append smallLettered_underscore (hform ▸ smallLettered_snakeCase stem)) ?_ ?_
  · rw [hsnake]
    intro hmem
    rw [(smallWord_rawWord hmem).2] at hdigit
    cases hdigit
  · rw [hsnake]
    rintro word hword k rfl
    rw [startsWithDigit_numbered hword] at hdigit
    cases hdigit

/-- A word that has no raw form, with an underscore behind. -/
theorem RustAsked.of_path {stem : String} (hform : snakeCase stem = stem) (hpath : stem ∈ pathWords) :
    RustAsked (stem ++ "_") := by
  have hsnake : snakeCase (stem ++ "_") = stem := (snakeCase_append_underscore stem).trans hform
  refine .plain (smallLettered_append (hform ▸ smallLettered_snakeCase stem) smallLettered_underscore) ?_ ?_
  · rw [hsnake]
    intro hmem
    have hnot := (List.mem_filter.1 hmem).2
    rw [List.contains_iff_mem.2 hpath] at hnot
    cases hnot
  · rw [hsnake]
    rintro word - k rfl
    exact absurd (underscore_mem_numbered word k) (underscore_not_mem (List.mem_append_right _ hpath))

theorem escapeReserved_of_digit (stem : String) : escapeReserved ("_" ++ stem) = "_" ++ stem := by
  have hplain : ∀ word ∈ reservedWords ++ pathWords, word.toList.head? ≠ some '_' := by decide +kernel
  have hhead : ("_" ++ stem).toList.head? = some '_' := by rw [String.toList_append]; rfl
  have hnot {words : List String} (hwords : words ⊆ reservedWords ++ pathWords) :
      ¬ words.contains ("_" ++ stem) = true :=
    fun hmem => hplain _ (hwords (List.contains_iff_mem.1 hmem)) hhead
  rw [escapeReserved, if_neg (hnot (List.subset_append_right _ _)), if_neg (hnot (List.subset_append_left _ _))]

theorem rustIdent_asked (name : String) : RustAsked (rustIdent name) := by
  have hform := snakeCase_fieldStem name
  unfold rustIdent
  generalize fieldStem name = stem at hform
  split
  · next hdigit =>
    rw [escapeReserved_of_digit]
    exact .of_digit hform hdigit
  · unfold escapeReserved
    split
    · next hpath => exact .of_path hform (List.contains_iff_mem.1 hpath)
    · next hpath =>
      split
      · next hreserved =>
        exact .raw (List.mem_filter.2 ⟨List.contains_iff_mem.1 hreserved, by simpa using hpath⟩) rfl
      · next hreserved =>
        exact .of_form hform fun hmem => hreserved (List.contains_iff_mem.2 (List.mem_filter.1 hmem).1)

/-- A reserved word with a number is asked for by the names of that snake form. -/
theorem rustIdent_eq_numbered_iff {name word : String} (hword : word ∈ rawWords) (k : Nat) :
    rustIdent name = numbered word k ↔ snakeCase name = numbered word k := by
  have hunder := underscore_mem_numbered word k
  have hvalue : "value" ≠ numbered word k := fun h => absurd (h ▸ hunder) (by decide)
  have hempty : numbered word k ≠ "" := fun h => by
    rw [h] at hunder
    cases hunder
  have hstem : fieldStem name = numbered word k ↔ snakeCase name = numbered word k := by
    unfold fieldStem
    split
    · next h => exact iff_of_false hvalue ((beq_iff_eq.1 h).symm ▸ hempty.symm)
    · exact Iff.rfl
  rw [← hstem]
  unfold rustIdent
  split
  · next hdigit =>
    refine iff_of_false (fun h => ?_) fun h => ?_
    · have hform := congrArg snakeCase h
      rw [escapeReserved_of_digit, snakeCase_underscore_append, snakeCase_fieldStem, snakeCase_numbered_rawWord hword]
        at hform
      rw [hform, startsWithDigit_numbered hword] at hdigit
      cases hdigit
    · rw [h, startsWithDigit_numbered hword] at hdigit
      cases hdigit
  · unfold escapeReserved
    split
    · next hpath =>
      have hmem := underscore_not_mem (List.mem_append_right _ (List.contains_iff_mem.1 hpath))
      refine iff_of_false (fun h => ?_) fun h => hmem (h ▸ hunder)
      have hform := congrArg snakeCase h
      rw [snakeCase_append_underscore, snakeCase_fieldStem, snakeCase_numbered_rawWord hword] at hform
      exact hmem (hform ▸ hunder)
    · split
      · next hreserved =>
        have hmem := underscore_not_mem (List.mem_append_left _ (List.contains_iff_mem.1 hreserved))
        refine iff_of_false (fun h => ?_) fun h => hmem (h ▸ hunder)
        have hhash : '#' ∈ (numbered word k).toList := by simp [← h, String.toList_append]
        have hsmall := (snakeCase_numbered_rawWord hword k) ▸ smallLettered_snakeCase (numbered word k)
        obtain ⟨-, hchar | hchar⟩ := hsmall '#' hhash
        · exact absurd hchar (by decide)
        · cases hchar
      · exact Iff.rfl

theorem words_part (n : Nat) : words (numbered "part" n).toList = ["part".toList, Nat.toDigits 10 n] := by
  rw [words_numbered, words_smallWord (smallWord_of_all (by decide) (by decide))]
  rfl

/-- The number of a part is no reserved word's. -/
theorem numbered_part_ne {word : String} (hword : word ∈ rawWords) (n k : Nat) :
    "part_" ++ toString n ≠ numbered word k := by
  have hpart : "part_" ++ toString n = numbered "part" n := rfl
  intro h
  have hsame := words_part n
  rw [← hpart, h, words_numbered_rawWord hword] at hsame
  have hne : "part" ∉ rawWords := by decide
  exact hne (String.toList_inj.1 (List.cons.inj hsame).1 ▸ hword)

theorem part_asked (n : Nat) : RustAsked ("part_" ++ toString n) := by
  have hpart : "part_" ++ toString n = numbered "part" n := rfl
  have hform : snakeCase ("part_" ++ toString n) = "part_" ++ toString n := by
    rw [snakeCase, hpart, words_part, ← String.toList_inj, String.toList_ofList]
    simp [joinWords, numbered, String.toList_append]
  refine .of_form hform fun hmem => ?_
  exact underscore_not_mem (List.mem_append_left _ (List.mem_filter.1 hmem).1) (underscore_mem_numbered "part" n)

/-! ## What is given -/

section Given

variable {bases : List String} (hbases : ∀ base ∈ bases, RustAsked base)

/-- No name that is asked for has a reserved word as its only word. -/
theorem RustAsked.words_ne {base word : String} (h : RustAsked base) (hword : word ∈ rawWords) :
    words base.toList ≠ [word.toList] := by
  intro hwords
  cases h with
  | @raw other hother heq =>
    rw [heq, words_raw hother] at hwords
    exact Nat.noConfusion (Nat.succ.inj (congrArg List.length hwords))
  | plain _ hno _ => exact hno ((snakeCase_eq_of_words hwords).symm ▸ hword)

/-- A name with a number has the word of its base in front of the number. -/
theorem RustAsked.numbered_words_ne {base word : String} (h : RustAsked base) (hword : word ∈ rawWords) (j k : Nat) :
    words (numbered base j).toList ≠ [word.toList, Nat.toDigits 10 k] := by
  intro hwords
  rw [words_numbered] at hwords
  exact h.words_ne hword (List.append_inj_left' (hwords.trans (List.singleton_append (l := [_])).symm) rfl)

include hbases

/-- A reserved word with a number is given if it is asked for. -/
theorem numbered_mem_iff {word : String} (hword : word ∈ rawWords) (k : Nat) :
    numbered word k ∈ (Registry.empty.claimAll bases).1 ↔ numbered word k ∈ bases := by
  have hwords := words_numbered_rawWord hword k
  constructor
  · intro hmem
    obtain ⟨base, hbase, rfl | ⟨j, -, hj⟩⟩ := exists_asked hmem
    · exact hbase
    · rw [hj] at hwords
      exact absurd hwords ((hbases base hbase).numbered_words_ne hword j k)
  · intro hmem
    rcases exists_form_of_asked (r := Registry.empty) hmem with htaken | ⟨name, hname, hform⟩
    · cases htaken
    · obtain ⟨base, hbase, rfl | ⟨j, -, rfl⟩⟩ := exists_asked hname
      · cases hbases name hbase with
        | @raw other hother heq =>
          -- the word of a raw identifier is no number
          rw [← words_eq_of_snakeCase_eq hform, heq, words_raw hother] at hwords
          obtain ⟨-, hdigits⟩ := List.cons.inj hwords
          obtain ⟨c, cs, htext, hdigit⟩ := exists_head_rawWord hother
          have hc : c ∈ Nat.toDigits 10 k := (List.cons.inj hdigits).1 ▸ htext ▸ List.mem_cons_self
          rw [Nat.isDigit_of_mem_toDigits (by decide) (by decide) hc] at hdigit
          cases hdigit
        | plain _ _ hnumber =>
          rw [snakeCase_numbered_rawWord hword] at hform
          exact hnumber word hword k hform ▸ hname
      · rw [← words_eq_of_snakeCase_eq hform] at hwords
        exact absurd hwords ((hbases base hbase).numbered_words_ne hword j k)

/-- A name that is given is its own word, or a raw identifier, perhaps with a number. -/
theorem rustWord_cases {name : String} (h : name ∈ (Registry.empty.claimAll bases).1) :
    (rustWord name = name ∧ name ∉ rawWords) ∨ ∃ word ∈ rawWords, name = "r#" ++ word ∨
      ∃ k, name = "r#" ++ numbered word k := by
  obtain ⟨base, hbase, hgiven⟩ := exists_asked h
  cases hbases base hbase with
  | @raw word hword heq =>
    subst heq
    rcases hgiven with rfl | ⟨k, -, rfl⟩
    · exact .inr ⟨word, hword, .inl rfl⟩
    · exact .inr ⟨word, hword, .inr ⟨k, raw_numbered word k⟩⟩
  | plain hsmall hno _ =>
    rcases hgiven with rfl | ⟨k, -, rfl⟩
    · refine .inl ⟨rustWord_of_smallLettered hsmall, fun hmem => hno ?_⟩
      rwa [snakeCase_eq_of_words (words_rawWord hmem)]
    · refine .inl ⟨rustWord_of_smallLettered (hsmall.numbered k), fun hmem => ?_⟩
      obtain ⟨⟨-, hchars⟩, -⟩ := smallWord_rawWord hmem
      exact absurd (hchars '_' (underscore_mem_numbered base k)).1 (by decide)

/-- The identifiers that are given are different words, unless a raw one got a number and the plain identifier with that
number was asked for. -/
theorem claimAll_rustWords_nodup_iff : ((Registry.empty.claimAll bases).1.map rustWord).Nodup ↔
    ∀ word ∈ rawWords, ∀ k, "r#" ++ numbered word k ∈ (Registry.empty.claimAll bases).1 → numbered word k ∉ bases := by
  rw [List.nodup_map_iff_inj_on (claimAll_nodup _ _)]
  constructor
  · intro hinj word hword k hraw hasked
    have hsame := hinj _ hraw _ ((numbered_mem_iff hbases hword k).2 hasked) (by
      rw [rustWord_raw, rustWord_of_smallLettered ((snakeCase_numbered_rawWord hword k) ▸ smallLettered_snakeCase _)])
    have hlength := congrArg (fun s : String => s.toList.length) hsame
    simp only [String.toList_append, List.length_append] at hlength
    exact absurd hlength (Nat.ne_of_gt (Nat.lt_add_of_pos_left (by decide)))
  · intro hno
    -- of two identifiers that are the same word, at most one is raw
    have hmixed {a b : String} (ha : a ∈ (Registry.empty.claimAll bases).1) (hb : b ∈ (Registry.empty.claimAll bases).1)
        (hplain : rustWord a = a ∧ a ∉ rawWords) {word : String} (hword : word ∈ rawWords)
        (hraw : b = "r#" ++ word ∨ ∃ k, b = "r#" ++ numbered word k) : rustWord a ≠ rustWord b := by
      intro hsame
      rw [hplain.1] at hsame
      rcases hraw with rfl | ⟨k, rfl⟩
      · rw [rustWord_raw] at hsame
        exact hplain.2 (hsame ▸ hword)
      · rw [rustWord_raw] at hsame
        exact hno word hword k hb ((numbered_mem_iff hbases hword k).1 (hsame ▸ ha))
    intro a ha b hb hsame
    rcases rustWord_cases hbases ha with hplain | ⟨word, hword, hraw⟩
    · rcases rustWord_cases hbases hb with hplain' | ⟨word, hword, hraw⟩
      · rw [← hplain.1, hsame, hplain'.1]
      · exact absurd hsame (hmixed ha hb hplain hword hraw)
    · rcases rustWord_cases hbases hb with hplain | ⟨word', hword', hraw'⟩
      · exact absurd hsame.symm (hmixed hb ha hplain hword hraw)
      · have hback {ident word : String} (h : ident = "r#" ++ word ∨ ∃ k, ident = "r#" ++ numbered word k) :
            ident = "r#" ++ rustWord ident := by
          rcases h with rfl | ⟨k, rfl⟩ <;> rw [rustWord_raw]
        rw [hback hraw, hsame, ← hback hraw']

end Given

end ContractBindings.Naming
