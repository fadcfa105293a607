import ContractBindings.Proofs.Naming.Lettered
import ContractBindings.Proofs.Naming.RustWords
import ContractBindings.Text.IdentifierChar

/-!
# Legal identifiers

What the targets accept as a name, told by its characters: a Rust identifier is a word that is no keyword, or `r#` and a
word that has a raw form (`RustIdentifier`); the name of a field of a message is an ASCII letter with letters, digits and
underscores behind it (`FieldName`). A capitalized word other than `Self` is a Rust identifier
(`rustIdentifier_of_capitalized`); such words are the names of types (`TypeName`), and what is claimed for one where `Self`
is taken is one again (`Registry.typeName_claim`).

A name of a field or parameter is written in small letters, or it is `r#` and a reserved word (`RustField`). Whatever text
it is made of, it is a Rust identifier, and so is the name with a number behind it (`rustField_rustIdent`,
`RustField.given`).
-/

namespace ContractBindings.Naming

open Text (isIdentifierStart isIdentifierContinue)

/-- A text that begins and goes on as identifiers do. -/
def IdentifierShaped (s : String) : Prop :=
  ∃ c cs, s.toList = c :: cs ∧ isIdentifierStart c = true ∧ ∀ d ∈ cs, isIdentifierContinue d = true

/-- An identifier of Rust, plain or raw. -/
inductive RustIdentifier (s : String) : Prop
  | plain : IdentifierShaped s → s ≠ "_" → s ∉ reservedWords → RustIdentifier s
  | raw {word : String} : s = "r#" ++ word → IdentifierShaped word → word ≠ "_" → word ∉ pathWords → RustIdentifier s

/-- A name of a field in a message. -/
def FieldName (s : String) : Prop := ∃ c cs, s.toList = c :: cs ∧ c.isAlpha = true ∧ ∀ d ∈ cs, WordChar d

/-! ## Characters -/

theorem toNat_lt_of_isAlphanum {c : Char} (h : c.isAlphanum = true) : c.toNat < 128 := by
  delta Char.isAlphanum Char.isAlpha at h
  simp only [Bool.or_eq_true, isUpper_iff, isLower_iff, isDigit_iff] at h
  omega

theorem isIdentifierStart_of_isAlpha {c : Char} (h : c.isAlpha = true) : isIdentifierStart c = true := by
  have hlt : c.toNat < 128 := toNat_lt_of_isAlphanum (by simp [Char.isAlphanum, h])
  simp [isIdentifierStart, hlt, h]

theorem WordChar.isIdentifierContinue {c : Char} (h : WordChar c) : isIdentifierContinue c = true := by
  rcases h with h | rfl
  · simp [Text.isIdentifierContinue, toNat_lt_of_isAlphanum h, h]
  · decide

theorem wordChar_toLower_iff {c : Char} : WordChar c.toLower ↔ WordChar c := by
  cases hupper : c.isUpper with
  | false => rw [toLower_of_not_isUpper hupper]
  | true =>
    have hc : c.isAlphanum = true := isAlphanum_of_isUpper hupper
    exact ⟨fun _ => .inl hc, fun _ => .inl (isAlphanum_toLower hc)⟩

/-! ## Names -/

/-- The only keyword that begins with a capital is `Self`. -/
theorem not_reserved_of_capitalized {s : String} (h : Capitalized s) (hself : s ≠ "Self") : s ∉ reservedWords := by
  intro hmem
  obtain ⟨c, cs, hs, hc⟩ := h
  have hall : ∀ word ∈ reservedWords, word = "Self" ∨ word.toList.head?.any Char.isUpper = false := by decide +kernel
  rcases hall s hmem with heq | hhead
  · exact hself heq
  · simp [hs, hc] at hhead

theorem Capitalized.ne_of_head {s t : String} (h : Capitalized s) (ht : t.toList.head?.any Char.isUpper = false) :
    s ≠ t := by
  rintro rfl
  obtain ⟨c, cs, hs, hc⟩ := h
  simp [hs, hc] at ht

/-- What goes on from a capital is an identifier exactly if it goes on as identifiers do. -/
theorem rustIdentifier_append_iff {s t : String} (h : Capitalized s) (hs : Lettered s) (hself : s ++ t ≠ "Self") :
    RustIdentifier (s ++ t) ↔ ∀ c ∈ t.toList, isIdentifierContinue c = true := by
  obtain ⟨c, cs, htext, hc⟩ := id h
  have happend : (s ++ t).toList = c :: (cs ++ t.toList) := by simp [htext]
  constructor
  · intro hlegal d hd
    cases hlegal with
    | plain hshape =>
      obtain ⟨c', cs', heq, -, hrest⟩ := hshape
      rw [happend] at heq
      cases heq
      exact hrest d (List.mem_append_right _ hd)
    | raw hraw => exact absurd hraw ((h.append t).ne_of_head (by simp))
  · intro hall
    refine .plain ⟨c, _, happend, isIdentifierStart_of_isAlpha (isAlpha_of_isUpper hc), fun d hd => ?_⟩
      ((h.append t).ne_of_head rfl) (not_reserved_of_capitalized (h.append t) hself)
    rcases List.mem_append.1 hd with hd | hd
    · exact (hs d (htext ▸ List.mem_cons_of_mem c hd)).isIdentifierContinue
    · exact hall d hd

theorem rustIdentifier_of_capitalized {s : String} (h : Capitalized s) (hs : Lettered s) (hself : s ≠ "Self") :
    RustIdentifier s := by
  have hlegal := (rustIdentifier_append_iff (t := "") h hs (by simpa using hself)).2 (by simp)
  simpa using hlegal

theorem fieldName_of_lettered {s : String} (h : Lettered s) (hhead : s.toList.head?.any Char.isAlpha = true) :
    FieldName s := by
  cases htext : s.toList with
  | nil => simp [htext] at hhead
  | cons c cs => exact ⟨c, cs, htext, by simpa [htext] using hhead, fun d hd => h d (htext ▸ List.mem_cons_of_mem c hd)⟩

/-- What goes on from the name of a field is one exactly if it is made of letters, digits and underscores. -/
theorem fieldName_append_iff {s t : String} (h : FieldName s) : FieldName (s ++ t) ↔ Lettered t := by
  obtain ⟨c, cs, htext, hc, hcs⟩ := h
  have happend : (s ++ t).toList = c :: (cs ++ t.toList) := by simp [htext]
  constructor
  · rintro ⟨c', cs', heq, -, hrest⟩ d hd
    rw [happend] at heq
    cases heq
    exact hrest d (List.mem_append_right _ hd)
  · intro ht
    exact ⟨c, _, happend, hc, fun d hd => (List.mem_append.1 hd).elim (hcs d) (ht d)⟩

/-! ## Names of types -/

/-- A name for a type: ASCII letters, digits and underscores, with a capital first, and not `Self`. -/
structure TypeName (s : String) : Prop where
  capital : Capitalized s
  lettered : Lettered s
  ne_self : s ≠ "Self"

/-- A Rust identifier for a type or a variant. -/
def LegalName (s : String) : Prop := RustIdentifier s ∧ s ≠ "Self"

theorem TypeName.legal {s : String} (h : TypeName s) : LegalName s :=
  ⟨rustIdentifier_of_capitalized h.capital h.lettered h.ne_self, h.ne_self⟩

namespace Registry

variable {r : Registry} {base name : String}

/-- What is given for a capitalized word and is new where `Self` is taken is the name of a type. -/
theorem Given.typeName (h : Given base name) (hbase : Capitalized base) (hlettered : Lettered base)
    (hself : "self" ∈ r.taken) (hnew : snakeCase name ∉ r.taken) : TypeName name where
  capital := h.capitalized hbase
  lettered := (h.word (hbase.word hlettered)).lettered
  ne_self := by
    rintro rfl
    exact hnew hself

theorem typeName_claim (hself : "self" ∈ r.taken) (hbase : Capitalized base) (hlettered : Lettered base) :
    TypeName (r.claim base).1 := (r.given_claim base).typeName hbase hlettered hself (r.claim_fresh base)

theorem typeName_claimAll {bases : List String} (hself : "self" ∈ r.taken)
    (h : ∀ base ∈ bases, Capitalized base ∧ Lettered base) : ∀ name ∈ (r.claimAll bases).1, TypeName name := by
  intro name hname
  obtain ⟨base, hbase, hgiven⟩ := exists_asked hname
  exact hgiven.typeName (h base hbase).1 (h base hbase).2 hself ((claimAll_forms bases r).2 name hname)

end Registry

/-! ## Names of fields -/

/-- A word of small letters, digits and underscores that begins with a letter or an underscore, and is neither an underscore
alone nor reserved. -/
structure PlainField (s : String) : Prop where
  small : SmallLettered s
  head : ∃ c cs, s.toList = c :: cs ∧ (c.isAlpha = true ∨ c = '_')
  ne_underscore : s ≠ "_"
  not_reserved : s ∉ reservedWords

/-- A name of a field or parameter: a plain word, or `r#` and a reserved word that has a raw form. -/
def RustField (s : String) : Prop := PlainField s ∨ ∃ word ∈ reservedWords, word ∉ pathWords ∧ s = "r#" ++ word

theorem identifierShaped_of_lettered {s : String} (hs : Lettered s)
    (hhead : ∃ c cs, s.toList = c :: cs ∧ (c.isAlpha = true ∨ c = '_')) : IdentifierShaped s := by
  obtain ⟨c, cs, htext, hc⟩ := hhead
  refine ⟨c, cs, htext, ?_, fun d hd => (hs d (htext ▸ List.mem_cons_of_mem c hd)).isIdentifierContinue⟩
  rcases hc with hc | rfl
  · exact isIdentifierStart_of_isAlpha hc
  · decide

theorem PlainField.rustIdentifier {s : String} (h : PlainField s) : RustIdentifier s :=
  .plain (identifierShaped_of_lettered h.small.lettered h.head) h.ne_underscore h.not_reserved

/-- A snake form that begins with a letter and is not reserved is a plain word. -/
theorem plainField_of_form {s : String} (hform : snakeCase s = s) (hhead : s.toList.head?.any Char.isAlpha = true)
    (hnot : s ∉ reservedWords) : PlainField s := by
  refine ⟨hform ▸ smallLettered_snakeCase s, ?_, ?_, hnot⟩
  · cases htext : s.toList with
    | nil => simp [htext] at hhead
    | cons c cs => exact ⟨c, cs, rfl, .inl (by simpa [htext] using hhead)⟩
  · rintro rfl
    exact absurd hhead (by decide)

theorem toList_numbered (base : String) (k : Nat) :
    (Registry.numbered base k).toList = base.toList ++ '_' :: Nat.toDigits 10 k := by
  simp [Registry.numbered, String.toList_append]

/-- A number behind a plain word leaves it one: no reserved word has an underscore. -/
theorem PlainField.numbered {s : String} (h : PlainField s) (k : Nat) : PlainField (Registry.numbered s k) := by
  obtain ⟨c, cs, htext, hc⟩ := h.head
  have hlist := toList_numbered s k
  rw [htext, List.cons_append] at hlist
  refine ⟨h.small.numbered k, ⟨c, _, hlist, hc⟩, fun heq => ?_, fun hmem => ?_⟩
  · rw [heq] at hlist
    have hlength := congrArg List.length hlist
    simp at hlength
  · exact underscore_not_mem (List.mem_append_left _ hmem) (underscore_mem_numbered s k)

/-- A raw word is an identifier, also with a number behind it, if it begins with a letter and is no word of paths. -/
theorem rustIdentifier_raw {word : String} (h : word ∈ reservedWords) (hpath : word ∉ pathWords) :
    RustIdentifier ("r#" ++ word) ∧ ∀ k, RustIdentifier ("r#" ++ Registry.numbered word k) := by
  have hword : word ∈ rawWords := List.mem_filter.2 ⟨h, by simpa using hpath⟩
  obtain ⟨⟨hne, hsmall⟩, -⟩ := smallWord_rawWord hword
  obtain ⟨c, cs, htext, hdigit⟩ := exists_head_rawWord hword
  have halpha : c.isAlpha = true := by
    have halphanum := (hsmall c (htext ▸ List.mem_cons_self)).1
    rwa [Char.isAlphanum, hdigit, Bool.or_false] at halphanum
  have hlettered : Lettered word := fun d hd => .inl (hsmall d hd).1
  have hunder (k : Nat) := underscore_mem_numbered word k
  have hlist (k : Nat) := toList_numbered word k
  refine ⟨.raw rfl (identifierShaped_of_lettered hlettered ⟨c, cs, htext, .inl halpha⟩) ?_ hpath, fun k => ?_⟩
  · rintro rfl
    exact absurd h (by decide)
  · refine .raw rfl (identifierShaped_of_lettered ?_ ⟨c, cs ++ _, by rw [hlist, htext, List.cons_append], .inl halpha⟩)
      (fun heq => ?_) fun hmem => underscore_not_mem (List.mem_append_right _ hmem) (hunder k)
    · exact (hlettered.append (by decide : Lettered "_")).append (lettered_toString_nat k)
    · have hlength := congrArg (fun s : String => s.toList.length) heq
      simp [hlist, htext] at hlength

theorem RustField.rustIdentifier {s : String} (h : RustField s) : RustIdentifier s := by
  rcases h with h | ⟨word, hword, hpath, rfl⟩
  · exact h.rustIdentifier
  · exact (rustIdentifier_raw hword hpath).1

theorem RustField.numbered {s : String} (h : RustField s) (k : Nat) : RustIdentifier (Registry.numbered s k) := by
  rcases h with h | ⟨word, hword, hpath, rfl⟩
  · exact (h.numbered k).rustIdentifier
  · rw [raw_numbered]
    exact (rustIdentifier_raw hword hpath).2 k

/-- What is given for a name of a field is an identifier. -/
theorem RustField.given {base name : String} (h : RustField base) (hgiven : Registry.Given base name) :
    RustIdentifier name := by
  rcases hgiven with rfl | ⟨k, -, rfl⟩
  · exact h.rustIdentifier
  · exact h.numbered k

/-- **Names of fields and parameters.** Whatever text it is made of, the name is a plain word or a raw one. -/
theorem rustField_rustIdent (name : String) : RustField (rustIdent name) := by
  have hform := snakeCase_fieldStem name
  have hword := word_fieldStem name
  unfold rustIdent
  generalize fieldStem name = stem at hform hword
  have hsmall : SmallLettered stem := hform ▸ smallLettered_snakeCase stem
  obtain ⟨c, cs, htext, hc⟩ := (snakeForm_iff.2 hform).head hword.ne_empty
  split
  · -- a digit first: an underscore stands in front, and no reserved word has one
    rw [escapeReserved_of_digit]
    have hlist : ("_" ++ stem).toList = '_' :: stem.toList := by simp
    refine .inl ⟨smallLettered_append smallLettered_underscore hsmall, ⟨'_', _, hlist, .inr rfl⟩, fun heq => ?_, fun hmem => ?_⟩
    · rw [heq, htext] at hlist
      cases hlist
    · exact underscore_not_mem (List.mem_append_left _ hmem) (hlist ▸ List.mem_cons_self)
  · next hdigit =>
    have halpha : c.isAlpha = true := by
      have hdigit : c.isDigit = false := by simpa [startsWithDigit, htext] using hdigit
      rwa [Char.isAlphanum, hdigit, Bool.or_false] at hc
    unfold escapeReserved
    split
    · have hlist : (stem ++ "_").toList = c :: (cs ++ ['_']) := by simp [htext]
      refine .inl ⟨smallLettered_append hsmall smallLettered_underscore, ⟨c, _, hlist, .inl halpha⟩, fun heq => ?_, fun hmem => ?_⟩
      · rw [heq] at hlist
        have hlength := congrArg List.length hlist
        simp at hlength
      · exact underscore_not_mem (List.mem_append_left _ hmem) (by simp)
    · next hpath =>
      split
      · next hreserved => exact .inr ⟨stem, List.contains_iff_mem.1 hreserved, by simpa using hpath, rfl⟩
      · next hreserved => exact .inl (plainField_of_form hform (by simpa [htext] using halpha) (by simpa using hreserved))

end ContractBindings.Naming
