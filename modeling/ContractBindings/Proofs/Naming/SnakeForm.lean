import ContractBindings.Operation.Extraction
import ContractBindings.Proofs.Naming.Capital
import ContractBindings.Proofs.Naming.Fresh

/-!
# Snake forms are a normal form

The words of a name are *small words*: not empty, of small letters and digits (`smallWord_of_mem_words`). Small words
joined by underscores are the words of the joined text again (`words_joinWords`), so the snake form of a snake form is
itself (`snakeCase_snakeCase`), and the texts made of small words so are those that are their own snake form
(`snakeForm_iff`).

The identifier made of a method and a path is written by another rule. Its characters are *spaced*: small, and no
underscore stands at the beginning or after another (`Spaced`). For spaced characters the two rules agree
(`joinWords_words`), so every identifier of an operation is a snake form (`snakeCase_identifier`).

Neither rule loses a letter or a digit (`letters_snakeCase`, `letters_pathIdentifier`).
-/

namespace ContractBindings.Naming

/-- A word of small letters and digits. -/
def SmallWord (word : List Char) : Prop := word ≠ [] ∧ ∀ c ∈ word, c.isAlphanum = true ∧ c.isUpper = false

/-- That a word is small can be tested. -/
theorem smallWord_of_all {word : List Char} (hne : word ≠ [])
    (h : (word.all fun c => c.isAlphanum && !c.isUpper) = true) : SmallWord word := by
  refine ⟨hne, fun c hc => ?_⟩
  have hsmall := List.all_eq_true.1 h c hc
  simpa using hsmall

theorem isAlphanum_toLower {c : Char} (h : c.isAlphanum = true) : c.toLower.isAlphanum = true := by
  obtain ⟨-, hc | hc⟩ := smallChar_toLower h
  · exact hc
  · -- no capital letter is written with an underscore
    exfalso
    have hval : c.toLower.val = 95 := by rw [hc]; rfl
    delta Char.toLower at hval
    split at hval
    · next hupper =>
      simp only [← UInt32.toNat_inj, UInt32.le_iff_toNat_le, UInt32.toNat_add] at hval hupper
      simp at hval hupper
      omega
    · have hunder : c = '_' := Char.ext hval
      rw [hunder] at h
      exact absurd h (by decide)

theorem smallWord_singleton {c : Char} (h : c.isAlphanum = true) : SmallWord [c.toLower] := by
  refine ⟨by simp, ?_⟩
  intro d hd
  rw [List.mem_singleton.1 hd]
  exact ⟨isAlphanum_toLower h, not_isUpper_toLower c⟩

theorem smallWord_cons {c : Char} {word : List Char} (h : c.isAlphanum = true) (hw : SmallWord word) :
    SmallWord (c.toLower :: word) := by
  refine ⟨by simp, ?_⟩
  intro d hd
  rcases List.mem_cons.1 hd with rfl | hd
  · exact ⟨isAlphanum_toLower h, not_isUpper_toLower c⟩
  · exact hw.2 d hd

/-- The words of any text are small words. -/
theorem smallWord_of_mem_words : ∀ {cs word : List Char}, word ∈ words cs → SmallWord word
  | [], _, h => by cases h
  | [c], word, h => by
    rw [words] at h
    split at h
    · next hc =>
      rw [List.mem_singleton.1 h]
      exact smallWord_singleton hc
    · cases h
  | c :: d :: cs, word, h => by
    have ih : ∀ {word}, word ∈ words (d :: cs) → SmallWord word := smallWord_of_mem_words
    rw [words] at h
    split at h
    · next hc =>
      split at h
      · cases hws : words (d :: cs) with
        | nil =>
          rw [hws, consWord] at h
          rw [List.mem_singleton.1 h]
          exact smallWord_singleton hc
        | cons first rest =>
          rw [hws, consWord] at h
          rcases List.mem_cons.1 h with rfl | h
          · have hfirst : SmallWord first := ih (by rw [hws]; exact List.mem_cons_self)
            exact smallWord_cons hc hfirst
          · have hrest : word ∈ words (d :: cs) := by
              rw [hws]
              exact List.mem_cons_of_mem _ h
            exact ih hrest
      · rcases List.mem_cons.1 h with rfl | h
        · exact smallWord_singleton hc
        · exact ih h
    · exact ih h

/-! ## Words of a snake form -/

/-- A small word is one word. -/
theorem words_smallWord : ∀ {word : List Char}, SmallWord word → words word = [word]
  | [], h => absurd rfl h.1
  | [c], h => by
    obtain ⟨hc, hu⟩ := h.2 c List.mem_cons_self
    simp [words, hc, toLower_of_not_isUpper hu]
  | c :: d :: cs, h => by
    obtain ⟨hc, hu⟩ := h.2 c List.mem_cons_self
    obtain ⟨hd, hdu⟩ := h.2 d (by simp)
    have hrest : SmallWord (d :: cs) := ⟨by simp, fun x hx => h.2 x (List.mem_cons_of_mem _ hx)⟩
    have ih : words (d :: cs) = [d :: cs] := words_smallWord hrest
    rw [words, ih]
    simp [hc, hd, hdu, startsWord, consWord, toLower_of_not_isUpper hu]

theorem joinWords_cons_cons (word next : List Char) (rest : List (List Char)) :
    joinWords (word :: next :: rest) = word ++ '_' :: joinWords (next :: rest) := by
  rw [joinWords]
  simp

/-- Joining small words keeps them. -/
theorem words_joinWords : ∀ {ws : List (List Char)}, (∀ word ∈ ws, SmallWord word) → words (joinWords ws) = ws
  | [], _ => by rw [joinWords, words]
  | [word], h => by
    rw [joinWords]
    exact words_smallWord (h word List.mem_cons_self)
  | word :: next :: rest, h => by
    have hword : words word = [word] := words_smallWord (h word List.mem_cons_self)
    have ih : words (joinWords (next :: rest)) = next :: rest :=
      words_joinWords fun w hw => h w (List.mem_cons_of_mem _ hw)
    rw [joinWords_cons_cons, words_append_underscore, hword, ih]
    rfl

/-- Snake forms are fixed. -/
theorem snakeCase_snakeCase (s : String) : snakeCase (snakeCase s) = snakeCase s := by
  have hwords : words (joinWords (words s.toList)) = words s.toList :=
    words_joinWords fun _ hw => smallWord_of_mem_words hw
  simp only [snakeCase, String.toList_ofList, hwords]

/-- Names with one screaming form have one snake form. -/
theorem snakeCase_eq_of_screamingSnakeCase_eq {s t : String} (h : screamingSnakeCase s = screamingSnakeCase t) :
    snakeCase s = snakeCase t := by
  have hback (s : String) : (screamingSnakeCase s).toList.map Char.toLower = (snakeCase s).toList := by
    rw [screamingSnakeCase, String.toList_ofList, List.map_map]
    have hsmall := smallLettered_snakeCase s
    exact (List.map_congr_left fun c hc => toLower_toUpper (hsmall c hc).1).trans (List.map_id _)
  exact String.toList_inj.1 (by rw [← hback, h, hback])

/-- Names that differ in their snake forms do so in capitals. -/
theorem nodup_screamingSnakeCase {α : Type} {name : α → String} {items : List α}
    (h : (items.map fun a => snakeCase (name a)).Nodup) : (items.map fun a => screamingSnakeCase (name a)).Nodup :=
  (List.pairwise_map.1 h).map _ fun _ _ hne heq => hne (snakeCase_eq_of_screamingSnakeCase_eq heq)

/-- Names of one snake form have the same words. -/
theorem words_eq_of_snakeCase_eq {s t : String} (h : snakeCase s = snakeCase t) : words s.toList = words t.toList := by
  have hback (s : String) : words (joinWords (words s.toList)) = words s.toList :=
    words_joinWords fun _ hw => smallWord_of_mem_words hw
  have hjoined : joinWords (words s.toList) = joinWords (words t.toList) := String.ofList_inj.1 h
  rw [← hback s, hjoined, hback t]

/-! ## Snake forms of capitalized names -/

theorem exists_words_cons {c : Char} (h : c.isAlphanum = true) (cs : List Char) :
    ∃ word ws, words (c :: cs) = (c.toLower :: word) :: ws := by
  rw [words.eq_def]
  simp only [h, ↓reduceIte]
  split
  · next d ds =>
    split
    · cases hws : words (d :: ds) with
      | nil => exact ⟨[], [], rfl⟩
      | cons word ws => exact ⟨word, ws, rfl⟩
    · exact ⟨[], _, rfl⟩
  · exact ⟨[], [], rfl⟩

/-- The words of a capitalized name begin with a small letter. -/
theorem Capitalized.words {s : String} (h : Capitalized s) :
    ∃ c word ws, words s.toList = (c :: word) :: ws ∧ c.isLower = true := by
  obtain ⟨c, cs, hs, hc⟩ := h
  have halpha : c.isAlphanum = true := Bool.or_eq_true_iff.2 (.inl (Bool.or_eq_true_iff.2 (.inl hc)))
  obtain ⟨word, ws, hwords⟩ := exists_words_cons halpha cs
  have hrange := isUpper_iff.1 hc
  have hlower := toNat_toLower hc
  exact ⟨c.toLower, word, ws, hs ▸ hwords, isLower_iff.2 ⟨by omega, by omega⟩⟩

/-- The snake form of a capitalized name begins with a small letter. -/
theorem Capitalized.snakeCase {s : String} (h : Capitalized s) :
    ∃ c cs, (snakeCase s).toList = c :: cs ∧ c.isLower = true := by
  obtain ⟨c, word, ws, hwords, hc⟩ := h.words
  refine ⟨c, ?_⟩
  rw [Naming.snakeCase, hwords, String.toList_ofList]
  cases ws with
  | nil => exact ⟨word, rfl, hc⟩
  | cons next rest => exact ⟨word ++ '_' :: joinWords (next :: rest), by simp [joinWords], hc⟩

/-! ## Identifiers of operations -/

/-- Small characters of which no underscore stands first, where that is told, nor after another underscore. -/
def Spaced : Bool → List Char → Prop
  | _, [] => True
  | afterUnderscore, c :: cs => SmallChar c ∧ (c = '_' → afterUnderscore = false) ∧ Spaced (c == '_') cs

/-- After anything but an underscore, spaced characters may begin with one. -/
theorem Spaced.rest {after : Bool} {c : Char} {cs : List Char} (h : Spaced after (c :: cs)) (hc : c ≠ '_') :
    Spaced false cs := by
  have hunder : (c == '_') = false := by simpa using hc
  exact hunder ▸ h.2.2

theorem spaced_pathWords : ∀ (last : Char) (cs : List Char), Spaced (last == '_') (ContractBindings.pathWords last cs)
  | _, [] => by
    rw [ContractBindings.pathWords]
    trivial
  | last, c :: cs => by
    rw [ContractBindings.pathWords]
    split
    · exact spaced_pathWords last cs
    · split
      · next hc =>
        refine ⟨smallChar_toLower hc, ?_, spaced_pathWords _ cs⟩
        intro hunder
        have halpha := isAlphanum_toLower hc
        rw [hunder] at halpha
        exact absurd halpha (by decide)
      · split
        · exact spaced_pathWords last cs
        · next hlast =>
          refine ⟨⟨rfl, .inr rfl⟩, ?_, spaced_pathWords '_' cs⟩
          intro _
          simpa using hlast

theorem smallWord_methodName (m : Method) : SmallWord m.name.toList := by
  cases m <;> exact smallWord_of_all (by decide) (by decide)

/-- Spaced characters of a path stay so behind the name of its method. -/
theorem spaced_methodName (m : Method) (cs : List Char) :
    Spaced true (m.name.toList ++ ContractBindings.pathWords (m.name.toList.getLastD '_') cs) := by
  have hmain : ∀ (name : List Char) (after : Bool), SmallWord name →
      Spaced after (name ++ ContractBindings.pathWords (name.getLastD '_') cs) := by
    intro name
    induction name with
    | nil =>
      intro _ h
      exact absurd rfl h.1
    | cons c rest ih =>
      intro after h
      obtain ⟨halpha, hupper⟩ := h.2 c List.mem_cons_self
      have hne : c ≠ '_' := by
        rintro rfl
        exact absurd halpha (by decide)
      refine ⟨⟨hupper, .inl halpha⟩, fun hc => absurd hc hne, ?_⟩
      cases rest with
      | nil => exact spaced_pathWords c cs
      | cons d rest => exact ih _ ⟨by simp, fun x hx => h.2 x (List.mem_cons_of_mem _ hx)⟩
  exact hmain _ true (smallWord_methodName m)

theorem joinWords_consWord (c : Char) {ws : List (List Char)} (h : ws ≠ []) :
    joinWords (consWord c ws) = c :: joinWords ws := by
  match ws with
  | [] => exact absurd rfl h
  | [word] => rfl
  | word :: next :: rest => simp [consWord, joinWords]

theorem dropUnderscoreEnd_cons {c : Char} (h : c ≠ '_') (cs : List Char) :
    dropUnderscoreEnd (c :: cs) = c :: dropUnderscoreEnd cs := by
  rw [dropUnderscoreEnd]
  split
  · next hnil => simp [h, hnil]
  · rfl

/-- After a small letter or digit, words of spaced characters are joined to the characters without those underscores
at their end. -/
theorem joinWords_words_cons : ∀ (cs : List Char) {c : Char}, c.isAlphanum = true → c.isUpper = false →
    Spaced false cs → joinWords (words (c :: cs)) = c :: dropUnderscoreEnd cs
  | [], c, hc, hu, _ => by
    have hword : words [c] = [[c]] := words_smallWord ⟨by simp, by simp [hc, hu]⟩
    rw [hword, joinWords, dropUnderscoreEnd]
  | d :: cs, c, hc, hu, h => by
    have hd := h.1
    have hcs := h.2.2
    by_cases hunder : d = '_'
    · -- the underscore ends a word; what follows it, if anything, is no underscore
      subst hunder
      have hword : words [c] = [[c]] := words_smallWord ⟨by simp, by simp [hc, hu]⟩
      have hsplit : words (c :: '_' :: cs) = [c] :: words cs := by
        have happend := words_append_underscore cs [c]
        rwa [hword] at happend
      rw [hsplit]
      cases cs with
      | nil => rfl
      | cons e es =>
        have he := hcs.1
        have hne : e ≠ '_' := fun h => by cases hcs.2.1 h
        have hea : e.isAlphanum = true := he.2.resolve_right hne
        have ih : joinWords (words (e :: es)) = e :: dropUnderscoreEnd es :=
          joinWords_words_cons es hea he.1 (Spaced.rest hcs hne)
        have hjoin : joinWords ([c] :: words (e :: es)) = c :: '_' :: joinWords (words (e :: es)) := by
          cases hws : words (e :: es) with
          | nil => exact absurd hws (words_ne_nil hea)
          | cons word rest => simp [joinWords]
        rw [hjoin, ih, dropUnderscoreEnd, dropUnderscoreEnd_cons hne]
    · have hda : d.isAlphanum = true := hd.2.resolve_right hunder
      have ih : joinWords (words (d :: cs)) = d :: dropUnderscoreEnd cs :=
        joinWords_words_cons cs hda hd.1 (Spaced.rest h hunder)
      have hcons : words (c :: d :: cs) = consWord c (words (d :: cs)) := by
        rw [words]
        simp [hc, hda, hd.1, startsWord, toLower_of_not_isUpper hu]
      rw [hcons, joinWords_consWord c (words_ne_nil hda), ih, dropUnderscoreEnd_cons hunder]

/-- Spaced characters without the underscore at their end are their words, joined. -/
theorem joinWords_words {cs : List Char} (h : Spaced true cs) : joinWords (words cs) = dropUnderscoreEnd cs := by
  cases cs with
  | nil => rfl
  | cons c cs =>
    have ⟨⟨hu, hc⟩, hnot, _⟩ := h
    have hne : c ≠ '_' := fun h => by cases hnot h
    rw [joinWords_words_cons cs (hc.resolve_right hne) hu (Spaced.rest h hne), dropUnderscoreEnd_cons hne]

theorem pathIdentifier_eq_snakeCase (m : Method) (path : String) :
    pathIdentifier m path = snakeCase (String.ofList
      (m.name.toList ++ ContractBindings.pathWords (m.name.toList.getLastD '_') path.toList)) := by
  rw [pathIdentifier, snakeCase, String.toList_ofList, joinWords_words (spaced_methodName m path.toList)]

/-- The identifier of a method and a path is a snake form. -/
theorem snakeCase_pathIdentifier (m : Method) (path : String) :
    snakeCase (pathIdentifier m path) = pathIdentifier m path := by
  rw [pathIdentifier_eq_snakeCase]
  exact snakeCase_snakeCase _

/-- Identifiers of operations are snake forms, however they are derived. -/
theorem snakeCase_identifier (naming : OperationNaming) (method : Method) (path : String) (declared : Option String) :
    snakeCase (Extraction.identifier naming method path declared) =
      Extraction.identifier naming method path declared := by
  unfold Extraction.identifier
  split
  · exact snakeCase_snakeCase _
  · exact snakeCase_pathIdentifier method path

/-! ## The normal form -/

/-- A snake form: nothing, or small words with one underscore between two of them. -/
def SnakeForm (s : String) : Prop :=
  ∃ ws : List (List Char), (∀ word ∈ ws, SmallWord word) ∧ s.toList = ['_'].intercalate ws

theorem joinWords_eq_intercalate : ∀ ws : List (List Char), joinWords ws = ['_'].intercalate ws
  | [] => rfl
  | [word] => by simp [joinWords]
  | word :: next :: rest => by
    have ih := joinWords_eq_intercalate (next :: rest)
    rw [joinWords_cons_cons, List.intercalate_cons_cons, ← ih, List.append_assoc, List.singleton_append]

theorem snakeForm_snakeCase (s : String) : SnakeForm (snakeCase s) :=
  ⟨words s.toList, fun _ => smallWord_of_mem_words, by rw [snakeCase, String.toList_ofList, joinWords_eq_intercalate]⟩

/-- Snake forms are the names that their snake form leaves as they are. -/
theorem snakeForm_iff {s : String} : SnakeForm s ↔ snakeCase s = s := by
  constructor
  · rintro ⟨ws, hws, hs⟩
    rw [← joinWords_eq_intercalate] at hs
    rw [snakeCase, hs, words_joinWords hws, ← hs, String.ofList_toList]
  · intro h
    exact h ▸ snakeForm_snakeCase s

/-- A snake form begins with a letter or a digit. -/
theorem SnakeForm.head {s : String} (h : SnakeForm s) (hne : s ≠ "") :
    ∃ c cs, s.toList = c :: cs ∧ c.isAlphanum = true := by
  obtain ⟨ws, hws, hs⟩ := h
  cases ws with
  | nil => exact absurd (String.toList_eq_nil_iff.1 hs) hne
  | cons word rest =>
    obtain ⟨hword, hsmall⟩ := hws word List.mem_cons_self
    obtain ⟨c, cs, rfl⟩ := List.exists_cons_of_ne_nil hword
    have hc := (hsmall c List.mem_cons_self).1
    cases rest with
    | nil => exact ⟨c, cs, by simpa using hs, hc⟩
    | cons next rest => exact ⟨c, _, by rw [hs, List.intercalate_cons_cons]; rfl, hc⟩

/-! ## Letters and digits -/

/-- The letters and digits of a name, in small letters. -/
def letters (s : String) : List Char := (s.toList.filter Char.isAlphanum).map Char.toLower

theorem flatten_consWord (c : Char) (ws : List (List Char)) : (consWord c ws).flatten = c :: ws.flatten := by
  cases ws <;> rfl

theorem flatten_words : ∀ cs : List Char, (words cs).flatten = (cs.filter Char.isAlphanum).map Char.toLower
  | [] => rfl
  | [c] => by
    rw [words]
    cases hc : c.isAlphanum <;> simp [hc, words]
  | c :: d :: cs => by
    have ih := flatten_words (d :: cs)
    rw [words]
    cases hc : c.isAlphanum with
    | false => simpa [hc] using ih
    | true =>
      rw [List.filter_cons_of_pos hc, List.map_cons, ← ih]
      simp only [↓reduceIte]
      split
      · exact flatten_consWord _ _
      · rfl

theorem filter_smallWord {word : List Char} (h : SmallWord word) :
    (word.filter Char.isAlphanum).map Char.toLower = word := by
  rw [List.filter_eq_self.2 fun c hc => (h.2 c hc).1]
  exact (List.map_congr_left fun c hc => toLower_of_not_isUpper (h.2 c hc).2).trans (List.map_id _)

theorem letters_joinWords : ∀ {ws : List (List Char)}, (∀ word ∈ ws, SmallWord word) →
    ((joinWords ws).filter Char.isAlphanum).map Char.toLower = ws.flatten
  | [], _ => rfl
  | [word], h => by
    rw [joinWords, List.flatten_singleton]
    exact filter_smallWord (h word List.mem_cons_self)
  | word :: next :: rest, h => by
    have ih := letters_joinWords fun w hw => h w (List.mem_cons_of_mem word hw)
    have hword := filter_smallWord (h word List.mem_cons_self)
    have hunder : ('_' : Char).isAlphanum = false := by decide
    rw [joinWords_cons_cons, List.filter_append, List.map_append, hword, List.filter_cons_of_neg (by simp [hunder]), ih]
    rfl

/-- The snake form keeps the letters and digits of a name, in order. -/
theorem letters_snakeCase (s : String) : letters (snakeCase s) = letters s := by
  rw [letters, snakeCase, String.toList_ofList, letters_joinWords fun _ hw => smallWord_of_mem_words hw,
    flatten_words, letters]

theorem letters_pathWords : ∀ (last : Char) (cs : List Char),
    ((ContractBindings.pathWords last cs).filter Char.isAlphanum).map Char.toLower =
      (cs.filter Char.isAlphanum).map Char.toLower
  | _, [] => rfl
  | last, c :: cs => by
    rw [ContractBindings.pathWords]
    cases hc : c.isAlphanum with
    | true =>
      have hbrace : (c == '{' || c == '}') = false := by
        rw [Bool.or_eq_false_iff]
        constructor <;> rw [beq_eq_false_iff_ne] <;> rintro rfl <;> exact absurd hc (by decide)
      have hlower : c.toLower.toLower = c.toLower := toLower_of_not_isUpper (not_isUpper_toLower c)
      simp only [hbrace, Bool.false_eq_true, ↓reduceIte]
      rw [List.filter_cons_of_pos (isAlphanum_toLower hc), List.filter_cons_of_pos hc, List.map_cons, List.map_cons,
        hlower, letters_pathWords c.toLower cs]
    | false =>
      have hunder : ('_' : Char).isAlphanum = false := by decide
      have ih (last : Char) := letters_pathWords last cs
      rw [List.filter_cons_of_neg (by simp [hc])]
      simp only [Bool.false_eq_true, ↓reduceIte]
      split
      · exact ih last
      · split
        · exact ih last
        · rw [List.filter_cons_of_neg (by simp [hunder])]
          exact ih '_'

theorem letters_pathIdentifier (m : Method) (path : String) :
    letters (pathIdentifier m path) = m.name.toList ++ letters path := by
  rw [pathIdentifier_eq_snakeCase, letters_snakeCase, letters, String.toList_ofList, List.filter_append,
    List.map_append, letters_pathWords, filter_smallWord (smallWord_methodName m), letters]

/-- **The snake form is a normal form.** What `snakeCase` gives is empty or small words joined by single underscores, with
the letters and digits of the name in order. Exactly the names of this form are left as they are, so a second time
changes nothing. The identifier of a method and a path has this form, too, whatever the path. -/
theorem snakeCase_normal :
    (∀ s, SnakeForm (snakeCase s) ∧ letters (snakeCase s) = letters s) ∧
      (∀ s, SnakeForm s ↔ snakeCase s = s) ∧
      (∀ s, snakeCase (snakeCase s) = snakeCase s) ∧
      ∀ method path, SnakeForm (pathIdentifier method path) ∧
        letters (pathIdentifier method path) = method.name.toList ++ letters path := by
  refine ⟨fun s => ⟨snakeForm_snakeCase s, letters_snakeCase s⟩, fun _ => snakeForm_iff, snakeCase_snakeCase, ?_⟩
  intro method path
  refine ⟨?_, letters_pathIdentifier method path⟩
  rw [pathIdentifier_eq_snakeCase]
  exact snakeForm_snakeCase _

example : pathIdentifier .delete "/a-b//c.json" = "delete_a_b_c_json" := by decide

end ContractBindings.Naming
