import Mathlib.Data.List.Basic
import ContractBindings.Text.Blank

/-!
# Lines of a text

A text is one line, or it has a first line with a line feed behind it (`lineChars_of_unbroken`, `lineChars_append_feed`). So
what is shown for these two cases is shown of every text (`feedInduction`).
-/

namespace ContractBindings.Text

/-- The characters without a carriage return at their end. -/
def dropReturn : List Char → List Char
  | [] => []
  | ['\r'] => []
  | c :: cs => c :: dropReturn cs

theorem dropReturn_cons {c : Char} {cs : List Char} (h : c = '\r' → cs ≠ []) : dropReturn (c :: cs) = c :: dropReturn cs := by
  rw [dropReturn]
  rintro rfl rfl
  exact h rfl rfl

theorem dropReturn_cases : ∀ cs : List Char, dropReturn cs = cs ∨ cs = dropReturn cs ++ ['\r']
  | [] => .inl rfl
  | c :: cs => by
    by_cases hreturn : c = '\r' ∧ cs = []
    · obtain ⟨rfl, rfl⟩ := hreturn
      exact .inr rfl
    · rw [dropReturn_cons fun hc hcs => hreturn ⟨hc, hcs⟩]
      exact (dropReturn_cases cs).imp (congrArg (c :: ·)) (congrArg (c :: ·))

/-- A text without line feeds is one line. -/
theorem lineChars_of_unbroken : ∀ {cs : List Char}, '\n' ∉ cs → cs ≠ [] → lineChars cs = [cs]
  | [c], h, _ => by
    have hc : c ≠ '\n' := fun he => h (he ▸ List.mem_cons_self)
    rw [lineChars]
    · rfl
    · exact hc
    · simp
  | c :: d :: cs, h, _ => by
    rw [List.mem_cons, not_or] at h
    have hd : d ≠ '\n' := fun he => h.2 (he ▸ List.mem_cons_self)
    rw [lineChars, lineChars_of_unbroken h.2 (List.cons_ne_nil d cs)]
    · exact fun he => h.1 he.symm
    · exact fun rest _ he => hd (List.cons.inj he).1

/-- In front of its first line feed, a text has its first line. -/
theorem lineChars_append_feed (rest : List Char) : ∀ {cs : List Char}, '\n' ∉ cs →
    lineChars (cs ++ '\n' :: rest) = dropReturn cs :: lineChars rest
  | [], _ => rfl
  | c :: cs, h => by
    rw [List.mem_cons, not_or] at h
    by_cases hreturn : c = '\r' ∧ cs = []
    · obtain ⟨rfl, rfl⟩ := hreturn
      rfl
    · rw [dropReturn_cons fun hc hcs => hreturn ⟨hc, hcs⟩, List.cons_append, lineChars, lineChars_append_feed rest h.2]
      · exact fun he => h.1 he.symm
      · rintro rest' rfl he
        cases cs with
        | nil => exact hreturn ⟨rfl, rfl⟩
        | cons d cs => exact h.2 ((List.cons.inj he).1 ▸ List.mem_cons_self)

/-- A line without line feeds and carriage returns is the first of a text that begins with it and a line feed. -/
theorem lineChars_append {cs : List Char} (hfeed : '\n' ∉ cs) (hreturn : '\r' ∉ cs) (rest : List Char) :
    lineChars (cs ++ '\n' :: rest) = cs :: lineChars rest := by
  rw [lineChars_append_feed rest hfeed]
  rcases dropReturn_cases cs with h | h
  · rw [h]
  · exact absurd (h ▸ List.mem_append_right _ List.mem_cons_self) hreturn

/-- What holds of texts without line feeds, and with a text holds of the text with a line in front, holds of all texts. -/
theorem feedInduction {P : List Char → Prop} (hline : ∀ cs, '\n' ∉ cs → P cs)
    (hfeed : ∀ cs rest, '\n' ∉ cs → P rest → P (cs ++ '\n' :: rest)) (cs : List Char) : P cs := by
  by_cases h : '\n' ∈ cs
  · obtain ⟨front, rest, heq, hfront⟩ := List.eq_append_cons_of_mem h
    have hshorter : rest.length < cs.length := by
      rw [heq, List.length_append, List.length_cons]
      omega
    exact heq ▸ hfeed front rest hfront (feedInduction hline hfeed rest)
  · exact hline cs h
termination_by cs.length

/-- No line has a line feed. -/
theorem unbroken_of_mem_lineChars {cs line : List Char} (h : line ∈ lineChars cs) : '\n' ∉ line := by
  induction cs using feedInduction with
  | hline cs hcs =>
    cases cs with
    | nil => cases h
    | cons c cs =>
      rw [lineChars_of_unbroken hcs (List.cons_ne_nil c cs), List.mem_singleton] at h
      exact h ▸ hcs
  | hfeed cs rest hcs ih =>
    rw [lineChars_append_feed rest hcs, List.mem_cons] at h
    rcases h with rfl | h
    · refine fun hmem => hcs ?_
      rcases dropReturn_cases cs with heq | heq
      · exact heq ▸ hmem
      · exact heq ▸ List.mem_append_left _ hmem
    · exact ih h

/-! ## Blanks around a line -/

theorem dropBlankEnd_append_blank {c : Char} (hc : isBlank c = true) : ∀ cs : List Char,
    dropBlankEnd (cs ++ [c]) = dropBlankEnd cs
  | [] => by simp [dropBlankEnd, hc]
  | d :: cs => by rw [List.cons_append, dropBlankEnd, dropBlankEnd_append_blank hc cs, dropBlankEnd]

/-- A character that is no blank stays, and so does what is in front of it. -/
theorem dropBlankEnd_cons {c : Char} (hc : isBlank c = false) (cs : List Char) :
    dropBlankEnd (c :: cs) = c :: dropBlankEnd cs := by
  rw [dropBlankEnd]
  cases dropBlankEnd cs with
  | nil => simp [hc]
  | cons d ds => rfl

theorem dropBlankEnd_append {c : Char} (hc : isBlank c = false) : ∀ cs : List Char, dropBlankEnd (cs ++ [c]) = cs ++ [c]
  | [] => dropBlankEnd_cons hc []
  | d :: cs => by
    rw [List.cons_append, dropBlankEnd, dropBlankEnd_append hc cs]
    cases cs <;> rfl

theorem mem_of_mem_dropBlankEnd {c : Char} : ∀ {cs : List Char}, c ∈ dropBlankEnd cs → c ∈ cs
  | [], h => h
  | d :: cs, h => by
    rw [dropBlankEnd] at h
    split at h
    · split at h
      · cases h
      · exact List.mem_cons.2 (.inl (List.mem_singleton.1 h))
    · exact (List.mem_cons.1 h).elim (fun h => h ▸ List.mem_cons_self)
        fun h => List.mem_cons_of_mem _ (mem_of_mem_dropBlankEnd h)

/-- The text begins with a character that is no blank. -/
def Flush (s : String) : Prop := s.toList.head?.any (fun c => !isBlank c) = true

instance (s : String) : Decidable (Flush s) := inferInstanceAs (Decidable (_ = true))

theorem Flush.cons {s : String} (h : Flush s) : ∃ c cs, s.toList = c :: cs ∧ isBlank c = false := by
  obtain ⟨c, hhead, hc⟩ := (Option.any_eq_true _ _).1 h
  obtain ⟨cs, hs⟩ := List.head?_eq_some_iff.1 hhead
  exact ⟨c, cs, hs, by simpa using hc⟩

theorem Flush.append {s : String} (h : Flush s) (t : String) : Flush (s ++ t) := by
  obtain ⟨c, cs, hs, hc⟩ := h.cons
  simp [Flush, String.toList_append, hs, hc]

/-- A text without blanks at its ends. -/
theorem trim_of_flush {s last : String} (hs : Flush s) (hlast : last.toList.getLast?.any (fun c => !isBlank c) = true) :
    trim (s ++ last) = s ++ last := by
  obtain ⟨c, cs, hcs, hc⟩ := (hs.append last).cons
  obtain ⟨d, hend, hd⟩ := (Option.any_eq_true _ _).1 hlast
  obtain ⟨front, hfront⟩ := List.getLast?_eq_some_iff.1 hend
  have hwhole : (s ++ last).toList = (s.toList ++ front) ++ [d] := by
    rw [String.toList_append, hfront, List.append_assoc]
  have hstart : (s ++ last).toList.dropWhile isBlank = (s ++ last).toList := by
    rw [hcs, List.dropWhile_cons_of_neg (by simp [hc])]
  rw [trim, hstart, hwhole, dropBlankEnd_append (by simpa using hd), ← hwhole, String.ofList_toList]

/-- Blanks in front of a text and a carriage return behind it do not count. -/
theorem trim_indent (s : String) : trim ("  " ++ s) = trim s := by
  have hblank : isBlank ' ' = true := by decide
  simp [trim, String.toList_append, hblank]

theorem trim_dropReturn (cs : List Char) : trim (String.ofList (dropReturn cs)) = trim (String.ofList cs) := by
  have hblank : isBlank '\r' = true := by decide
  rcases dropReturn_cases cs with h | h
  · rw [h]
  · conv_rhs => rw [h]
    rw [trim, trim, String.toList_ofList, String.toList_ofList, List.dropWhile_append]
    split
    · next hempty =>
      rw [List.isEmpty_iff.1 hempty]
      simp [hblank]
    · rw [dropBlankEnd_append_blank hblank]

end ContractBindings.Text
