import ContractBindings.Schema.Basic

/-!
# Places of schema nodes

The identity of a node is its place, so identities are ordered like paths: `Below` is the order, `Within` allows
equality. A segment is written without a slash and can be read back (`unescapeChars_escapeChars`), so what stands under
different segments stands apart (`apart_child`). The component schemas are the places directly under one pointer
(`IsComponent`): nothing below one of them is another, and nothing is below two of them.
-/

namespace ContractBindings

/-! ## Written segments -/

namespace Pointer

/-- A segment is read back from its written form. -/
theorem unescapeChars_escapeChars : ∀ cs : List Char, unescapeChars (escapeChars cs) = cs
  | [] => rfl
  | c :: cs => by
    have ih := unescapeChars_escapeChars cs
    by_cases ht : c = '~'
    · rw [ht, escapeChars, unescapeChars, ih]
    · by_cases hs : c = '/'
      · rw [hs, escapeChars, unescapeChars, ih]
      · simp [escapeChars, unescapeChars, ht, ih]

/-- A written segment holds no slash. -/
theorem slash_not_mem_escapeChars : ∀ cs : List Char, '/' ∉ escapeChars cs
  | [] => by simp [escapeChars]
  | c :: cs => by
    have ih := slash_not_mem_escapeChars cs
    by_cases ht : c = '~'
    · simp [ht, escapeChars, ih]
    · by_cases hs : c = '/'
      · simp [hs, escapeChars, ih]
      · have hs' : ¬ '/' = c := fun h => hs h.symm
        simp [escapeChars, hs', ih]

/-- What precedes the first slash. -/
theorem takeWhile_segment {seg rest : List Char} (hseg : '/' ∉ seg) (hrest : rest = [] ∨ ∃ t, rest = '/' :: t) :
    (seg ++ rest).takeWhile (· != '/') = seg := by
  have hall : ∀ c ∈ seg, (c != '/') = true := by
    intro c hc
    have hne : c ≠ '/' := fun h => hseg (h ▸ hc)
    simpa using hne
  rw [List.takeWhile_append_of_pos hall]
  rcases hrest with rfl | ⟨t, rfl⟩ <;> simp

/-! ## Parts between slashes -/

theorem splitSlash_ne_nil (cs : List Char) : splitSlash cs ≠ [] := by
  cases cs with
  | nil => simp [splitSlash]
  | cons c cs =>
    rw [splitSlash]
    split
    · simp
    · split <;> simp

theorem splitSlash_of_not_mem {cs : List Char} (h : '/' ∉ cs) : splitSlash cs = [cs] := by
  induction cs with
  | nil => rfl
  | cons c cs ih =>
    rw [List.mem_cons, not_or] at h
    obtain ⟨hc, hcs⟩ := h
    have hne : (c == '/') = false := by simpa using Ne.symm hc
    simp [splitSlash, hne, ih hcs]

/-- A slash parts what stands before it from what stands behind it. -/
theorem splitSlash_append_slash (cs rest : List Char) :
    splitSlash (cs ++ '/' :: rest) = splitSlash cs ++ splitSlash rest := by
  induction cs with
  | nil => rfl
  | cons c cs ih =>
    rw [List.cons_append, splitSlash, splitSlash, ih]
    by_cases hc : (c == '/') = true
    · simp [hc]
    · rw [if_neg hc, if_neg hc]
      cases hparts : splitSlash cs with
      | nil => exact absurd hparts (splitSlash_ne_nil cs)
      | cons part parts => rfl

end Pointer

namespace SchemaId

variable {id a b x y : SchemaId}

/-! ## The order of places -/

theorem ext_toList (h : a.pointer.toList = b.pointer.toList) : a = b := by
  obtain ⟨p⟩ := a
  obtain ⟨q⟩ := b
  exact congrArg SchemaId.mk (String.toList_inj.1 h)

/-- The second place is deeper in the document than the first, on the same way. -/
def Below (a x : SchemaId) : Prop := ∃ t, x.pointer.toList = a.pointer.toList ++ '/' :: t

/-- The second place is the first or below it. -/
def Within (a x : SchemaId) : Prop := x = a ∨ Below a x

theorem Below.within (h : Below a x) : Within a x := .inr h

theorem Below.trans_within (h : Below a x) (h' : Within x y) : Below a y := by
  rcases h' with rfl | ⟨t', ht'⟩
  · exact h
  · obtain ⟨t, ht⟩ := h
    exact ⟨t ++ '/' :: t', by rw [ht', ht, List.append_assoc, List.cons_append]⟩

theorem Within.trans_below (h : Within a x) (h' : Below x y) : Below a y := by
  rcases h with rfl | h
  · exact h'
  · exact h.trans_within h'.within

theorem Within.trans (h : Within a x) (h' : Within x y) : Within a y := by
  rcases h with rfl | h
  · exact h'
  · exact (h.trans_within h').within

/-- Of two places with a common place below, one is within the other. -/
theorem Below.within_or_within (ha : Below a x) (hb : Below b x) : Within a b ∨ Within b a := by
  obtain ⟨t, ht⟩ := ha
  obtain ⟨u, hu⟩ := hb
  have hwithin {a b : SchemaId} {t u rest : List Char} (hsplit : b.pointer.toList = a.pointer.toList ++ rest)
      (hrest : '/' :: t = rest ++ '/' :: u) : Within a b := by
    cases rest with
    | nil => exact .inl (ext_toList (by rw [hsplit, List.append_nil]))
    | cons c rest =>
      obtain ⟨rfl, -⟩ := List.cons.inj hrest
      exact .inr ⟨rest, hsplit⟩
  rcases List.append_eq_append_iff.1 (ht.symm.trans hu) with ⟨rest, hsplit, hrest⟩ | ⟨rest, hsplit, hrest⟩
  · exact .inl (hwithin hsplit hrest)
  · exact .inr (hwithin hsplit hrest)

theorem not_below_self (a : SchemaId) : ¬ Below a a := by
  rintro ⟨t, ht⟩
  have := congrArg List.length ht
  simp at this

theorem child_toList (id : SchemaId) (segment : String) :
    (id.child segment).pointer.toList = id.pointer.toList ++ '/' :: Pointer.escapeChars segment.toList := by
  have hslash : ("/" : String).toList = ['/'] := rfl
  simp [child, Pointer.child, Pointer.escape, String.toList_append, hslash]

theorem below_child (id : SchemaId) (segment : String) : Below id (id.child segment) := ⟨_, child_toList id segment⟩

/-! ## Places apart -/

/-- Nothing is within both places. -/
def Apart (a b : SchemaId) : Prop := ∀ x, Within a x → ¬ Within b x

theorem Apart.within (h : Apart a b) (hx : Within a x) (hy : Within b y) : Apart x y :=
  fun z hz hz' => h z (hx.trans hz) (hy.trans hz')

/-- What is within a child, written out. -/
theorem within_child {segment : String} (h : Within (id.child segment) x) :
    ∃ rest, (rest = [] ∨ ∃ t, rest = '/' :: t) ∧
      x.pointer.toList = id.pointer.toList ++ '/' :: (Pointer.escapeChars segment.toList ++ rest) := by
  rcases h with rfl | ⟨t, ht⟩
  · exact ⟨[], .inl rfl, by rw [child_toList, List.append_nil]⟩
  · exact ⟨'/' :: t, .inr ⟨t, rfl⟩, by rw [ht, child_toList, List.append_assoc, List.cons_append]⟩

/-- Children under different segments stand apart. -/
theorem apart_child {s t : String} (h : s ≠ t) : Apart (id.child s) (id.child t) := by
  intro x hs ht
  obtain ⟨rest, hrest, hx⟩ := within_child hs
  obtain ⟨rest', hrest', hx'⟩ := within_child ht
  have heq := (List.cons.inj (List.append_cancel_left (hx.symm.trans hx'))).2
  have hseg := congrArg (List.takeWhile (· != '/')) heq
  rw [Pointer.takeWhile_segment (Pointer.slash_not_mem_escapeChars _) hrest,
    Pointer.takeWhile_segment (Pointer.slash_not_mem_escapeChars _) hrest'] at hseg
  have := congrArg Pointer.unescapeChars hseg
  rw [Pointer.unescapeChars_escapeChars, Pointer.unescapeChars_escapeChars] at this
  exact h (String.toList_inj.1 this)

/-! ## Component schemas -/

/-- The place of a component schema: an entry under `#/components/schemas`. -/
def IsComponent (id : SchemaId) : Prop :=
  ∃ seg : List Char, '/' ∉ seg ∧ id.pointer.toList = "#/components/schemas/".toList ++ seg

theorem toList_components : "#/components/schemas/".toList = "#/components/schemas".toList ++ ['/'] := rfl

theorem isComponent_child (name : String) : IsComponent (SchemaId.child ⟨"#/components/schemas"⟩ name) := by
  refine ⟨Pointer.escapeChars name.toList, Pointer.slash_not_mem_escapeChars _, ?_⟩
  rw [child_toList, toList_components, List.append_assoc, List.singleton_append]

/-- Nothing is below two component schemas. -/
theorem IsComponent.eq_of_below (ha : IsComponent a) (hb : IsComponent b) (hax : Below a x) (hbx : Below b x) :
    a = b := by
  obtain ⟨s, hs, hsa⟩ := ha
  obtain ⟨t, ht, htb⟩ := hb
  obtain ⟨u, hu⟩ := hax
  obtain ⟨v, hv⟩ := hbx
  rw [hsa, List.append_assoc] at hu
  rw [htb, List.append_assoc] at hv
  have hseg := congrArg (List.takeWhile (· != '/')) (List.append_cancel_left (hu.symm.trans hv))
  rw [Pointer.takeWhile_segment hs (.inr ⟨u, rfl⟩), Pointer.takeWhile_segment ht (.inr ⟨v, rfl⟩)] at hseg
  exact ext_toList (by rw [hsa, htb, hseg])

/-- Nothing below a component schema is one. -/
theorem IsComponent.not_of_below (ha : IsComponent a) (hax : Below a x) : ¬ IsComponent x := by
  rintro ⟨t, ht, htx⟩
  obtain ⟨s, hs, hsa⟩ := ha
  obtain ⟨u, hu⟩ := hax
  rw [hsa, htx, List.append_assoc] at hu
  exact ht (List.append_cancel_left hu ▸ by simp)

/-- No component schema stands below a place under the key of an operation's schema. -/
theorem IsComponent.not_below_schema (h : IsComponent x) : ¬ Below (a.child "schema") x := by
  rintro ⟨t, ht⟩
  obtain ⟨seg, hseg, hx⟩ := h
  have hkey : Pointer.escapeChars "schema".toList = "schema".toList := rfl
  rw [hx, toList_components, List.append_assoc, List.singleton_append, child_toList, hkey, List.append_assoc,
    List.cons_append] at ht
  have hparts := congrArg Pointer.splitSlash ht
  have hkeyParts : Pointer.splitSlash "schema".toList = ["schema".toList] := rfl
  rw [Pointer.splitSlash_append_slash, Pointer.splitSlash_of_not_mem hseg, Pointer.splitSlash_append_slash,
    Pointer.splitSlash_append_slash, hkeyParts, ← List.append_assoc] at hparts
  have hlast := congrArg List.dropLast hparts
  rw [List.dropLast_concat, List.dropLast_append_of_ne_nil (Pointer.splitSlash_ne_nil t)] at hlast
  have hmem : "schema".toList ∈ Pointer.splitSlash "#/components/schemas".toList := by
    rw [hlast]
    simp
  exact absurd hmem (by decide)

end SchemaId

end ContractBindings
