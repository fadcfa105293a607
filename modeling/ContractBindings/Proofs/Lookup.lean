import ContractBindings.Schema.Composition

/-!
# Lookup in lists of pairs

Tables are lists of pairs with the first entry of a key counting. `lookup` finds an entry of the list, and any entry
where the keys differ; `upsert` puts a value under a key and keeps the other entries, the order of the keys and that
they differ. Of entries that are put in order, the keys stand in the order of their first (`keys_foldl_upsert`), each with
the last value that it was given (`getLast?_filter_of_mem_foldl_upsert`).
-/

namespace ContractBindings

variable {α κ : Type} [BEq κ] [LawfulBEq κ]

/-- What is in the entries that are read, and in none if there are none, is in them. -/
theorem exists_of_mem_getD {o : Option (List α)} {x : α} (h : x ∈ o.getD []) : ∃ l, o = some l ∧ x ∈ l := by
  cases o with
  | none => cases h
  | some l => exact ⟨l, rfl, h⟩

theorem mem_of_lookup {k : κ} {v : α} : ∀ {l : List (κ × α)}, l.lookup k = some v → (k, v) ∈ l
  | [], h => by cases h
  | (k', v') :: l, h => by
    rw [List.lookup_cons] at h
    split at h
    · next hk =>
      obtain rfl : k = k' := by simpa using hk
      obtain rfl : v' = v := by simpa using h
      exact List.mem_cons_self
    · exact List.mem_cons_of_mem _ (mem_of_lookup h)

theorem lookup_isSome_iff {k : κ} : ∀ {l : List (κ × α)}, (l.lookup k).isSome = true ↔ k ∈ l.map (·.1)
  | [] => by simp
  | (k', v') :: l => by
    rw [List.lookup_cons, List.map_cons, List.mem_cons, ← lookup_isSome_iff (l := l)]
    by_cases hk : k = k'
    · simp [hk]
    · have hb : (k == k') = false := by simpa using hk
      simp only [hb, hk, false_or]

theorem lookup_eq_none_iff {k : κ} {l : List (κ × α)} : l.lookup k = none ↔ k ∉ l.map (·.1) := by
  rw [← lookup_isSome_iff, Bool.not_eq_true, Option.isSome_eq_false_iff, Option.isNone_iff_eq_none]

/-- Where the keys differ, every entry is found. -/
theorem lookup_of_mem {k : κ} {v : α} : ∀ {l : List (κ × α)}, (l.map (·.1)).Nodup → (k, v) ∈ l → l.lookup k = some v
  | (k', v') :: l, hn, h => by
    rw [List.map_cons, List.nodup_cons] at hn
    rw [List.lookup_cons]
    rcases List.mem_cons.mp h with h | h
    · cases h
      simp
    · have hne : k ≠ k' := fun he => hn.1 (he ▸ List.mem_map.2 ⟨(k, v), h, rfl⟩)
      have hb : (k == k') = false := by simpa using hne
      simp only [hb]
      exact lookup_of_mem hn.2 h

/-- In a table of items under their keys, the first item of a key is found. -/
theorem lookup_map_key {ι : Type} (key : ι → κ) (f : ι → α) (k : κ) : ∀ items : List ι,
    (items.map fun i => (key i, f i)).lookup k = (items.find? fun i => key i == k).map f
  | [] => rfl
  | i :: rest => by
    have ih := lookup_map_key key f k rest
    rw [List.map_cons, List.lookup_cons, List.find?_cons, ih, BEq.comm]
    cases key i == k <;> rfl

/-! ## Putting a value under a key -/

theorem lookup_upsert_self {k : κ} {v : α} : ∀ l : List (κ × α), (upsert l k v).lookup k = some v
  | [] => by simp [upsert]
  | (k', v') :: l => by
    have ih := @lookup_upsert_self k v l
    rw [upsert]
    by_cases h : k' = k
    · simp [h]
    · have hb : (k' == k) = false := by simpa using h
      have hb' : (k == k') = false := by simpa using fun h' => h h'.symm
      simp [hb, hb', ih, List.lookup_cons]

theorem lookup_upsert_of_ne {k x : κ} {v : α} (hx : x ≠ k) :
    ∀ l : List (κ × α), (upsert l k v).lookup x = l.lookup x
  | [] => by
    have hb : (x == k) = false := by simpa using hx
    rw [upsert, List.lookup_cons, hb]
  | (k', v') :: l => by
    have ih := lookup_upsert_of_ne (v := v) hx l
    rw [upsert]
    by_cases h : k' = k
    · have hb : (x == k') = false := by simpa [h] using hx
      simp [h, List.lookup_cons, h ▸ hb]
    · have hb : (k' == k) = false := by simpa using h
      rw [hb]
      simp only [Bool.false_eq_true, ↓reduceIte, List.lookup_cons, ih]

theorem mem_keys_upsert {k x : κ} {v : α} : ∀ l : List (κ × α), x ∈ (upsert l k v).map (·.1) ↔ x ∈ l.map (·.1) ∨ x = k
  | [] => by simp [upsert]
  | (k', v') :: l => by
    have ih := @mem_keys_upsert k x v l
    rw [upsert]
    by_cases h : k' = k
    · rw [h]
      simp only [BEq.rfl, ↓reduceIte, List.map_cons, List.mem_cons]
      exact ⟨fun hx => .inl hx, fun hx => hx.elim id .inl⟩
    · have hb : (k' == k) = false := by simpa using h
      rw [hb]
      simp only [Bool.false_eq_true, ↓reduceIte, List.map_cons, List.mem_cons, ih, or_assoc]

theorem nodup_upsert {k : κ} {v : α} : ∀ {l : List (κ × α)}, (l.map (·.1)).Nodup → ((upsert l k v).map (·.1)).Nodup
  | [], _ => by simp [upsert]
  | (k', v') :: l, h => by
    rw [List.map_cons, List.nodup_cons] at h
    rw [upsert]
    by_cases hk : k' = k
    · rw [hk] at h ⊢
      rw [BEq.rfl]
      exact List.nodup_cons.2 h
    · have hb : (k' == k) = false := by simpa using hk
      rw [hb]
      simp only [Bool.false_eq_true, ↓reduceIte, List.map_cons, List.nodup_cons, mem_keys_upsert, not_or]
      exact ⟨⟨h.1, hk⟩, nodup_upsert h.2⟩

/-- A value is put under a key after the entries of other keys. -/
theorem upsert_append_of_not_mem {k : κ} {v : α} {l' : List (κ × α)} : ∀ {l : List (κ × α)}, k ∉ l.map (·.1) →
    upsert (l ++ l') k v = l ++ upsert l' k v
  | [], _ => rfl
  | p :: l, h => by
    rw [List.map_cons, List.mem_cons, not_or] at h
    have hb : (p.1 == k) = false := by simpa using fun he => h.1 he.symm
    rw [List.cons_append, upsert, hb, upsert_append_of_not_mem h.2]
    rfl

theorem upsert_of_not_mem {k : κ} {v : α} {l : List (κ × α)} (h : k ∉ l.map (·.1)) : upsert l k v = l ++ [(k, v)] := by
  have happend : upsert (l ++ []) k v = l ++ [(k, v)] := upsert_append_of_not_mem h
  rwa [List.append_nil] at happend

/-- An entry after a value was put under a key is the new one or was there before. -/
theorem eq_or_mem_of_mem_upsert {k : κ} {v : α} {p : κ × α} : ∀ {l : List (κ × α)}, p ∈ upsert l k v →
    p = (k, v) ∨ p ∈ l
  | [], h => .inl (List.mem_singleton.1 h)
  | (k', v') :: l, h => by
    rw [upsert] at h
    by_cases hk : k' = k
    · rw [hk, BEq.rfl, if_pos rfl] at h
      rcases List.mem_cons.1 h with h | h
      · exact .inl h
      · exact .inr (List.mem_cons_of_mem _ h)
    · have hb : (k' == k) = false := by simpa using hk
      rw [hb] at h
      rcases List.mem_cons.1 h with h | h
      · exact .inr (h ▸ List.mem_cons_self)
      · exact (eq_or_mem_of_mem_upsert h).imp_right (List.mem_cons_of_mem _)

/-- The entries after a value was put under a key: the new one and, where keys differ, those of other keys. -/
theorem mem_upsert {k : κ} {v : α} {p : κ × α} {l : List (κ × α)} (hl : (l.map (·.1)).Nodup) (hp : p ∈ upsert l k v) :
    p = (k, v) ∨ (p ∈ l ∧ p.1 ≠ k) := by
  obtain ⟨x, w⟩ := p
  have hlookup := lookup_of_mem (nodup_upsert hl) hp
  by_cases hx : x = k
  · rw [hx, lookup_upsert_self] at hlookup
    exact .inl (by rw [hx, Option.some.inj hlookup])
  · rw [lookup_upsert_of_ne hx] at hlookup
    exact .inr ⟨mem_of_lookup hlookup, hx⟩

/-- After entries were put under their keys in order, the last entry of a key counts, and else what was there before. -/
theorem lookup_foldl_upsert {k : κ} : ∀ (entries l : List (κ × α)),
    (entries.foldl (fun l e => upsert l e.1 e.2) l).lookup k = (entries.reverse.lookup k).or (l.lookup k)
  | [], l => by simp
  | (k', v) :: entries, l => by
    rw [List.foldl_cons, lookup_foldl_upsert entries, List.reverse_cons, List.lookup_append, Option.or_assoc]
    congr 1
    by_cases hk : k = k'
    · simp [hk, lookup_upsert_self]
    · have hb : (k == k') = false := by simpa using hk
      simp [lookup_upsert_of_ne hk, List.lookup_cons, hb]

/-! ## Entries that are put in order -/

theorem keys_upsert_of_mem {k : κ} {v : α} : ∀ {l : List (κ × α)}, k ∈ l.map (·.1) →
    (upsert l k v).map (·.1) = l.map (·.1)
  | (k', v') :: l, h => by
    rw [upsert]
    by_cases hk : k' = k
    · simp [hk]
    · have hb : (k' == k) = false := by simpa using hk
      have hmem : k ∈ l.map (·.1) := (List.mem_cons.1 h).resolve_left fun he => hk he.symm
      simp [hb, keys_upsert_of_mem hmem]

theorem removeAll_append_singleton (l seen : List κ) (k : κ) :
    l.removeAll (seen ++ [k]) = (l.removeAll seen).filter fun x => !x == k := by
  rw [List.removeAll, List.removeAll, List.filter_filter]
  refine List.filter_congr fun x _ => ?_
  by_cases hx : x = k <;> simp [hx]

/-- After entries were put under their keys in order, a key stands where it was first put. -/
theorem keys_foldl_upsert : ∀ (entries l : List (κ × α)), (entries.foldl (fun l e => upsert l e.1 e.2) l).map (·.1) =
    l.map (·.1) ++ ((entries.map (·.1)).removeAll (l.map (·.1))).eraseDups
  | [], l => by simp
  | (k, v) :: entries, l => by
    rw [List.foldl_cons, keys_foldl_upsert entries, List.map_cons, List.cons_removeAll]
    by_cases hk : k ∈ l.map (·.1)
    · rw [keys_upsert_of_mem hk, if_neg (by simpa using hk)]
    · rw [upsert_of_not_mem hk, List.map_append, if_pos (by simpa using hk), List.eraseDups_cons]
      simp [removeAll_append_singleton]

theorem nodup_foldl_upsert (entries : List (κ × α)) {l : List (κ × α)} (h : (l.map (·.1)).Nodup) :
    ((entries.foldl (fun l e => upsert l e.1 e.2) l).map (·.1)).Nodup := by
  induction entries generalizing l with
  | nil => exact h
  | cons e entries ih => exact ih (nodup_upsert h)

theorem find?_of_lookup {k : κ} {v : α} : ∀ {l : List (κ × α)}, l.lookup k = some v →
    l.find? (fun q => q.1 == k) = some (k, v)
  | (k', v') :: l, h => by
    rw [List.lookup_cons] at h
    by_cases hk : k' = k
    · have hv : v' = v := by simpa [hk] using h
      simp [hk, hv]
    · have hb : (k == k') = false := by simpa using fun he => hk he.symm
      rw [hb] at h
      simp [hk, find?_of_lookup h]

/-- After entries were put under their keys in order, each is the last of its key. -/
theorem getLast?_filter_of_mem_foldl_upsert {entries : List (κ × α)} {q : κ × α}
    (h : q ∈ entries.foldl (fun l e => upsert l e.1 e.2) []) :
    (entries.filter fun p => p.1 == q.1).getLast? = some q := by
  have hlookup := lookup_of_mem (nodup_foldl_upsert entries (l := []) List.nodup_nil) h
  rw [lookup_foldl_upsert, List.lookup_nil, Option.or_none] at hlookup
  rw [List.getLast?_filter]
  exact find?_of_lookup hlookup

end ContractBindings
