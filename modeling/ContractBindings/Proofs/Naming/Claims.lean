import ContractBindings.Proofs.Naming.Capital
import ContractBindings.Proofs.Naming.Fresh

/-!
# Sequences of claims

The names that a sequence of claims is given have snake forms that differ from each other and from those taken before
(`claimAll_forms`). Each is the one that was asked for, or that one with a number behind it (`claimAll_given`), and for every
name that was asked for there is one of its snake form (`exists_form_of_asked`).

What a claim hands out depends on the snake forms that are taken and on nothing else (`HandsOut`): the base where its form is
free, and else the base with the least number from two on that makes the form free. Such a number is found among one more
numbers than there are taken forms (`freeNumber_le`), so every claim comes to an end, and there is one answer to it
(`HandsOut.unique`, `claim_eq_iff`). In a sequence of claims every name is handed out after the reserved names and those
handed out before it, and no two of all these have one snake form (`claimAll_unique`).
-/

namespace ContractBindings.Naming.Registry

variable {r : Registry} {base name : String}

/-- A name is given to one who asked for a base: the base itself, or with a number from two on. -/
def Given (base name : String) : Prop := name = base ∨ ∃ k, 2 ≤ k ∧ name = numbered base k

theorem given_claim (r : Registry) (base : String) : Given base (r.claim base).1 := by
  rw [claim]
  unfold nameFor
  split
  · exact .inl rfl
  · exact .inr ⟨_, (r.freeNumber_least base).1, rfl⟩

theorem Given.capitalized (h : Given base name) (hbase : Capitalized base) : Capitalized name := by
  rcases h with rfl | ⟨k, -, rfl⟩
  · exact hbase
  · exact (hbase.append _).append _

/-- Where the snake form of a base is free, the base is given. -/
theorem claim_of_free (h : snakeCase base ∉ r.taken) : (r.claim base).1 = base := by
  rw [claim]
  unfold nameFor
  rw [if_pos (isFree_iff.2 h)]

theorem claimAll_nil (r : Registry) : r.claimAll [] = ([], r) := rfl

theorem claimAll_cons (r : Registry) (base : String) (bases : List String) :
    r.claimAll (base :: bases) =
      ((r.claim base).1 :: ((r.claim base).2.claimAll bases).1, ((r.claim base).2.claimAll bases).2) := rfl

theorem cons_eq_claimAll {names bases : List String} {last : Registry}
    (h : (names, last) = (r.claim base).2.claimAll bases) :
    ((r.claim base).1 :: names, last) = r.claimAll (base :: bases) := by
  rw [claimAll_cons, ← h]

theorem claimAll_append (bases more : List String) : ∀ r : Registry, r.claimAll (bases ++ more) =
    ((r.claimAll bases).1 ++ ((r.claimAll bases).2.claimAll more).1, ((r.claimAll bases).2.claimAll more).2) := by
  induction bases with
  | nil => exact fun r => rfl
  | cons base bases ih =>
    intro r
    rw [List.cons_append, claimAll_cons, ih, claimAll_cons]
    rfl

/-- The snake forms of given names are new, and differ. -/
theorem claimAll_forms (bases : List String) : ∀ r : Registry, ((r.claimAll bases).1.map snakeCase).Nodup ∧
    ∀ name ∈ (r.claimAll bases).1, snakeCase name ∉ r.taken := by
  induction bases with
  | nil => exact fun r => ⟨List.nodup_nil, by simp [claimAll_nil]⟩
  | cons base bases ih =>
    intro r
    obtain ⟨hnodup, hnew⟩ := ih (r.claim base).2
    rw [claimAll_cons]
    refine ⟨List.nodup_cons.2 ⟨fun hmem => ?_, hnodup⟩, fun name hname => ?_⟩
    · obtain ⟨name, hname, hform⟩ := List.mem_map.1 hmem
      exact hnew name hname (hform ▸ (r.between_claim base).2)
    · rcases List.mem_cons.1 hname with rfl | hname
      · exact r.claim_fresh base
      · exact fun htaken => hnew name hname (r.le_claim base htaken)

theorem claimAll_nodup (r : Registry) (bases : List String) : (r.claimAll bases).1.Nodup :=
  (claimAll_forms bases r).1.of_map

/-- Every name is given to the base at its place. -/
theorem claimAll_given (bases : List String) : ∀ r : Registry, List.Forall₂ Given bases (r.claimAll bases).1 := by
  induction bases with
  | nil => exact fun r => .nil
  | cons base bases ih => exact fun r => .cons (r.given_claim base) (ih _)

/-- A given name was given to one who asked. -/
theorem exists_asked {bases : List String} (h : name ∈ (r.claimAll bases).1) : ∃ base ∈ bases, Given base name := by
  induction bases generalizing r with
  | nil => cases h
  | cons base bases ih =>
    rcases List.mem_cons.1 h with rfl | h
    · exact ⟨base, List.mem_cons_self, r.given_claim base⟩
    · obtain ⟨asked, hasked, hgiven⟩ := ih h
      exact ⟨asked, List.mem_cons_of_mem _ hasked, hgiven⟩

/-- The snake form of a base is taken before, or that of a name that is given. -/
theorem exists_form_of_asked {bases : List String} (h : base ∈ bases) :
    snakeCase base ∈ r.taken ∨ ∃ name ∈ (r.claimAll bases).1, snakeCase name = snakeCase base := by
  induction bases generalizing r with
  | nil => cases h
  | cons first bases ih =>
    rw [claimAll_cons]
    rcases List.mem_cons.1 h with rfl | h
    · by_cases hfree : snakeCase base ∈ r.taken
      · exact .inl hfree
      · exact .inr ⟨_, List.mem_cons_self, by rw [claim_of_free hfree]⟩
    · rcases ih h (r := (r.claim first).2) with htaken | ⟨name, hname, hform⟩
      · rcases List.mem_cons.1 htaken with hform | htaken
        · exact .inr ⟨_, List.mem_cons_self, hform.symm⟩
        · exact .inl htaken
      · exact .inr ⟨name, List.mem_cons_of_mem _ hname, hform⟩

/-! ## What a claim hands out -/

variable {taken : List String}

/-- While these snake forms are taken, one who claims a base is handed out a name. -/
inductive HandsOut (taken : List String) (base : String) : String → Prop
  /-- The base itself is free. -/
  | asked (free : snakeCase base ∉ taken) : HandsOut taken base base
  /-- The base and all numbers before this one are taken, of which there are no more than taken forms. -/
  | numbered (k : Nat) (clash : snakeCase base ∈ taken) (two : 2 ≤ k) (bound : k ≤ taken.length + 2)
      (earlier : ∀ j, 2 ≤ j → j < k → snakeCase (numbered base j) ∈ taken)
      (free : snakeCase (numbered base k) ∉ taken) : HandsOut taken base (numbered base k)

namespace HandsOut

theorem free (h : HandsOut taken base name) : snakeCase name ∉ taken := by
  cases h with
  | asked free => exact free
  | numbered k _ _ _ _ free => exact free

/-- Only one name can be handed out. -/
theorem unique {other : String} (h : HandsOut taken base name) (h' : HandsOut taken base other) : name = other := by
  cases h with
  | asked free =>
    cases h' with
    | asked => rfl
    | numbered _ clash => exact absurd clash free
  | numbered k clash two _ earlier free =>
    cases h' with
    | asked free => exact absurd clash free
    | numbered j _ two' _ earlier' free' =>
      -- a number less than the other one would be taken
      have hk : ¬ k < j := fun hlt => free (earlier' k two hlt)
      have hj : ¬ j < k := fun hlt => free' (earlier j two' hlt)
      rw [Nat.le_antisymm (Nat.not_lt.1 hj) (Nat.not_lt.1 hk)]

end HandsOut

/-- The number of a name is found among one more numbers than there are taken forms. -/
theorem freeNumber_le (r : Registry) (base : String) : r.freeNumber base ≤ r.taken.length + 2 := by
  obtain ⟨k, hk, hfree⟩ := r.exists_free_number base
  obtain ⟨htwo, hlt⟩ := List.mem_range'_1.1 hk
  have hle : ¬ k < r.freeNumber base := by
    intro hless
    have hclash := (r.freeNumber_least base).2.2 k htwo hless
    rw [hclash] at hfree
    cases hfree
  omega

theorem not_isFree_iff : r.isFree name = false ↔ snakeCase name ∈ r.taken := by
  rw [← Bool.not_eq_true, isFree_iff, not_not]

/-- What a claim hands out. -/
theorem claim_handsOut (r : Registry) (base : String) : HandsOut r.taken base (r.claim base).1 := by
  rw [claim]
  unfold nameFor
  by_cases hfree : r.isFree base = true
  · rw [if_pos hfree]
    exact .asked (isFree_iff.1 hfree)
  · rw [if_neg hfree]
    have hclash : snakeCase base ∈ r.taken := not_isFree_iff.1 (Bool.not_eq_true _ ▸ hfree)
    obtain ⟨htwo, hfresh, hleast⟩ := r.freeNumber_least base
    refine .numbered _ hclash htwo (r.freeNumber_le base) ?_ (isFree_iff.1 hfresh)
    exact fun j hj hlt => not_isFree_iff.1 (hleast j hj hlt)

/-- A claim hands out the one name that can be. -/
theorem claim_eq_iff : (r.claim base).1 = name ↔ HandsOut r.taken base name := by
  constructor
  · rintro rfl
    exact r.claim_handsOut base
  · exact (r.claim_handsOut base).unique

/-! ## Sequences of claims -/

/-- After a sequence of claims the forms of the given names are taken, the latest first, and those taken before. -/
theorem taken_claimAll (bases : List String) : ∀ r : Registry,
    (r.claimAll bases).2.taken = ((r.claimAll bases).1.map snakeCase).reverse ++ r.taken := by
  induction bases with
  | nil => exact fun r => rfl
  | cons base bases ih =>
    intro r
    rw [claimAll_cons, ih, List.map_cons, List.reverse_cons, List.append_assoc]
    rfl

theorem length_claimAll (bases : List String) (r : Registry) : (r.claimAll bases).1.length = bases.length :=
  (claimAll_given bases r).length_eq.symm

/-- Every claim of a sequence is answered after the claims before it. -/
theorem claimAll_handsOut (before : List String) (base : String) (after : List String) (r : Registry) :
    ∃ name rest, (r.claimAll (before ++ base :: after)).1 = (r.claimAll before).1 ++ name :: rest ∧
      HandsOut (((r.claimAll before).1.map snakeCase).reverse ++ r.taken) base name := by
  refine ⟨((r.claimAll before).2.claim base).1, (((r.claimAll before).2.claim base).2.claimAll after).1, ?_, ?_⟩
  · rw [claimAll_append, claimAll_cons]
  · rw [← taken_claimAll]
    exact claim_handsOut _ base

/-- Names are handed out once: over all sequences of claims after any reserved names, there is a name for every claim, the
snake forms of the names differ from each other and from those of the reserved names, and each claim, made after those before
it, is handed out the base if its form is free, and else the base with the least number from two on that makes the form free,
which is found in at most one more tries than there are names. -/
theorem claimAll_unique (reserved bases : List String) :
    let names := ((reserving reserved).claimAll bases).1
    names.length = bases.length ∧
    (names.map snakeCase).Nodup ∧
    (names.map snakeCase).Disjoint (reserved.map snakeCase) ∧
    ∀ before base after, bases = before ++ base :: after → ∃ name rest,
      names = ((reserving reserved).claimAll before).1 ++ name :: rest ∧
      HandsOut ((((reserving reserved).claimAll before).1.map snakeCase).reverse ++ reserved.map snakeCase) base name := by
  dsimp only
  obtain ⟨hnodup, hnew⟩ := claimAll_forms bases (reserving reserved)
  refine ⟨length_claimAll bases _, hnodup, ?_, ?_⟩
  · intro form hform hreserved
    obtain ⟨name, hname, rfl⟩ := List.mem_map.1 hform
    exact hnew name hname hreserved
  · rintro before base after rfl
    exact claimAll_handsOut before base after (reserving reserved)

end ContractBindings.Naming.Registry
