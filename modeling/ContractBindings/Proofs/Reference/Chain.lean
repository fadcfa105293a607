import Mathlib.Data.List.Perm.Subperm
import Mathlib.Logic.Relation
import ContractBindings.Proofs.Document.Schemas
import ContractBindings.Proofs.Reference.Checked

/-!
# Chains of aliases

A reference starts a chain of texts, each the reference of the alias at the one before (`AliasTo`). The search for the end
of the chain, told without a bound on its steps, is `Chases`; it comes to an end, and `chase` with the bound of the
document gives its answer (`chases_chase`), since the texts passed are different and all but the first occur in the
document.

What becomes of a search is told by the chain alone (`Outcome`): it ends at a node that is no alias, at a text that leaves
the document, at a text without a node, or it comes round. A chain has one of these outcomes only (`Outcome.unique`), so
each answer is given exactly where the chain has its outcome (`chase_eq_iff`). A resolver that served any calls still
answers so (`resolve_after`).
-/

namespace ContractBindings

open Relation (ReflTransGen TransGen)

namespace Reference

/-! ## The search without a bound -/

/-- The search for the end of a chain, given the texts already passed, comes to an answer. -/
inductive Chases (root : Tree) : List String → String → Except UnresolvedCause Resolved → Prop
  | outside {passed : List String} {current : String} : current.toList.head? ≠ some '#' →
      Chases root passed current (.error .outsideDocument)
  | loop {passed : List String} {current : String} : current.toList.head? = some '#' → current ∈ passed →
      Chases root passed current (.error .loop)
  | missing {passed : List String} {current : String} : current.toList.head? = some '#' → current ∉ passed →
      Pointer.lookup? root current = none → Chases root passed current (.error .missing)
  | found {passed : List String} {current : String} {node : Tree} : current.toList.head? = some '#' →
      current ∉ passed → Pointer.lookup? root current = some node → aliasTarget? node = none →
        Chases root passed current (.ok ⟨current, node⟩)
  | next {passed : List String} {current next : String} {node : Tree} {answer : Except UnresolvedCause Resolved} :
      current.toList.head? = some '#' → current ∉ passed → Pointer.lookup? root current = some node →
        aliasTarget? node = some next → Chases root (current :: passed) next answer → Chases root passed current answer

/-- The texts that occur as references in a document. -/
def texts (root : Tree) : List String := (occurrences root "#").map (·.reference)

theorem textOf_of_aliasTarget {node : Tree} {target : String} (h : aliasTarget? node = some target) :
    node.Refers target := by
  obtain ⟨entries, hentries, h⟩ := Option.bind_eq_some_iff.1 h
  obtain ⟨text, htext, h⟩ := Option.bind_eq_some_iff.1 h
  refine ⟨entries, hentries, ?_⟩
  split at h
  · cases h
  · cases h
    exact htext

/-- What an alias refers to occurs in the document. -/
theorem mem_texts {root node : Tree} {pointer target : String} (hnode : Pointer.lookup? root pointer = some node)
    (h : aliasTarget? node = some target) : target ∈ texts root := by
  obtain ⟨o, ho, rfl⟩ := (Tree.shown_of_lookup hnode).occurs (textOf_of_aliasTarget h) "#"
  exact List.mem_map_of_mem ho

/-- The search comes to an end within any number of steps that is not reached by different texts, all but the first of
which occur in the document. -/
theorem chases_chase {root : Tree} (start : String) : ∀ {fuel : Nat} {passed : List String} {current : String},
    passed.Nodup → (∀ text ∈ current :: passed, text = start ∨ text ∈ texts root) →
      chainBound root ≤ passed.length + fuel → Chases root passed current (chase root fuel passed current)
  | 0, passed, current, hn, htexts, hbound => by
    -- the texts passed are different and stand among `start` and the texts of the document
    have hsubset : passed ⊆ start :: texts root := fun text ht => by
      rcases htexts text (List.mem_cons_of_mem current ht) with rfl | ht
      · exact List.mem_cons_self
      · exact List.mem_cons_of_mem _ ht
    have hlength := (hn.subperm hsubset).length_le
    rw [List.length_cons, texts, List.length_map] at hlength
    rw [chainBound] at hbound
    omega
  | fuel + 1, passed, current, hn, htexts, hbound => by
    rw [chase]
    by_cases hhash : current.toList.head? = some '#'
    · rw [if_neg (by simpa using hhash)]
      by_cases hmem : current ∈ passed
      · rw [if_pos (by simpa using hmem)]
        exact .loop hhash hmem
      · rw [if_neg (by simpa using hmem)]
        cases hnode : Pointer.lookup? root current with
        | none => exact .missing hhash hmem hnode
        | some node =>
          dsimp only
          cases halias : aliasTarget? node with
          | none => exact .found hhash hmem hnode halias
          | some next =>
            refine .next hhash hmem hnode halias (chases_chase start (List.nodup_cons.2 ⟨hmem, hn⟩) ?_ ?_)
            · intro text ht
              rcases List.mem_cons.1 ht with rfl | ht
              · exact .inr (mem_texts hnode halias)
              · exact htexts text ht
            · rw [List.length_cons]
              omega
    · rw [if_pos (by simpa using hhash)]
      exact .outside hhash

/-! ## What becomes of a chain -/

/-- At the first pointer stands an alias of the second. -/
def AliasTo (root : Tree) (pointer target : String) : Prop :=
  ∃ node, Pointer.lookup? root pointer = some node ∧ aliasTarget? node = some target

theorem AliasTo.unique {root : Tree} {pointer s t : String} (hs : AliasTo root pointer s) (ht : AliasTo root pointer t) :
    s = t := by
  obtain ⟨node, hnode, hs⟩ := hs
  obtain ⟨node', hnode', ht⟩ := ht
  rw [hnode] at hnode'
  cases hnode'
  exact Option.some.inj (hs.symm.trans ht)

theorem rightUnique_aliasTo (root : Tree) : Relator.RightUnique (AliasTo root) := fun _ _ _ hs ht => hs.unique ht

/-- The chain from a reference ends at a node that is no alias, at a text that leaves the document, or at a text without a
node, or it comes to a text from which it comes back there. -/
def Outcome (root : Tree) (reference : String) : Except UnresolvedCause Resolved → Prop
  | .ok found => ReflTransGen (AliasTo root) reference found.pointer ∧
      Pointer.lookup? root found.pointer = some found.node ∧ aliasTarget? found.node = none
  | .error .outsideDocument => ∃ last, ReflTransGen (AliasTo root) reference last ∧ last.toList.head? ≠ some '#'
  | .error .missing => ∃ last, ReflTransGen (AliasTo root) reference last ∧ last.toList.head? = some '#' ∧
      Pointer.lookup? root last = none
  | .error .loop => ∃ text, ReflTransGen (AliasTo root) reference text ∧ TransGen (AliasTo root) text text

section Outcome

variable {root : Tree} {reference : String}

/-- The answer of a search is the outcome of the chain, if the chain led over the texts passed. -/
theorem Chases.outcome {passed : List String} {current : String} {answer : Except UnresolvedCause Resolved}
    (h : Chases root passed current answer) (hway : ReflTransGen (AliasTo root) reference current)
    (hpassed : ∀ text ∈ passed, TransGen (AliasTo root) text current) : Outcome root reference answer := by
  induction h with
  | outside hhash => exact ⟨_, hway, hhash⟩
  | loop _ hmem => exact ⟨_, hway, hpassed _ hmem⟩
  | missing hhash _ hnode => exact ⟨_, hway, hhash, hnode⟩
  | found _ _ hnode halias => exact ⟨hway, hnode, halias⟩
  | @next passed current target node answer _ _ hnode halias _ ih =>
    have hstep : AliasTo root current target := ⟨node, hnode, halias⟩
    refine ih (hway.tail hstep) fun text ht => ?_
    rcases List.mem_cons.1 ht with rfl | ht
    · exact .single hstep
    · exact (hpassed text ht).tail hstep

/-- A text at which a chain ends. -/
def Last (root : Tree) (text : String) : Prop := ∀ target, ¬ AliasTo root text target

theorem last_of_lookup_none {text : String} (h : Pointer.lookup? root text = none) : Last root text := by
  rintro target ⟨node, hnode, -⟩
  rw [h] at hnode
  cases hnode

theorem lookup_outside {text : String} (h : text.toList.head? ≠ some '#') : Pointer.lookup? root text = none := by
  unfold Pointer.lookup?
  split
  · next heq => exact absurd (by rw [heq]; rfl) h
  · next heq => exact absurd (by rw [heq]; rfl) h
  · rfl

theorem last_of_no_alias {text : String} {node : Tree} (hnode : Pointer.lookup? root text = some node)
    (halias : aliasTarget? node = none) : Last root text := by
  rintro target ⟨other, hother, htarget⟩
  rw [hnode] at hother
  cases hother
  rw [halias] at htarget
  cases htarget

theorem eq_of_last {text target : String} (h : Last root text) (hway : ReflTransGen (AliasTo root) text target) :
    target = text := by
  rcases hway.cases_head with heq | ⟨next, hnext, -⟩
  · exact heq.symm
  · exact absurd hnext (h next)

/-- A chain has one end. -/
theorem last_unique {s t : String} (hs : ReflTransGen (AliasTo root) reference s) (hsl : Last root s)
    (ht : ReflTransGen (AliasTo root) reference t) (htl : Last root t) : s = t := by
  rcases ReflTransGen.total_of_right_unique (rightUnique_aliasTo root) hs ht with hst | hts
  · exact (eq_of_last hsl hst).symm
  · exact eq_of_last htl hts

/-- What a text on a round leads to is on a round. -/
theorem round_of_way {s t : String} (hround : TransGen (AliasTo root) s s) (hway : ReflTransGen (AliasTo root) s t) :
    TransGen (AliasTo root) t t := by
  induction hway with
  | refl => exact hround
  | tail _ hstep ih =>
    obtain ⟨next, hnext, hback⟩ := TransGen.head'_iff.1 ih
    rw [hstep.unique hnext]
    exact TransGen.tail' hback hnext

/-- A chain that ends comes to no text twice. -/
theorem not_round_of_last {s t : String} (hs : ReflTransGen (AliasTo root) reference s) (hsl : Last root s)
    (ht : ReflTransGen (AliasTo root) reference t) : ¬ TransGen (AliasTo root) t t := by
  intro hround
  have hends : TransGen (AliasTo root) s s := by
    rcases ReflTransGen.total_of_right_unique (rightUnique_aliasTo root) hs ht with hst | hts
    · exact eq_of_last hsl hst ▸ hround
    · exact round_of_way hround hts
  obtain ⟨next, hnext, -⟩ := TransGen.head'_iff.1 hends
  exact hsl next hnext

/-- Where a chain ends, and whether it ends, tell its outcome. -/
theorem Outcome.cases {answer : Except UnresolvedCause Resolved} (h : Outcome root reference answer) :
    (answer = .error .loop ∧ ∃ text, ReflTransGen (AliasTo root) reference text ∧ TransGen (AliasTo root) text text) ∨
    ∃ last, ReflTransGen (AliasTo root) reference last ∧ Last root last ∧
      answer = if last.toList.head? = some '#' then
        match Pointer.lookup? root last with
        | none => .error .missing
        | some node => .ok ⟨last, node⟩
      else .error .outsideDocument := by
  match answer, h with
  | .ok found, ⟨hway, hnode, halias⟩ =>
    have hhash : found.pointer.toList.head? = some '#' := by
      by_contra hno
      rw [lookup_outside hno] at hnode
      cases hnode
    refine .inr ⟨found.pointer, hway, last_of_no_alias hnode halias, ?_⟩
    rw [if_pos hhash, hnode]
  | .error .outsideDocument, ⟨last, hway, hhash⟩ =>
    exact .inr ⟨last, hway, last_of_lookup_none (lookup_outside hhash), by rw [if_neg hhash]⟩
  | .error .missing, ⟨last, hway, hhash, hnode⟩ =>
    exact .inr ⟨last, hway, last_of_lookup_none hnode, by rw [if_pos hhash, hnode]⟩
  | .error .loop, h => exact .inl ⟨rfl, h⟩

/-- A chain has one outcome. -/
theorem Outcome.unique {a b : Except UnresolvedCause Resolved} (ha : Outcome root reference a)
    (hb : Outcome root reference b) : a = b := by
  rcases ha.cases with ⟨rfl, s, hs, hround⟩ | ⟨s, hs, hsl, rfl⟩ <;>
    rcases hb.cases with ⟨rfl, t, ht, hround'⟩ | ⟨t, ht, htl, rfl⟩
  · rfl
  · exact absurd hround (not_round_of_last ht htl hs)
  · exact absurd hround' (not_round_of_last hs hsl ht)
  · rw [last_unique hs hsl ht htl]

end Outcome

/-- The search comes to the answer that `chase` gives within the bound of the document. -/
theorem chases_of_bound (root : Tree) (reference : String) :
    Chases root [] reference (chase root (chainBound root) [] reference) :=
  chases_chase reference List.nodup_nil (fun _ ht => .inl (List.mem_singleton.1 ht)) (by simp)

/-- A search gives an answer exactly where the chain has the outcome. -/
theorem chase_eq_iff {root : Tree} {reference : String} {answer : Except UnresolvedCause Resolved} :
    chase root (chainBound root) [] reference = answer ↔ Outcome root reference answer := by
  have h : Outcome root reference (chase root (chainBound root) [] reference) :=
    (chases_of_bound root reference).outcome .refl fun _ ht => absurd ht List.not_mem_nil
  exact ⟨fun heq => heq ▸ h, fun h' => h.unique h'⟩

end Reference

/-! ## Resolvers after calls -/

namespace Resolver

open Reference

/-- A call of a resolver. -/
inductive Call where
  | resolve (reference holder : String)
  | checkAll

/-- The resolver after calls. -/
def after (r : Resolver) : List Call → Resolver
  | [] => r
  | .resolve reference holder :: calls => (r.resolve reference holder).2.after calls
  | .checkAll :: calls => r.checkAll.2.after calls

/-- What a resolver of a document answers to a reference after calls. -/
def answerAfter (root : Tree) (calls : List Call) (reference holder : String) : Except Unresolved Resolved :=
  (((new root).after calls).resolve reference holder).1

/-- What a resolver of a document answers to a check of all references after calls. -/
def countAfter (root : Tree) (calls : List Call) : Except Unresolved Nat := ((new root).after calls).checkAll.1

/-- The failure of a new resolver at a reference, if it fails there. -/
def failure? (root : Tree) (o : Occurrence) : Option Unresolved :=
  match answerAfter root [] o.reference o.holder with
  | .ok _ => none
  | .error e => some e

section Serves

variable {r : Resolver} {root : Tree}

theorem Serves.resolve (h : r.Serves root) (reference holder : String) :
    (r.resolve reference holder).2.Serves root ∧
      (r.resolve reference holder).1 = Reference.resolve root reference holder := by
  obtain ⟨hfaithful, hroot, hbound⟩ := h.faithful.resolve reference holder
  exact ⟨⟨hroot.trans h.root_eq, hbound.trans h.bound_eq, hfaithful⟩, h.find_eq reference holder⟩

theorem answer_new (root : Tree) (reference holder : String) :
    answerAfter root [] reference holder = Reference.resolve root reference holder :=
  ((serves_new root).resolve reference holder).2

theorem Serves.resolveAll (all : List Occurrence) (h : r.Serves root) : (r.resolveAll all).2.Serves root := by
  obtain ⟨hfaithful, hroot, hbound⟩ := h.faithful.resolveAll all
  exact ⟨hroot.trans h.root_eq, hbound.trans h.bound_eq, hfaithful⟩

/-- References that are resolved in order fail with the first failure. -/
theorem Serves.resolveAll_eq : ∀ (all : List Occurrence) {r : Resolver}, r.Serves root →
    (r.resolveAll all).1 = (all.findSome? (failure? root)).elim (.ok ()) .error
  | [], r, _ => rfl
  | o :: rest, r, h => by
    obtain ⟨hnext, hanswer⟩ := h.resolve o.reference o.holder
    rw [Resolver.resolveAll, List.findSome?_cons, failure?, answer_new, ← hanswer]
    split
    · next found next heq =>
      rw [heq] at hnext ⊢
      exact hnext.resolveAll_eq rest
    · next e next heq => rw [heq]; rfl

theorem Serves.checkAll (h : r.Serves root) : r.checkAll.2.Serves root := by
  have hall := h.resolveAll (occurrences r.root "#")
  unfold Resolver.checkAll
  dsimp only
  split
  · next r' heq => rwa [heq] at hall
  · next e r' heq => rwa [heq] at hall

theorem Serves.checkAll_eq (h : r.Serves root) :
    r.checkAll.1 =
      ((occurrences root "#").findSome? (failure? root)).elim (.ok (occurrences root "#").length) .error := by
  have hall := h.resolveAll_eq (occurrences root "#")
  rw [← h.root_eq] at hall ⊢
  unfold Resolver.checkAll
  dsimp only
  cases hfailure : (occurrences r.root "#").findSome? (failure? r.root) with
  | none =>
    rw [hfailure] at hall
    split
    · rfl
    · next e r' heq =>
      rw [heq] at hall
      cases hall
  | some e =>
    rw [hfailure] at hall
    split
    · next r' heq =>
      rw [heq] at hall
      cases hall
    · next e' r' heq =>
      rw [heq] at hall
      exact congrArg Except.error (Except.error.inj hall)

theorem Serves.after : ∀ (calls : List Call) {r : Resolver}, r.Serves root → (r.after calls).Serves root
  | [], _, h => h
  | .resolve reference holder :: calls, _, h => (h.resolve reference holder).1.after calls
  | .checkAll :: calls, _, h => h.checkAll.after calls

end Serves

section Answers

variable (root : Tree) (calls : List Call) (reference holder : String)

theorem answerAfter_eq : answerAfter root calls reference holder = Reference.resolve root reference holder :=
  (((serves_new root).after calls).resolve reference holder).2

theorem countAfter_eq : countAfter root calls =
    ((occurrences root "#").findSome? (failure? root)).elim (.ok (occurrences root "#").length) .error :=
  ((serves_new root).after calls).checkAll_eq

variable {root calls reference holder}

/-- A resolver answers a reference with a node where the chain ends at the node. -/
theorem answerAfter_ok_iff {found : Resolved} :
    answerAfter root calls reference holder = .ok found ↔ Outcome root reference (.ok found) := by
  rw [answerAfter_eq, Reference.resolve, ← chase_eq_iff]
  cases chase root (chainBound root) [] reference with
  | error cause =>
    constructor
    · intro h
      cases h
    · intro h
      cases h
  | ok other => exact ⟨fun h => congrArg Except.ok (Except.ok.inj h), fun h => congrArg Except.ok (Except.ok.inj h)⟩

/-- A resolver answers a reference with a failure where the chain has its cause as outcome. -/
theorem answerAfter_error_iff {e : Unresolved} :
    answerAfter root calls reference holder = .error e ↔
      ∃ cause, e = ⟨reference, holder, cause⟩ ∧ Outcome root reference (.error cause) := by
  rw [answerAfter_eq, Reference.resolve]
  constructor
  · intro h
    cases hchase : chase root (chainBound root) [] reference with
    | error cause =>
      rw [hchase] at h
      exact ⟨cause, (Except.error.inj h).symm, chase_eq_iff.1 hchase⟩
    | ok found =>
      rw [hchase] at h
      cases h
  · rintro ⟨cause, rfl, houtcome⟩
    rw [chase_eq_iff.2 houtcome]
    rfl

end Answers

/-- What a resolver answers after any calls. Each answer is that of a new resolver, and the search for it comes to an end.
A node that is answered stands at the pointer with it and is no alias, and its pointer is answered with the same. An answer
is a failure exactly where the chain of aliases leaves the document, comes to a text without a node, or comes round. The
check of all references counts them, or fails with the first that fails. -/
theorem resolve_after_calls (root : Tree) (calls : List Call) (reference holder : String) :
    answerAfter root calls reference holder = answerAfter root [] reference holder ∧
    (∃ answer, Chases root [] reference answer ∧
      answerAfter root calls reference holder = answer.mapError fun cause => ⟨reference, holder, cause⟩) ∧
    (∀ found, answerAfter root calls reference holder = .ok found →
      Pointer.lookup? root found.pointer = some found.node ∧ aliasTarget? found.node = none ∧
        ∀ calls' holder', answerAfter root calls' found.pointer holder' = .ok found) ∧
    ((∃ e, answerAfter root calls reference holder = .error e) ↔
      (∃ last, ReflTransGen (AliasTo root) reference last ∧ last.toList.head? ≠ some '#') ∨
      (∃ last, ReflTransGen (AliasTo root) reference last ∧ last.toList.head? = some '#' ∧
        Pointer.lookup? root last = none) ∨
      ∃ text, ReflTransGen (AliasTo root) reference text ∧ TransGen (AliasTo root) text text) ∧
    countAfter root calls =
      ((occurrences root "#").findSome? (failure? root)).elim (.ok (occurrences root "#").length) .error := by
  refine ⟨?_, ⟨_, chases_of_bound root reference, answerAfter_eq root calls reference holder⟩, ?_, ?_,
    countAfter_eq root calls⟩
  · rw [answerAfter_eq, answerAfter_eq]
  · intro found hfound
    obtain ⟨-, hnode, halias⟩ := answerAfter_ok_iff.1 hfound
    exact ⟨hnode, halias, fun calls' holder' => answerAfter_ok_iff.2 ⟨.refl, hnode, halias⟩⟩
  · constructor
    · rintro ⟨e, he⟩
      obtain ⟨cause, -, houtcome⟩ := answerAfter_error_iff.1 he
      cases cause with
      | outsideDocument => exact .inl houtcome
      | missing => exact .inr (.inl houtcome)
      | loop => exact .inr (.inr houtcome)
    · rintro (houtcome | houtcome | houtcome)
      · exact ⟨_, answerAfter_error_iff.2 ⟨.outsideDocument, rfl, houtcome⟩⟩
      · exact ⟨_, answerAfter_error_iff.2 ⟨.missing, rfl, houtcome⟩⟩
      · exact ⟨_, answerAfter_error_iff.2 ⟨.loop, rfl, houtcome⟩⟩

/-- A chain of two aliases, a pair of aliases of each other, and a reference out of the document. -/
def chains : Tree :=
  .mapping [(.text "a", .mapping [(.text "$ref", .text "#/b")]), (.text "b", .mapping [(.text "$ref", .text "#/c")]),
    (.text "c", .mapping [(.text "type", .text "object")]), (.text "d", .mapping [(.text "$ref", .text "#/e")]),
    (.text "e", .mapping [(.text "$ref", .text "#/d")]), (.text "f", .mapping [(.text "$ref", .text "other#/x")])]

/-- After a check that fails at the pair, the chain is still followed to its end, and so is its end. -/
theorem resolve_after_calls_chains :
    countAfter chains [] = .error ⟨"#/e", "#/d", .loop⟩ ∧
    ∃ found, answerAfter chains [.checkAll, .resolve "#/f" "#"] "#/a" "#/x" = .ok found ∧
      Pointer.lookup? chains found.pointer = some found.node ∧ answerAfter chains [] found.pointer "#" = .ok found := by
  refine ⟨rfl, _, rfl, ?_⟩
  obtain ⟨hnode, -, hagain⟩ :=
    (resolve_after_calls chains [.checkAll, .resolve "#/f" "#"] "#/a" "#/x").2.2.1 _ rfl
  exact ⟨hnode, hagain [] "#"⟩

end Resolver

end ContractBindings
