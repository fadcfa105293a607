import ContractBindings.Proofs.Document.Edges

/-!
# Interpretation from any table

The table that an interpretation starts from shows in its answer at one place only: a composition asks what the definitions
are whose references are its parts, and one that is still being interpreted is not told of. Where the references do not
loop, none of the definitions that are asked for is being interpreted. So an interpretation is *uniform*: it answers from
any table in order as from the empty one, and opens the same definitions (`Uniform`). A table is in order if each of its
definitions is either being interpreted or has the content that it has when it is interpreted first (`Orderly`).

An unresolved reference cuts a run short, and the definitions that it was about stay without content (`Wear`). They get
none when they are interpreted first, either. In a table that is used on after that, such definitions may get content that
they would not get first.

Uniformity is kept by all that a confined interpretation is made of (`Confined.uniform`), and by opening a definition
(`uniform_of_visit`). Along the edges of a graph without a cycle all definitions are opened uniformly (`opening_uniform`).
-/

namespace ContractBindings

open Relation (TransGen ReflTransGen)

namespace Interpretation

variable {r : Resolver} {d : Document}

/-! ## Definitions that are interpreted first -/

/-- Opens a definition for what it stands for. -/
def opening (r : Resolver) (d : Document) (k : SchemaId) : Interpretation Unit :=
  match d.tree? k with
  | some tree => define (visit r) k tree
  | none => pure ()

/-- The content of a definition that is interpreted first, if it gets one. -/
def alone (r : Resolver) (d : Document) (k : SchemaId) : Option (Except SchemaError SchemaNode) :=
  (((opening r d k).run.run []).2.lookup k).join

/-- The definitions that are open after a definition was interpreted first. -/
def company (r : Resolver) (d : Document) (k : SchemaId) : List SchemaId := ((opening r d k).run.run []).2.map (·.1)

theorem opening_eq {k : SchemaId} {tree : Tree} (h : d.tree? k = some tree) :
    opening r d k = define (visit r) k tree := by
  rw [opening, h]

/-! ## Tables in order -/

/-- What a table has been through: nothing, one run that was cut short, or more runs after that. -/
inductive Wear where
  | fresh
  | cut
  | worn

/-- After one more run that may have been cut short. -/
def Wear.next : Wear → Wear
  | .fresh => .cut
  | _ => .worn

/-- What may be found for a definition that gets no content when it is interpreted first. -/
def Wear.Allows : Wear → Option (Option (Except SchemaError SchemaNode)) → Prop
  | .fresh, _ => False
  | .cut, found => found = some none
  | .worn, _ => True

theorem Wear.Allows.next {wear : Wear} {found : Option (Option (Except SchemaError SchemaNode))}
    (h : wear.Allows found) : wear.next.Allows found := by
  cases wear with
  | fresh => exact h.elim
  | _ => exact trivial

theorem Wear.next_of_ne {wear : Wear} (h : wear ≠ .fresh) : wear.next = .worn := by
  cases wear with
  | fresh => exact absurd rfl h
  | _ => rfl

theorem Wear.allows_none (wear : Wear) : wear.next.Allows (some none) := by
  cases wear <;> trivial

/-- The definition has the content that it has alone, and what is open then is open; or it gets no content alone. -/
def Settled (r : Resolver) (d : Document) (wear : Wear) (s : Slots) (k : SchemaId) : Prop :=
  (alone r d k = none ∧ wear.Allows (s.lookup k)) ∨
    ∃ v, alone r d k = some v ∧ s.lookup k = some (some v) ∧ company r d k ⊆ s.map (·.1)

/-- All definitions of the table but some that are being interpreted are settled. -/
def Orderly (r : Resolver) (d : Document) (busy : List SchemaId) (wear : Wear) (s : Slots) : Prop :=
  ∀ k ∈ s.map (·.1), k ∉ busy → Settled r d wear s k

section Tables

variable {wear : Wear} {busy : List SchemaId} {s : Slots} {j k : SchemaId} {v : Option (Except SchemaError SchemaNode)}

theorem Settled.upsert (h : Settled r d wear s j) (hne : j ≠ k) : Settled r d wear (upsert s k v) j := by
  unfold Settled
  rw [lookup_upsert_of_ne hne]
  exact h.imp_right fun ⟨w, halone, hlookup, hcompany⟩ =>
    ⟨w, halone, hlookup, fun i hi => (mem_keys_upsert s).2 (.inl (hcompany hi))⟩

theorem orderly_nil : Orderly r d [] wear [] := fun _ hk => by cases hk

theorem Orderly.next (h : Orderly r d busy wear s) : Orderly r d busy wear.next s :=
  fun k hk hbusy => (h k hk hbusy).imp_left fun ⟨hnone, hallows⟩ => ⟨hnone, hallows.next⟩

/-- A definition that is opened is being interpreted. -/
theorem Orderly.opened (h : Orderly r d busy wear s) : Orderly r d (k :: busy) wear (upsert s k v) := by
  intro j hj hbusy
  rw [List.mem_cons, not_or] at hbusy
  have hmem : j ∈ s.map (·.1) := ((mem_keys_upsert s).1 hj).resolve_right hbusy.1
  exact (h j hmem hbusy.2).upsert hbusy.1

/-- A definition that is settled is not being interpreted any more. -/
theorem Orderly.settled (h : Orderly r d (k :: busy) wear s) (hk : Settled r d wear s k) : Orderly r d busy wear s := by
  intro j hj hbusy
  by_cases hne : j = k
  · exact hne ▸ hk
  · exact h j hj (by simp [hne, hbusy])

/-- A definition that is finished is settled. -/
theorem Orderly.finished (h : Orderly r d (k :: busy) wear s) (hk : Settled r d wear (upsert s k v) k) :
    Orderly r d busy wear (upsert s k v) := by
  refine Orderly.settled (fun j hj hbusy => ?_) hk
  have hne : j ≠ k := fun he => hbusy (he ▸ List.mem_cons_self)
  exact (h j (((mem_keys_upsert s).1 hj).resolve_right hne) hbusy).upsert hne

variable {content : Except SchemaError SchemaNode}

/-- What is open in a table in order has the content that it has alone, if it has one. -/
theorem Orderly.of_alone (h : Orderly r d busy wear s) (hk : k ∈ s.map (·.1)) (hbusy : k ∉ busy)
    (halone : alone r d k = some content) : s.lookup k = some (some content) ∧ company r d k ⊆ s.map (·.1) := by
  obtain ⟨hnone, -⟩ | ⟨other, hother, hsettled⟩ := h k hk hbusy
  · rw [halone] at hnone
    cases hnone
  · rw [halone] at hother
    cases hother
    exact hsettled

/-- All that is open in a fresh table has the content that it has alone. -/
theorem Orderly.alone_of_mem (h : Orderly r d busy .fresh s) (hk : k ∈ s.map (·.1)) (hbusy : k ∉ busy) :
    ∃ content, alone r d k = some content ∧ s.lookup k = some (some content) := by
  obtain ⟨-, hfalse⟩ | ⟨content, halone, hlookup, -⟩ := h k hk hbusy
  · exact hfalse.elim
  · exact ⟨content, halone, hlookup⟩

/-- What is stored in a table that has been through no more than one run that was cut short is what the definition has
alone. -/
theorem Orderly.alone_of_lookup (h : Orderly r d busy .cut s) (hbusy : k ∉ busy)
    (hlookup : s.lookup k = some (some content)) : alone r d k = some content := by
  obtain ⟨-, hallows⟩ | ⟨other, halone, hother, -⟩ := h k (lookup_isSome_iff.1 (by simp [hlookup])) hbusy
  · rw [hlookup] at hallows
    cases hallows
  · rw [hlookup] at hother
    cases hother
    exact halone

end Tables

/-! ## Uniform interpretations -/

theorem resolved_error {e : InterpretError} : Resolved (.error e : Except InterpretError α) ↔ ∀ u, e ≠ .unresolved u := by
  cases e <;> simp [Resolved]

/-- An interpretation opens definitions of a set only, and where none of the set is being interpreted it runs from a table
in order as from the empty one. If it is cut short from the empty one, it is cut short from any fresh table, and leaves
every table in order. -/
structure Uniform (r : Resolver) (d : Document) (R : SchemaId → Prop) (x : Interpretation α) : Prop where
  walks : Walks R x
  resolved : Resolved (x.run.run []).1 → ∀ {busy wear s}, (∀ k ∈ busy, ¬ R k) → Orderly r d busy wear s →
    (x.run.run s).1 = (x.run.run []).1 ∧ Orderly r d busy wear (x.run.run s).2 ∧
      ∀ k, k ∈ (x.run.run s).2.map (·.1) ↔ k ∈ s.map (·.1) ∨ k ∈ (x.run.run []).2.map (·.1)
  unresolved : ¬ Resolved (x.run.run []).1 → ∀ {busy wear s}, (∀ k ∈ busy, ¬ R k) → Orderly r d busy wear s →
    Orderly r d busy wear.next (x.run.run s).2 ∧ (wear ≠ .fresh ∨ ¬ Resolved (x.run.run s).1)

namespace Uniform

variable {R R' : SchemaId → Prop} {x : Interpretation α}

theorem mono (h : Uniform r d R x) (hR : ∀ k, R k → R' k) : Uniform r d R' x where
  walks s := (h.walks s).mono (fun _ _ hw => hw.mono hR) fun _ _ hw => hw.mono hR
  resolved hx _ _ _ hbusy hs := h.resolved hx (fun k hk hRk => hbusy k hk (hR k hRk)) hs
  unresolved hx _ _ _ hbusy hs := h.unresolved hx (fun k hk hRk => hbusy k hk (hR k hRk)) hs

/-- However it ends, the table is in order then. -/
theorem orderly (h : Uniform r d R x) {busy : List SchemaId} {wear : Wear} {s : Slots} (hbusy : ∀ k ∈ busy, ¬ R k)
    (hs : Orderly r d busy wear s) : Orderly r d busy wear.next (x.run.run s).2 := by
  by_cases hx : Resolved (x.run.run []).1
  · exact (h.resolved hx hbusy hs).2.1.next
  · exact (h.unresolved hx hbusy hs).1

theorem pure {a : α} : Uniform r d R (Pure.pure a) where
  walks s := ends_pure.2 (.refl s)
  resolved _ _ _ s _ hs := ⟨rfl, hs, fun k => ⟨.inl, fun h => h.elim id fun h => by cases h⟩⟩
  unresolved hx := absurd trivial hx

theorem throw {e : SchemaError} : Uniform r d R (MonadExcept.throw (.schema e) : Interpretation α) where
  walks s := ends_throw.2 (.refl s)
  resolved _ _ _ s _ hs := ⟨rfl, hs, fun k => ⟨.inl, fun h => h.elim id fun h => by cases h⟩⟩
  unresolved hx := absurd trivial hx

/-- A reference that leads nowhere cuts every run short. -/
theorem cut {u : Unresolved} : Uniform r d R (MonadExcept.throw (.unresolved u) : Interpretation α) where
  walks s := ends_throw.2 (.refl s)
  resolved hx := hx.elim
  unresolved hx _ _ _ _ hs := ⟨hs.next, .inr hx⟩

section Sequences

variable {f : α → Interpretation β} {busy : List SchemaId} {wear : Wear} {s s₀ : Slots}

/-- A run that ends with an answer ends with it from any table in order. -/
theorem run_of_ok (hx : Uniform r d R x) {a : α} (hfirst : x.run.run [] = (.ok a, s₀)) (hbusy : ∀ k ∈ busy, ¬ R k)
    (hs : Orderly r d busy wear s) : ∃ s', x.run.run s = (.ok a, s') ∧ Orderly r d busy wear s' ∧
      ∀ k, k ∈ s'.map (·.1) ↔ k ∈ s.map (·.1) ∨ k ∈ s₀.map (·.1) := by
  obtain ⟨hanswer, horderly, hkeys⟩ := hx.resolved (by rw [hfirst]; trivial) hbusy hs
  rw [hfirst] at hanswer hkeys
  exact ⟨(x.run.run s).2, Prod.ext hanswer rfl, horderly, hkeys⟩

/-- The table after a run from the empty table is in order. -/
theorem orderly_of_ok (hx : Uniform r d R x) {a : α} (hfirst : x.run.run [] = (.ok a, s₀)) :
    Orderly r d [] .fresh s₀ := by
  obtain ⟨s', hrun, horderly, -⟩ := hx.run_of_ok hfirst (fun _ hk => by cases hk) orderly_nil
  rw [hfirst] at hrun
  cases hrun
  exact horderly

/-- Nothing comes after a failure that ends a run with an answer of its own. -/
theorem bind_failed (hx : Uniform r d R x) {e : InterpretError} (hfirst : x.run.run [] = (.error e, s₀))
    (hres : Resolved ((x >>= f).run.run []).1) (hbusy : ∀ k ∈ busy, ¬ R k) (hs : Orderly r d busy wear s) :
    ((x >>= f).run.run s).1 = ((x >>= f).run.run []).1 ∧ Orderly r d busy wear ((x >>= f).run.run s).2 ∧
      ∀ k, k ∈ ((x >>= f).run.run s).2.map (·.1) ↔
        k ∈ s.map (·.1) ∨ k ∈ ((x >>= f).run.run []).2.map (·.1) := by
  rw [run_bind_of_error hfirst] at hres ⊢
  have hx := hx.resolved (by rw [hfirst]; exact resolved_error.2 (resolved_error.1 hres)) hbusy hs
  rw [hfirst] at hx
  have hrun : x.run.run s = (.error e, (x.run.run s).2) := Prod.ext hx.1 rfl
  rw [run_bind_of_error hrun]
  exact ⟨rfl, hx.2⟩

/-- A run whose beginning is cut short is cut short itself. -/
theorem bind_cut (hx : Uniform r d R x) (hcut : ¬ Resolved (x.run.run []).1)
    (hf : ∀ a {s}, Orderly r d busy .worn s → Orderly r d busy .worn ((f a).run.run s).2) (hbusy : ∀ k ∈ busy, ¬ R k)
    (hs : Orderly r d busy wear s) :
    Orderly r d busy wear.next ((x >>= f).run.run s).2 ∧ (wear ≠ .fresh ∨ ¬ Resolved ((x >>= f).run.run s).1) := by
  obtain ⟨horderly, hwear⟩ := hx.unresolved hcut hbusy hs
  rcases hrun : x.run.run s with ⟨e | a, s'⟩
  · rw [hrun, resolved_error] at hwear
    rw [hrun] at horderly
    rw [run_bind_of_error hrun, resolved_error]
    exact ⟨horderly, hwear⟩
  · rw [hrun] at horderly hwear
    have hne := hwear.resolve_right fun h => h trivial
    rw [Wear.next_of_ne hne] at horderly ⊢
    rw [run_bind_of_ok hrun]
    exact ⟨hf a horderly, .inl hne⟩

end Sequences

theorem bind {f : α → Interpretation β} (hx : Uniform r d R x) (hf : ∀ a, Uniform r d R (f a)) :
    Uniform r d R (x >>= f) where
  walks := hx.walks.bind fun a => (hf a).walks
  resolved hres := by
    intro busy wear s hbusy hs
    rcases hfirst : x.run.run [] with ⟨e | a, s₀⟩
    · exact hx.bind_failed hfirst hres hbusy hs
    · have hs₀ := hx.orderly_of_ok hfirst
      obtain ⟨s', hrun, hs', hkeys'⟩ := hx.run_of_ok hfirst hbusy hs
      rw [run_bind_of_ok hfirst] at hres ⊢
      rw [run_bind_of_ok hrun]
      -- the continuation is resolved from the empty table, or it would be cut short from the table after `x`
      have hrest : Resolved ((f a).run.run []).1 := by
        by_contra hcut
        rcases ((hf a).unresolved hcut (fun _ hk => by cases hk) hs₀).2 with h | h
        · exact h rfl
        · exact h hres
      obtain ⟨hanswer₀, -, hkeys₀⟩ := (hf a).resolved hrest (fun _ hk => by cases hk) hs₀
      obtain ⟨hanswer, horderly, hkeys⟩ := (hf a).resolved hrest hbusy hs'
      refine ⟨hanswer.trans hanswer₀.symm, horderly, fun k => ?_⟩
      rw [hkeys, hkeys₀, hkeys', or_assoc]
  unresolved hcut := by
    intro busy wear s hbusy hs
    rcases hfirst : x.run.run [] with ⟨e | a, s₀⟩
    · rw [run_bind_of_error hfirst, resolved_error] at hcut
      exact hx.bind_cut (by rwa [hfirst, resolved_error]) (fun a _ => (hf a).orderly hbusy) hbusy hs
    · have hs₀ := hx.orderly_of_ok hfirst
      obtain ⟨s', hrun, hs', -⟩ := hx.run_of_ok hfirst hbusy hs
      rw [run_bind_of_ok hfirst] at hcut
      rw [run_bind_of_ok hrun]
      have hrest : ¬ Resolved ((f a).run.run []).1 := by
        intro hres
        obtain ⟨hanswer₀, -, -⟩ := (hf a).resolved hres (fun _ hk => by cases hk) hs₀
        exact hcut (hanswer₀ ▸ hres)
      exact (hf a).unresolved hrest hbusy hs'

theorem forM {f : γ → Interpretation PUnit} : ∀ items : List γ, (∀ c ∈ items, Uniform r d R (f c)) →
    Uniform r d R (items.forM f)
  | [], _ => pure
  | c :: items, h =>
    (h c List.mem_cons_self).bind fun _ => forM items fun c' hc' => h c' (List.mem_cons_of_mem _ hc')

end Uniform

/-! ## Compositions -/

theorem resolved_flattened (id : SchemaId) (parts : List SchemaNode) (s : Slots) :
    Resolved ((flattened id parts).run.run s).1 := by
  rw [run_flattened]
  cases Composition.flatten id (parts.map (partShape? s)) <;> trivial

/-- A composition is flattened alike where the definitions that its parts refer to are the same. -/
theorem partShape?_congr {s s' : Slots} {part : SchemaNode}
    (h : ∀ target, part.shape = .reference target → s'.lookup target = s.lookup target) :
    partShape? s' part = partShape? s part := by
  unfold partShape?
  split
  · next target htarget => rw [Slots.shape?, Slots.shape?, h target htarget]
  · rfl

/-- The definitions that the parts of a composition refer to are finished when they are flattened, with the content that
they have alone. -/
theorem Uniform.composed {R : SchemaId → Prop} {x : Interpretation (List SchemaNode)} (hx : Uniform r d R x)
    (hcloses : Closes (fun parts s => ∀ n ∈ parts, s.Covers n.shape) x) (id : SchemaId) :
    Uniform r d R (x >>= flattened id) where
  walks := hx.walks.bind fun parts => walks_flattened id parts
  resolved hres := by
    intro busy wear s hbusy hs
    rcases hfirst : x.run.run [] with ⟨e | parts, s₀⟩
    · exact hx.bind_failed hfirst hres hbusy hs
    · have hs₀ := hx.orderly_of_ok hfirst
      obtain ⟨s', hrun, hs', hkeys'⟩ := hx.run_of_ok hfirst hbusy hs
      obtain ⟨-, -, hcovers⟩ := (hcloses [] fun hk => by cases hk).answer hfirst
      have hR : ∀ k ∈ s₀.map (·.1), R k := by
        have hwalk := hx.walks.walk []
        rw [hfirst] at hwalk
        exact hwalk.keys_nodup.2
      have hparts : parts.map (partShape? s') = parts.map (partShape? s₀) := by
        refine List.map_congr_left fun n hn => partShape?_congr fun target htarget => ?_
        have hmem : target ∈ s₀.map (·.1) := hcovers n hn target (.inl (by simp [htarget, Shape.ownLinks]))
        have hbusy' : target ∉ busy := fun h => hbusy target h (hR target hmem)
        obtain ⟨content, halone, hlookup⟩ := hs₀.alone_of_mem hmem (by simp)
        rw [hlookup, (hs'.of_alone ((hkeys' target).2 (.inr hmem)) hbusy' halone).1]
      rw [run_bind_of_ok hfirst, run_bind_of_ok hrun, run_flattened, run_flattened, hparts]
      exact ⟨rfl, hs', hkeys'⟩
  unresolved hcut := by
    intro busy wear s hbusy hs
    rcases hfirst : x.run.run [] with ⟨e | parts, s₀⟩
    · rw [run_bind_of_error hfirst, resolved_error] at hcut
      refine hx.bind_cut (by rwa [hfirst, resolved_error]) (fun parts s hs => ?_) hbusy hs
      rwa [run_flattened]
    · rw [run_bind_of_ok hfirst] at hcut
      exact absurd (resolved_flattened id parts s₀) hcut

/-- A confined interpretation is uniform if the parts and the references are. -/
theorem Confined.uniform {tree : Tree} {P : α → Slots → Prop} {x : Reading → Interpretation α} (h : Confined tree P x)
    {R : SchemaId → Prop} (hvisit : ∀ part id, part.Subschema tree → Uniform r d R (Interpretation.visit r part id))
    (hreference : ∀ text holder, tree.Follows text →
      Uniform r d R (Interpretation.reference r (Interpretation.visit r) text holder)) :
    Uniform r d R (x ⟨r, Interpretation.visit r⟩) := by
  induction h with
  | pure _ => exact .pure
  | throw => exact .throw
  | visit hpart => exact hvisit _ _ hpart
  | reference hfollows => exact hreference _ _ hfollows
  | composed hx ih =>
    exact ih.composed (hx.closes (visit_closes r) (reference_closes r (visit_closes r))) _
  | bind _ _ _ ihx ihf => exact ihx.bind ihf
  | mono _ _ ih => exact ih

/-! ## Definitions -/

section Definitions

variable {visit : Visit} {k : SchemaId} {tree : Tree} {s s' : Slots}

/-- An interpretation that is not cut short ends with content. -/
theorem content_or_cut {answer : Except InterpretError SchemaNode} (hdeep : answer ≠ .error .tooDeep) :
    (∃ c : Except SchemaError SchemaNode, answer = c.mapError .schema) ∨ ∃ u, answer = .error (.unresolved u) := by
  cases answer with
  | ok n => exact .inl ⟨.ok n, rfl⟩
  | error e =>
    cases e with
    | schema e => exact .inl ⟨.error e, rfl⟩
    | unresolved u => exact .inr ⟨u, rfl⟩
    | tooDeep => exact absurd rfl hdeep

theorem resolved_content (c : Except SchemaError SchemaNode) :
    Resolved (c.mapError .schema : Except InterpretError SchemaNode) := by
  cases c <;> trivial

theorem run_define (hk : k ∉ s.map (·.1)) (visit : Visit) (tree : Tree) : (define visit k tree).run.run s =
    (catchSchema (visit tree k) >>= fun c => modify fun slots => upsert slots k (some c)).run.run (upsert s k none) := by
  have hopen : s.isOpen k = false := by simpa [← Slots.isOpen_iff] using hk
  rw [define, run_bind_of_ok (show (get : Interpretation Slots).run.run s = (.ok s, s) from rfl), hopen]
  rfl

/-- A definition that is finished has content. -/
theorem run_define_content {c : Except SchemaError SchemaNode} (hk : k ∉ s.map (·.1))
    (h : (visit tree k).run.run (upsert s k none) = (c.mapError .schema, s')) :
    (define visit k tree).run.run s = (.ok (), upsert s' k (some c)) := by
  have hcatch : (catchSchema (visit tree k)).run.run (upsert s k none) = (.ok c, s') := by
    rw [run_catchSchema _ h]
    cases c <;> rfl
  rw [run_define hk, run_bind_of_ok hcatch]
  rfl

/-- A definition that is cut short has none. -/
theorem run_define_cut {u : Unresolved} (hk : k ∉ s.map (·.1))
    (h : (visit tree k).run.run (upsert s k none) = (.error (.unresolved u), s')) :
    (define visit k tree).run.run s = (.error (.unresolved u), s') := by
  have hcatch : (catchSchema (visit tree k)).run.run (upsert s k none) = (.error (.unresolved u), s') :=
    run_catchSchema _ h
  rw [run_define hk, run_bind_of_error hcatch]

variable {R : SchemaId → Prop}

/-- A definition has the content alone that the interpretation of what it stands for ends with. -/
theorem alone_of_content (htree : d.tree? k = some tree) (hk : ¬ R k)
    (hvisit : Uniform r d R (Interpretation.visit r tree k)) {c : Except SchemaError SchemaNode}
    (hc : ((Interpretation.visit r tree k).run.run []).1 = c.mapError .schema) :
    ((opening r d k).run.run []).1 = .ok () ∧ alone r d k = some c ∧
      ∀ j, j ∈ company r d k ↔ j = k ∨ j ∈ ((Interpretation.visit r tree k).run.run []).2.map (·.1) := by
  have hbusy : ∀ j ∈ [k], ¬ R j := by simpa using hk
  have hopened : Orderly r d [k] .fresh (upsert [] k none) := orderly_nil.opened
  obtain ⟨hanswer, -, hkeys⟩ := hvisit.resolved (hc ▸ resolved_content c) hbusy hopened
  have hrun : (opening r d k).run.run [] = (.ok (), _) :=
    opening_eq htree ▸ run_define_content (by simp) (Prod.ext (hanswer.trans hc) rfl)
  refine ⟨by rw [hrun], ?_, fun j => ?_⟩
  · rw [alone, hrun, lookup_upsert_self]
    rfl
  · rw [company, hrun, mem_keys_upsert, hkeys, mem_keys_upsert, List.map_nil, or_comm]
    simp

/-- A definition gets no content alone if the interpretation of what it stands for is cut short. -/
theorem alone_of_cut (htree : d.tree? k = some tree) (hk : ¬ R k)
    (hvisit : Uniform r d R (Interpretation.visit r tree k))
    (hdeep : ∀ s, ((Interpretation.visit r tree k).run.run s).1 ≠ .error .tooDeep)
    (hcut : ¬ Resolved ((Interpretation.visit r tree k).run.run []).1) :
    ¬ Resolved ((opening r d k).run.run []).1 ∧ alone r d k = none := by
  have hbusy : ∀ j ∈ [k], ¬ R j := by simpa using hk
  have hopened : Orderly r d [k] .fresh (upsert [] k none) := orderly_nil.opened
  have hcut' := (hvisit.unresolved hcut hbusy hopened).2.resolve_left fun h => h rfl
  obtain ⟨c, hc⟩ | ⟨u, hu⟩ := content_or_cut (hdeep (upsert [] k none))
  · exact absurd (hc ▸ resolved_content c) hcut'
  · have hrun : (opening r d k).run.run [] = (.error (.unresolved u), _) :=
      opening_eq htree ▸ run_define_cut (by simp) (Prod.ext hu rfl)
    have hkept := (hvisit.walks.walk (upsert [] k none)).lookup_eq ((mem_keys_upsert []).2 (.inr rfl))
    refine ⟨by rw [hrun]; exact id, ?_⟩
    rw [alone, hrun, hkept, lookup_upsert_self]
    rfl

variable {busy : List SchemaId} {wear : Wear}

theorem opening_of_mem (htree : d.tree? k = some tree) (hk : k ∈ s.map (·.1)) :
    (opening r d k).run.run s = (.ok (), s) :=
  opening_eq htree ▸ run_define_of_open (Slots.isOpen_iff.2 hk) _ _

/-- A definition that has content alone has it after it was opened from any table in order. -/
theorem opening_content (htree : d.tree? k = some tree) (hvisit : Uniform r d R (Interpretation.visit r tree k))
    {c : Except SchemaError SchemaNode} (hc : ((Interpretation.visit r tree k).run.run []).1 = c.mapError .schema)
    (hk : k ∉ busy) (hbusy : ∀ j ∈ k :: busy, ¬ R j) (hs : Orderly r d busy wear s) :
    ∃ s', (opening r d k).run.run s = (.ok (), s') ∧ Orderly r d busy wear s' ∧
      ∀ j, j ∈ s'.map (·.1) ↔ j ∈ s.map (·.1) ∨ j ∈ company r d k := by
  obtain ⟨-, halone, hcompany⟩ := alone_of_content htree (hbusy k List.mem_cons_self) hvisit hc
  by_cases hmem : k ∈ s.map (·.1)
  · have hopened := (hs.of_alone hmem hk halone).2
    exact ⟨s, opening_of_mem htree hmem, hs, fun j => ⟨.inl, fun h => h.elim id fun h => hopened h⟩⟩
  · obtain ⟨hanswer, horderly, hkeys⟩ := hvisit.resolved (hc ▸ resolved_content c) hbusy hs.opened
    have hrun : (opening r d k).run.run s = (.ok (), _) :=
      opening_eq htree ▸ run_define_content hmem (Prod.ext (hanswer.trans hc) rfl)
    have hall (j : SchemaId) : j ∈ (upsert ((Interpretation.visit r tree k).run.run (upsert s k none)).2 k
        (some c)).map (·.1) ↔ j ∈ s.map (·.1) ∨ j ∈ company r d k := by
      rw [mem_keys_upsert, hkeys, mem_keys_upsert, hcompany]
      tauto
    refine ⟨_, hrun, horderly.finished (.inr ⟨c, halone, lookup_upsert_self _, fun j hj => ?_⟩), hall⟩
    exact (hall j).2 (.inr hj)

/-- A definition that gets no content alone leaves a table in order, whatever becomes of it. -/
theorem opening_cut (htree : d.tree? k = some tree) (hvisit : Uniform r d R (Interpretation.visit r tree k))
    (hdeep : ∀ s, ((Interpretation.visit r tree k).run.run s).1 ≠ .error .tooDeep)
    (hcut : ¬ Resolved ((Interpretation.visit r tree k).run.run []).1) (hk : k ∉ busy) (hbusy : ∀ j ∈ k :: busy, ¬ R j)
    (hs : Orderly r d busy wear s) :
    Orderly r d busy wear.next ((opening r d k).run.run s).2 ∧
      (wear ≠ .fresh ∨ ¬ Resolved ((opening r d k).run.run s).1) := by
  obtain ⟨-, halone⟩ := alone_of_cut htree (hbusy k List.mem_cons_self) hvisit hdeep hcut
  by_cases hmem : k ∈ s.map (·.1)
  · rw [opening_of_mem htree hmem]
    obtain ⟨-, hallows⟩ | ⟨v, hv, -⟩ := hs k hmem hk
    · refine ⟨hs.next, .inl ?_⟩
      rintro rfl
      exact hallows
    · rw [halone] at hv
      cases hv
  · obtain ⟨horderly, hwear⟩ := hvisit.unresolved hcut hbusy hs.opened
    obtain ⟨c, hc⟩ | ⟨u, hu⟩ := content_or_cut (hdeep (upsert s k none))
    · have hrun : (opening r d k).run.run s = (.ok (), _) :=
        opening_eq htree ▸ run_define_content hmem (Prod.ext hc rfl)
      have hne := hwear.resolve_right fun h => h (hc ▸ resolved_content c)
      rw [Wear.next_of_ne hne] at horderly ⊢
      rw [hrun]
      exact ⟨horderly.finished (.inl ⟨halone, trivial⟩), .inl hne⟩
    · have hrun : (opening r d k).run.run s = (.error (.unresolved u), _) :=
        opening_eq htree ▸ run_define_cut hmem (Prod.ext hu rfl)
      have hkept := (hvisit.walks.walk (upsert s k none)).lookup_eq ((mem_keys_upsert s).2 (.inr rfl))
      rw [hrun]
      refine ⟨horderly.settled (.inl ⟨halone, ?_⟩), .inr id⟩
      rw [hkept, lookup_upsert_self]
      exact wear.allows_none

/-- A definition is opened uniformly if the interpretation of what it stands for is uniform and does not come back to it.
-/
theorem uniform_of_visit (htree : d.tree? k = some tree) (hk : ¬ R k)
    (hvisit : Uniform r d R (Interpretation.visit r tree k))
    (hdeep : ∀ s, ((Interpretation.visit r tree k).run.run s).1 ≠ .error .tooDeep) :
    Uniform r d (fun j => j = k ∨ R j) (opening r d k) := by
  have hwalks : Walks (fun j => j = k ∨ R j) (opening r d k) :=
    opening_eq htree ▸ define_walks (hvisit.mono fun _ => .inr).walks (.inl rfl)
  have hbusy {busy : List SchemaId} (h : ∀ j ∈ busy, ¬ (j = k ∨ R j)) : k ∉ busy ∧ ∀ j ∈ k :: busy, ¬ R j := by
    refine ⟨fun hmem => h k hmem (.inl rfl), fun j hj hR => ?_⟩
    rcases List.mem_cons.1 hj with rfl | hj
    · exact hk hR
    · exact h j hj (.inr hR)
  by_cases hres : Resolved ((Interpretation.visit r tree k).run.run []).1
  · obtain ⟨c, hc⟩ := (content_or_cut (hdeep [])).resolve_right fun ⟨u, hu⟩ => resolved_error.1 (hu ▸ hres) u rfl
    obtain ⟨hfirst, -⟩ := alone_of_content htree hk hvisit hc
    refine ⟨hwalks, fun _ busy wear s hb hs => ?_, fun hcut => absurd (hfirst ▸ trivial) hcut⟩
    obtain ⟨s', hrun, horderly, hkeys⟩ := opening_content htree hvisit hc (hbusy hb).1 (hbusy hb).2 hs
    rw [hrun, hfirst]
    exact ⟨rfl, horderly, hkeys⟩
  · obtain ⟨hfirst, -⟩ := alone_of_cut htree hk hvisit hdeep hres
    refine ⟨hwalks, fun h => absurd h hfirst, fun _ busy wear s hb hs => ?_⟩
    exact opening_cut htree hvisit hdeep hres (hbusy hb).1 (hbusy hb).2 hs

end Definitions

/-! ## Documents -/

/-- The interpretation of a part of the document is that of a level, over the interpretation itself. -/
theorem visit_eq_level (hr : r.Serves d.root) {tree : Tree} (htree : tree.PartOf d.root) (id : SchemaId) :
    visit r tree id = level r (visit r) tree id := by
  funext s
  have hnode : node r (bound d.root + 1) tree id = level r (visit r) tree id := by
    rw [visit, hr.root_eq]
    rfl
  rw [← hnode]
  exact (visit_deeper hr htree id (Nat.le_succ _) s).symm

/-- The interpretation of a part of the document is uniform if all definitions that are reached from it are opened
uniformly. -/
theorem visit_uniform (hr : r.Serves d.root) (tree : Tree) (htree : tree.PartOf d.root) (id : SchemaId)
    (hdefinitions : ∀ k, d.Reaches tree k → Uniform r d (ReflTransGen d.Edge k) (opening r d k)) :
    Uniform r d (d.Reaches tree) (visit r tree id) := by
  induction hsize : tree.size using Nat.strongRecOn generalizing tree id with
  | _ size ih =>
    subst hsize
    rw [visit_eq_level hr htree]
    refine (level_confined tree id).uniform (fun part id hpart => ?_) fun text holder hfollows => ?_
    · obtain ⟨hpartOf, hlt⟩ := hpart.partOf
      have hinside (k : SchemaId) (hk : d.Reaches part k) : d.Reaches tree k := by
        obtain ⟨j, ⟨text, found, hleads, hresolve, hj⟩, hjk⟩ := hk
        exact ⟨j, ⟨text, found, .inside hpart hleads, hresolve, hj⟩, hjk⟩
      exact (ih _ hlt part (hpartOf.trans htree) id (fun k hk => hdefinitions k (hinside k hk)) rfl).mono hinside
    · unfold reference
      cases hfind : r.find text holder.pointer with
      | error u => exact .cut
      | ok found =>
        have hchase := hr.faithful.chase_of_find hfind
        rw [hr.root_eq, hr.bound_eq] at hchase
        have hleads : d.LeadsTo tree ⟨found.pointer⟩ := by
          refine ⟨text, found, .own hfollows, ?_, rfl⟩
          rw [Reference.resolve, hchase]
          rfl
        have htarget : d.tree? ⟨found.pointer⟩ = some found.node :=
          Document.tree?_of_lookup (Reference.chase_spec hchase).2.1
        have hopening := hdefinitions ⟨found.pointer⟩ ⟨_, hleads, .refl⟩
        rw [opening_eq htarget] at hopening
        exact (hopening.mono fun k hk => ⟨_, hleads, hk⟩).bind fun _ => .pure

theorem not_rel_self_of_acc {rel : γ → γ → Prop} {a : γ} (h : Acc rel a) : ¬ rel a a := by
  induction h with
  | intro a _ ih => exact fun haa => ih a haa haa

/-- Along edges that can be followed only so far, definitions are opened uniformly. -/
theorem opening_uniform (hr : r.Serves d.root) {k : SchemaId} (hk : Acc (fun k j => TransGen d.Edge j k) k) :
    Uniform r d (ReflTransGen d.Edge k) (opening r d k) := by
  induction hk with
  | intro k hacc ih =>
    cases htree : d.tree? k with
    | none =>
      rw [opening, htree]
      exact .pure
    | some tree =>
      have hpart := Document.partOf_of_tree? htree
      have hreaches (j : SchemaId) (hj : d.Reaches tree j) : TransGen d.Edge k j := by
        obtain ⟨i, hleads, hij⟩ := hj
        exact .head' ⟨tree, htree, hleads⟩ hij
      have hself : ¬ TransGen d.Edge k k := fun h => not_rel_self_of_acc (hacc k h) h
      have hcycle : ¬ d.Reaches tree k := fun hkk => hself (hreaches k hkk)
      have hvisit := visit_uniform hr tree hpart k fun j hj => ih j (hreaches j hj)
      refine (uniform_of_visit htree hcycle hvisit (visit_halts hr hpart k).never_tooDeep).mono fun j hj => ?_
      rcases hj with rfl | hj
      · exact .refl
      · exact (hreaches j hj).to_reflTransGen

end Interpretation

end ContractBindings
