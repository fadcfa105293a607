import ContractBindings.Proofs.Ending
import ContractBindings.Proofs.Reference.Resolved
import ContractBindings.Proofs.Schema.Placement

/-!
# Interpretation at a place

Every part of interpretation keeps the definitions it finds, finishes those that it opens, and puts what it makes at its
place (`Lands`). This is kept by sequencing, by walks over lists, and by opening a definition and finishing it
(`define_lands`), wherever the interpretation of the levels below lands.
-/

namespace ContractBindings

open SchemaId

namespace Interpretation

/-- An interpretation at a place: definitions grow, and what it answers is as told where nothing that is stored stands
below the place. A failure that is no schema error ends the run and tells nothing. -/
def Lands (id : SchemaId) (x : Interpretation α) (post : α → Slots → Prop) : Prop :=
  ∀ s : Slots, s.Good →
    Ends x s (fun a s' => s.Grows s' ∧ s'.Good ∧ (s'.Ready id → post a s'))
      fun e s' => ∀ err, e = .schema err → s.Grows s' ∧ s'.Good

/-- What is told stays true while definitions grow. -/
def Steady (post : α → Slots → Prop) : Prop := ∀ {a s s'}, Slots.Extends s s' → post a s → post a s'

theorem steady_shapeAt (id : SchemaId) : Steady fun shape s => ShapeAt s id shape := fun hs h => h.mono hs

theorem steady_nodeAt (id : SchemaId) : Steady fun n s => NodeAt s id n := fun hs h => h.mono hs

namespace Lands

variable {id j : SchemaId} {x : Interpretation α} {P P' : α → Slots → Prop} {Q : β → Slots → Prop}

theorem pure {a : α} (h : ∀ s : Slots, s.Ready id → P a s) : Lands id (Pure.pure a) P :=
  fun s hs => ends_pure.2 ⟨.refl s, hs, h s⟩

theorem throw {e : InterpretError} : Lands id (MonadExcept.throw e : Interpretation α) P :=
  fun s hs => ends_throw.2 fun _ _ => ⟨.refl s, hs⟩

theorem mono (hx : Lands id x P) (h : ∀ a s, Slots.Ready s id → P a s → P' a s) : Lands id x P' :=
  fun s hs => (hx s hs).mono (fun a s' ⟨hg, hgood, hp⟩ => ⟨hg, hgood, fun hr => h a s' hr (hp hr)⟩) fun _ _ h => h

/-- What lands within a place lands at the place. -/
theorem inside (hx : Lands j x P) (hj : Within id j) : Lands id x P :=
  fun s hs => (hx s hs).mono (fun _ _ ⟨hg, hgood, hp⟩ => ⟨hg, hgood, fun hr => hp (hr.within hj)⟩) fun _ _ h => h

/-- Nothing is told of what is done elsewhere. -/
theorem elsewhere (hx : Lands j x P) : Lands id x fun _ _ => True :=
  fun s hs => (hx s hs).mono (fun _ _ ⟨hg, hgood, _⟩ => ⟨hg, hgood, fun _ => trivial⟩) fun _ _ h => h

theorem bind {f : α → Interpretation β} (hx : Lands id x P) (hP : Steady P)
    (hf : ∀ a, Lands id (f a) fun b s => P a s → Q b s) : Lands id (x >>= f) Q := by
  intro s hs
  refine ends_bind.2 ((hx s hs).mono ?_ fun _ _ h => h)
  rintro a s' ⟨hg, hgood, hp⟩
  refine (hf a s' hgood).mono ?_ ?_
  · rintro b s'' ⟨hg', hgood', hq⟩
    exact ⟨hg.trans hg', hgood', fun hr => hq hr (hP hg'.toExtends (hp (hr.back hg' hgood)))⟩
  · intro e s'' h err he
    obtain ⟨hg', hgood'⟩ := h err he
    exact ⟨hg.trans hg', hgood'⟩

theorem map {f : α → β} (hx : Lands id x fun a s => Q (f a) s) : Lands id (f <$> x) Q :=
  fun s hs => ends_map.2 (hx s hs)

/-- The definitions at a point of the interpretation. -/
theorem get : Lands id (MonadStateOf.get : Interpretation Slots) fun found s => Slots.Extends found s :=
  fun s hs => ends_get.2 ⟨.refl s, hs, fun _ => ⟨fun h => h, fun h => h⟩⟩

theorem ofSchema {e : Except SchemaError α} (h : ∀ a, e = .ok a → ∀ s : Slots, s.Ready id → P a s) :
    Lands id (Interpretation.ofSchema e) P := by
  cases e with
  | error e => exact throw
  | ok a => exact pure (h a rfl)

/-- A walk over a list, where each item makes a node at a place of its own. -/
theorem mapM {f : γ → Interpretation SchemaNode} (place : γ → SchemaId)
    (hf : ∀ c, Lands id (f c) fun n s => NodeAt s (place c) n) : ∀ items : List γ,
      Lands id (items.mapM f) fun nodes s =>
        nodes.map SchemaNode.id = items.map place ∧ ∀ n ∈ nodes, ShapeAt s n.id n.shape
  | [] => by
    rw [List.mapM_nil]
    exact pure fun s _ => by simp
  | c :: items => by
    rw [List.mapM_cons]
    refine bind (hf c) (steady_nodeAt _) fun n => ?_
    refine bind (mapM place hf items) ?_ fun nodes => pure fun s _ hnodes hn => ?_
    · exact fun hs h => ⟨h.1, fun n hn => (h.2 n hn).mono hs⟩
    · refine ⟨by simp [hn.id_eq, hnodes.1], fun m hm => ?_⟩
      rcases List.mem_cons.1 hm with rfl | hm
      · exact hn.id_eq ▸ hn.shape
      · exact hnodes.2 m hm

/-- A walk over a list that adds to a result: what each step keeps of the result, then and later, all of them keep. -/
theorem foldlM {f : β → γ → Interpretation β}
    (hf : ∀ b c, Lands id (f b c) fun b' s => ∀ {s'}, Slots.Extends s s' → Q b s' → Q b' s') :
    ∀ (items : List γ) (b : β),
      Lands id (items.foldlM f b) fun b' s => ∀ {s'}, Slots.Extends s s' → Q b s' → Q b' s'
  | [], b => by
    rw [List.foldlM_nil]
    exact pure fun _ _ _ _ h => h
  | c :: items, b => by
    rw [List.foldlM_cons]
    refine bind (hf b c) ?_ fun b' => (foldlM hf items b').mono fun b'' s _ hlast hfirst s' hs hb => ?_
    · exact fun hs h _ hs' hb => h (hs.trans hs') hb
    · exact hlast hs (hfirst hs hb)

end Lands

/-! ## Definitions -/

section Levels

variable {r : Resolver} {visit : Visit}

/-- Catching runs the interpretation and makes its schema error an answer. -/
theorem run_catchSchema {x : Interpretation α} {s : Slots} : ∀ p, x.run.run s = p →
    (catchSchema x).run.run s =
      match p with
      | (.ok a, s') => (.ok (.ok a), s')
      | (.error (.schema e), s') => (.ok (.error e), s')
      | (.error e, s') => (.error e, s') := by
  rintro ⟨e | a, s'⟩ hx
  all_goals
    dsimp only [catchSchema, tryCatch, tryCatchThe, MonadExceptOf.tryCatch, ExceptT.run, StateT.run, Bind.bind,
      ExceptT.tryCatch, ExceptT.bind, ExceptT.mk, ExceptT.bindCont, StateT.bind, Pure.pure, StateT.pure, ExceptT.pure]
    rw [show x s = _ from hx]
  · cases e <;> rfl
  · rfl

/-- A schema error becomes part of the answer. -/
theorem ends_catchSchema {x : Interpretation α} {s : Slots} {ok : Except SchemaError α → Slots → Prop}
    {failed : InterpretError → Slots → Prop}
    (h : Ends x s (fun a s' => ok (.ok a) s') fun e s' =>
      (∀ err, e = .schema err → ok (.error err) s') ∧ ((∀ err, e ≠ .schema err) → failed e s')) :
    Ends (catchSchema x) s ok failed := by
  unfold Ends at h ⊢
  rcases hx : x.run.run s with ⟨e | a, s'⟩ <;> simp only [hx] at h <;> rw [run_catchSchema _ hx]
  · cases e with
    | schema e => exact h.1 e rfl
    | unresolved u => exact h.2 (by simp)
    | tooDeep => exact h.2 (by simp)
  · exact h

/-- A definition that is opened has no content yet. -/
theorem good_upsert_none {s : Slots} {k : SchemaId} (hs : s.Good) (hk : k ∉ s.map (·.1)) :
    Slots.Good (upsert s k none) := by
  intro hd x n hx
  have hne : x ≠ k := by
    rintro rfl
    rw [Slots.Finished, lookup_upsert_self] at hx
    cases hx
  have hdirect : s.Direct := fun y hy => hd y ((mem_keys_upsert s).2 (.inl hy))
  rw [Slots.Finished, lookup_upsert_of_ne hne] at hx
  refine (hs hdirect hx).mono ⟨fun {y m} hy => ?_, fun hy => (mem_keys_upsert s).2 (.inl hy)⟩
  have hne' : y ≠ k := by
    rintro rfl
    exact hk (lookup_isSome_iff.1 (by rw [Slots.Finished] at hy; simp [hy]))
  rwa [Slots.Finished, lookup_upsert_of_ne hne']

/-- A definition that was open is finished with what stands at its place. -/
theorem good_upsert_some {s : Slots} {k : SchemaId} {answer : Except SchemaError SchemaNode} (hs : s.Good)
    (hk : s.lookup k = some none) (hanswer : ∀ n, answer = .ok n → s.Ready k → NodeAt s k n) :
    Slots.Good (upsert s k (some answer)) := by
  intro hd x n hx
  have hdirect : s.Direct := fun y hy => hd y ((mem_keys_upsert s).2 (.inl hy))
  have hext : s.Extends (upsert s k (some answer)) := by
    refine ⟨fun {y m} hy => ?_, fun hy => (mem_keys_upsert s).2 (.inl hy)⟩
    have hne : y ≠ k := by
      rintro rfl
      rw [Slots.Finished, hk] at hy
      cases hy
    rwa [Slots.Finished, lookup_upsert_of_ne hne]
  by_cases hxk : x = k
  · rw [Slots.Finished, hxk, lookup_upsert_self] at hx
    rw [hxk]
    exact (hanswer n (by simpa using hx) ⟨hs, hdirect, Slots.not_below_of_sheltered hdirect ⟨k, hk, .inl rfl⟩⟩).mono hext
  · rw [Slots.Finished, lookup_upsert_of_ne hxk] at hx
    exact (hs hdirect hx).mono hext

/-- From before a definition is opened to after it is finished. -/
theorem grows_define {s s' : Slots} {k : SchemaId} {answer : Except SchemaError SchemaNode} (hk : k ∉ s.map (·.1))
    (hrooted : k.pointer.toList.head? = some '#') (h : Slots.Grows (upsert s k none) s') :
    s.Grows (upsert s' k (some answer)) where
  isPrefix := by
    obtain ⟨later, rfl⟩ := h.isPrefix
    rw [upsert_of_not_mem hk, List.append_assoc, upsert_append_of_not_mem hk]
    exact List.prefix_append _ _
  kept {x v} hx := by
    have hne : x ≠ k := by
      rintro rfl
      exact hk (lookup_isSome_iff.1 (by simp [hx]))
    rw [lookup_upsert_of_ne hne]
    exact h.kept (by rwa [lookup_upsert_of_ne hne])
  closed {x} hx := by
    by_cases hne : x = k
    · rw [hne, lookup_upsert_self] at hx
      cases hx
    · rw [lookup_upsert_of_ne hne] at hx
      have := h.closed hx
      rwa [lookup_upsert_of_ne hne] at this
  nodup hn := nodup_upsert (h.nodup (nodup_upsert hn))
  rooted x hx := by
    rcases (mem_keys_upsert s').1 hx with hx | rfl
    · rcases h.rooted x hx with hx | hx
      · rcases (mem_keys_upsert s).1 hx with hx | rfl
        · exact .inl hx
        · exact .inr hrooted
      · exact .inr hx
    · exact .inr hrooted

/-- Opening a definition and finishing it. -/
theorem define_lands (hvisit : ∀ tree id, Lands id (visit tree id) fun n s => NodeAt s id n) (id : SchemaId)
    {k : SchemaId} (tree : Tree) (hk : k.pointer.toList.head? = some '#') :
    Lands id (define visit k tree) fun _ s => k ∈ s.map (·.1) := by
  intro s hs
  rw [define]
  refine ends_bind.2 (ends_get.2 ?_)
  split
  · next hopen =>
    have hnew : k ∉ s.map (·.1) := by
      rw [← lookup_isSome_iff]
      rw [Slots.isOpen] at hopen
      simp only [Bool.not_eq_eq_eq_not, Bool.not_true] at hopen
      simp [hopen]
    refine ends_bind.2 (ends_modify.2 (ends_bind.2 (ends_catchSchema ?_)))
    refine (hvisit tree k _ (good_upsert_none hs hnew)).mono ?_ ?_
    · rintro n s' ⟨hg, hgood, hn⟩
      refine ends_modify.2 ⟨grows_define hnew hk hg, ?_, fun _ => (mem_keys_upsert s').2 (.inr rfl)⟩
      refine good_upsert_some hgood (hg.kept (lookup_upsert_self s)) fun n' hn' hr => ?_
      cases hn'
      exact hn hr
    · intro e s' h
      refine ⟨fun err he => ends_modify.2 ?_, fun hne => fun err he => absurd he (hne err)⟩
      obtain ⟨hg, hgood⟩ := h err he
      refine ⟨grows_define hnew hk hg, ?_, fun _ => (mem_keys_upsert s').2 (.inr rfl)⟩
      exact good_upsert_some hgood (hg.kept (lookup_upsert_self s)) fun n' hn' => by cases hn'
  · next hopen =>
    refine ends_pure.2 ⟨.refl s, hs, fun _ => lookup_isSome_iff.1 ?_⟩
    rw [Slots.isOpen] at hopen
    simpa using hopen

/-- A reference leads to a definition. -/
theorem reference_lands (hr : r.Rooted) (hvisit : ∀ tree id, Lands id (visit tree id) fun n s => NodeAt s id n)
    (id : SchemaId) (target : String) (holder : SchemaId) :
    Lands id (reference r visit target holder) fun k s => k ∈ s.map (·.1) := by
  rw [reference]
  split
  · next found hfound =>
    refine Lands.bind (define_lands hvisit id found.node (hr _ _ _ hfound)) ?_ fun _ => Lands.pure fun s _ h => h
    exact fun hs h => hs.opened h
  · exact Lands.throw

end Levels

end Interpretation

end ContractBindings
