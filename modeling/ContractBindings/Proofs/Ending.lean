import Mathlib.Data.List.Defs

/-!
# How a computation ends

Computations here keep a state and may fail, and the state counts also where they fail. `Ends x s ok failed` says how
`x` ends from the state `s`: with an answer that `ok` holds of or with a failure that `failed` holds of, each together
with the state after it. The rules below take a computation apart from its first step on, so what a program does is
read off its text.
-/

namespace ContractBindings

variable {ε σ α β : Type} {s : σ}

/-- From a state, a computation ends in an answer or in a failure as told. -/
def Ends (x : ExceptT ε (StateM σ) α) (s : σ) (ok : α → σ → Prop) (failed : ε → σ → Prop) : Prop :=
  match x.run.run s with
  | (.ok a, s') => ok a s'
  | (.error e, s') => failed e s'

theorem Ends.mono {x : ExceptT ε (StateM σ) α} {ok ok' : α → σ → Prop} {failed failed' : ε → σ → Prop}
    (h : Ends x s ok failed) (hok : ∀ a s', ok a s' → ok' a s') (hf : ∀ e s', failed e s' → failed' e s') :
    Ends x s ok' failed' := by
  unfold Ends at *
  rcases hx : x.run.run s with ⟨a | a, s'⟩ <;> simp only [hx] at h ⊢
  · exact hf _ _ h
  · exact hok _ _ h

theorem Ends.and {x : ExceptT ε (StateM σ) α} {ok ok' : α → σ → Prop} {failed failed' : ε → σ → Prop}
    (h : Ends x s ok failed) (h' : Ends x s ok' failed') :
    Ends x s (fun a s' => ok a s' ∧ ok' a s') fun e s' => failed e s' ∧ failed' e s' := by
  unfold Ends at *
  rcases hx : x.run.run s with ⟨a | a, s'⟩ <;> simp only [hx] at h h' ⊢ <;> exact ⟨h, h'⟩

/-- A computation ends as it runs. -/
theorem Ends.self {x : ExceptT ε (StateM σ) α} :
    Ends x s (fun a s' => x.run.run s = (.ok a, s')) fun e s' => x.run.run s = (.error e, s') := by
  unfold Ends
  split <;> assumption

theorem Ends.trivial {x : ExceptT ε (StateM σ) α} : Ends x s (fun _ _ => True) fun _ _ => True := by
  unfold Ends
  split <;> exact True.intro

/-- What is told of the answer holds of the answer that is given. -/
theorem Ends.answer {x : ExceptT ε (StateM σ) α} {ok : α → σ → Prop} {failed : ε → σ → Prop} (h : Ends x s ok failed)
    {a : α} {s' : σ} (hx : x.run.run s = (.ok a, s')) : ok a s' := by
  simpa only [Ends, hx] using h

/-- What is told of the failure holds of the failure that arises. -/
theorem Ends.failure {x : ExceptT ε (StateM σ) α} {ok : α → σ → Prop} {failed : ε → σ → Prop} (h : Ends x s ok failed)
    {e : ε} {s' : σ} (hx : x.run.run s = (.error e, s')) : failed e s' := by
  simpa only [Ends, hx] using h

/-- A computation ends as one that runs the same from the state. -/
theorem Ends.of_run_eq {x y : ExceptT ε (StateM σ) α} {ok : α → σ → Prop} {failed : ε → σ → Prop}
    (hrun : x.run.run s = y.run.run s) (h : Ends y s ok failed) : Ends x s ok failed := by
  unfold Ends at *
  rwa [hrun]

/-- After an answer a computation goes on from the state then. -/
theorem run_bind_of_ok {x : ExceptT ε (StateM σ) α} {f : α → ExceptT ε (StateM σ) β} {a : α} {s' : σ}
    (h : x.run.run s = (.ok a, s')) : (x >>= f).run.run s = (f a).run.run s' := by
  simp only [ExceptT.run_bind, StateT.run_bind, h]
  rfl

/-- An answer of a sequence is one of its second part, after an answer of the first. -/
theorem of_run_bind {x : ExceptT ε (StateM σ) α} {f : α → ExceptT ε (StateM σ) β} {b : β} {t : σ}
    (h : (x >>= f).run.run s = (.ok b, t)) : ∃ a s', x.run.run s = (.ok a, s') ∧ (f a).run.run s' = (.ok b, t) := by
  rcases hx : x.run.run s with ⟨a | a, s'⟩
  · simp only [ExceptT.run_bind, StateT.run_bind, hx] at h
    cases h
  · exact ⟨a, s', rfl, (run_bind_of_ok hx).symm.trans h⟩

/-- After a failure nothing more is done. -/
theorem run_bind_of_error {x : ExceptT ε (StateM σ) α} {f : α → ExceptT ε (StateM σ) β} {e : ε} {s' : σ}
    (h : x.run.run s = (.error e, s')) : (x >>= f).run.run s = (.error e, s') := by
  simp only [ExceptT.run_bind, StateT.run_bind, h]
  rfl

section Steps

variable {ok : β → σ → Prop} {failed : ε → σ → Prop}

@[simp]
theorem ends_pure {b : β} : Ends (pure b) s ok failed ↔ ok b s := Iff.rfl

@[simp]
theorem ends_throw {e : ε} : Ends (throw e : ExceptT ε (StateM σ) β) s ok failed ↔ failed e s := Iff.rfl

@[simp]
theorem ends_bind {x : ExceptT ε (StateM σ) α} {f : α → ExceptT ε (StateM σ) β} :
    Ends (x >>= f) s ok failed ↔ Ends x s (fun a s' => Ends (f a) s' ok failed) failed := by
  unfold Ends
  simp only [ExceptT.run_bind, StateT.run_bind]
  rcases h : x.run.run s with ⟨a | a, s'⟩ <;> rfl

/-- What holds of every answer of a continuation holds after any first step. -/
theorem Ends.after {x : ExceptT ε (StateM σ) α} {f : α → ExceptT ε (StateM σ) β}
    (h : ∀ a s', Ends (f a) s' ok fun _ _ => True) : Ends (x >>= f) s ok fun _ _ => True :=
  ends_bind.2 (Ends.trivial.mono (fun a s' _ => h a s') fun _ _ _ => True.intro)

@[simp]
theorem ends_map {x : ExceptT ε (StateM σ) α} {f : α → β} :
    Ends (f <$> x) s ok failed ↔ Ends x s (fun a s' => ok (f a) s') failed := by
  unfold Ends
  simp only [ExceptT.run_map, StateT.run_map]
  rcases h : x.run.run s with ⟨a | a, s'⟩ <;> rfl

@[simp]
theorem ends_get {ok : σ → σ → Prop} : Ends (get : ExceptT ε (StateM σ) σ) s ok failed ↔ ok s s := Iff.rfl

@[simp]
theorem ends_set {t : σ} {ok : PUnit → σ → Prop} :
    Ends (set t : ExceptT ε (StateM σ) PUnit) s ok failed ↔ ok ⟨⟩ t := Iff.rfl

@[simp]
theorem ends_modify {f : σ → σ} {ok : Unit → σ → Prop} :
    Ends (modify f : ExceptT ε (StateM σ) Unit) s ok failed ↔ ok () (f s) := Iff.rfl

@[simp]
theorem ends_modifyGet {f : σ → β × σ} :
    Ends (modifyGet f : ExceptT ε (StateM σ) β) s ok failed ↔ ok (f s).1 (f s).2 := Iff.rfl

end Steps

/-! ## From every state -/

/-- From every state, a computation ends in an answer or in a failure as told. -/
def Yields (x : ExceptT ε (StateM σ) α) (ok : α → Prop) (failed : ε → Prop) : Prop :=
  ∀ s, Ends x s (fun a _ => ok a) fun e _ => failed e

namespace Yields

variable {γ : Type} {ok : α → Prop} {ok' : β → Prop} {failed : ε → Prop} {x : ExceptT ε (StateM σ) α}
  {f : α → ExceptT ε (StateM σ) β}

theorem pure {a : α} (h : ok a) : Yields (Pure.pure a : ExceptT ε (StateM σ) α) ok failed := fun _ => ends_pure.2 h

theorem throw {e : ε} (h : failed e) : Yields (MonadExcept.throw e : ExceptT ε (StateM σ) α) ok failed :=
  fun _ => ends_throw.2 h

theorem bind (hx : Yields x ok failed) (hf : ∀ a, ok a → Yields (f a) ok' failed) : Yields (x >>= f) ok' failed :=
  fun s => ends_bind.2 ((hx s).mono (fun a s' ha => hf a ha s') fun _ _ h => h)

/-- Sequencing, where nothing is told of the first answer. -/
theorem after (hx : Yields x (fun _ => True) failed) (hf : ∀ a, Yields (f a) ok' failed) :
    Yields (x >>= f) ok' failed := hx.bind fun a _ => hf a

theorem trivial : Yields x (fun _ => True) fun _ => True := fun _ => Ends.trivial

/-- What each step of a walk over a list keeps of a result, the walk keeps. -/
theorem foldlM_keeps {f : β → γ → ExceptT ε (StateM σ) β} : ∀ items : List γ,
    (∀ c ∈ items, ∀ b, ok' b → Yields (f b c) ok' failed) → ∀ b, ok' b → Yields (items.foldlM f b) ok' failed
  | [], _, b, hb => by
    rw [List.foldlM_nil]
    exact pure hb
  | c :: items, h, b, hb => by
    rw [List.foldlM_cons]
    exact (h c List.mem_cons_self b hb).bind fun b' hb' =>
      foldlM_keeps items (fun d hd => h d (List.mem_cons_of_mem _ hd)) b' hb'

theorem foldlM {f : β → γ → ExceptT ε (StateM σ) β} (items : List γ)
    (h : ∀ c ∈ items, ∀ b, Yields (f b c) (fun _ => True) failed) (b : β) :
    Yields (items.foldlM f b) (fun _ => True) failed :=
  foldlM_keeps items (fun c hc b _ => h c hc b) b True.intro

theorem forM {f : γ → ExceptT ε (StateM σ) PUnit} : ∀ items : List γ,
    (∀ c ∈ items, Yields (f c) (fun _ => True) failed) → Yields (items.forM f) (fun _ => True) failed
  | [], _ => pure True.intro
  | c :: items, h =>
    (h c List.mem_cons_self).after fun _ => forM items fun d hd => h d (List.mem_cons_of_mem _ hd)

end Yields

/-! ## Invariants -/

/-- From every state with a property, a computation ends in one with it, and in an answer as told. -/
def Keeps (I : σ → Prop) (x : ExceptT ε (StateM σ) α) (ok : α → Prop) : Prop :=
  ∀ s, I s → Ends x s (fun a s' => I s' ∧ ok a) fun _ s' => I s'

namespace Keeps

variable {γ : Type} {I : σ → Prop} {ok : α → Prop} {ok' : β → Prop} {x : ExceptT ε (StateM σ) α}
  {f : α → ExceptT ε (StateM σ) β}

theorem pure {a : α} (h : ok a) : Keeps I (Pure.pure a : ExceptT ε (StateM σ) α) ok :=
  fun _ hs => ends_pure.2 ⟨hs, h⟩

theorem throw (e : ε) : Keeps I (MonadExcept.throw e : ExceptT ε (StateM σ) α) ok := fun _ hs => ends_throw.2 hs

theorem bind (hx : Keeps I x ok) (hf : ∀ a, ok a → Keeps I (f a) ok') : Keeps I (x >>= f) ok' :=
  fun s hs => ends_bind.2 ((hx s hs).mono (fun a s' h => hf a h.2 s' h.1) fun _ _ h => h)

theorem map {g : α → β} (hx : Keeps I x ok) (h : ∀ a, ok a → ok' (g a)) : Keeps I (g <$> x) ok' :=
  fun s hs => ends_map.2 ((hx s hs).mono (fun a _ ha => ⟨ha.1, h a ha.2⟩) fun _ _ h => h)

theorem modify {g : σ → σ} (h : ∀ s, I s → I (g s)) :
    Keeps I (modify g : ExceptT ε (StateM σ) Unit) fun _ => True := fun s hs => ends_modify.2 ⟨h s hs, trivial⟩

theorem get : Keeps I (get : ExceptT ε (StateM σ) σ) fun _ => True := fun _ hs => ends_get.2 ⟨hs, trivial⟩

theorem mono {ok' : α → Prop} (hx : Keeps I x ok) (h : ∀ a, ok a → ok' a) : Keeps I x ok' :=
  fun s hs => (hx s hs).mono (fun a _ ha => ⟨ha.1, h a ha.2⟩) fun _ _ h => h

/-- Sequencing, where nothing is told of the first answer. -/
theorem after (hx : Keeps I x fun _ => True) (hf : ∀ a, Keeps I (f a) ok') : Keeps I (x >>= f) ok' :=
  hx.bind fun a _ => hf a

/-- What each step of a walk over a list keeps of a result, the walk keeps. -/
theorem foldlM {f : β → γ → ExceptT ε (StateM σ) β} : ∀ items : List γ,
    (∀ c ∈ items, ∀ b, ok' b → Keeps I (f b c) ok') → ∀ b, ok' b → Keeps I (items.foldlM f b) ok'
  | [], _, b, hb => by
    rw [List.foldlM_nil]
    exact pure hb
  | c :: items, h, b, hb => by
    rw [List.foldlM_cons]
    exact (h c List.mem_cons_self b hb).bind fun b' hb' =>
      foldlM items (fun d hd => h d (List.mem_cons_of_mem _ hd)) b' hb'

/-- A walk over a list that gives an answer for each item. -/
theorem mapM {R : γ → α → Prop} {f : γ → ExceptT ε (StateM σ) α} : ∀ items : List γ, (∀ c ∈ items, Keeps I (f c) (R c)) →
    Keeps I (items.mapM f) fun answers => List.Forall₂ R items answers
  | [], _ => by
    rw [List.mapM_nil]
    exact pure .nil
  | c :: items, h => by
    rw [List.mapM_cons]
    refine (h c List.mem_cons_self).bind fun a ha => ?_
    exact (mapM items fun d hd => h d (List.mem_cons_of_mem _ hd)).bind fun answers hanswers => .pure (.cons ha hanswers)

end Keeps

end ContractBindings
