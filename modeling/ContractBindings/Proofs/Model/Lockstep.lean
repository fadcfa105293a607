import ContractBindings.Proofs.Model.Outline
import ContractBindings.Proofs.Model.Traversal

/-!
# Lowering with more names taken

Lowering claims names and never looks at the registry otherwise. So with extra names taken it goes the same way, as long
as it is given none of them (`Follows`), and where it succeeds the names that it was given are those recorded
(`Steady`); both are kept by sequencing, and `lower_steady` says that lowering a schema has them.
-/

namespace ContractBindings

open Naming

/-- The names that an operation claims for its own types. -/
def OperationDef.names (o : OperationDef) : List String := [o.request, o.response, o.service]

namespace Lowering

variable {extra : String → Prop} {s s' s'' : Draft}

/-! ## Computations that go the same way -/

/-- A computation that keeps names taken and, with extra names taken, ends in the same way with the same draft but for the
registry, if it claims none of them. -/
structure Follows (extra : String → Prop) (x : Lower α) : Prop where
  registry_le : ∀ s : Draft, s.registry.Le (x.run.run s).2.registry
  same : ∀ (s : Draft) (r : Registry), r.Exceeds extra s.registry →
    (∀ form ∈ (x.run.run s).2.registry.taken, ¬ extra form) →
      ∃ r', r'.Exceeds extra (x.run.run s).2.registry ∧
        x.run.run { s with registry := r } = ((x.run.run s).1, { (x.run.run s).2 with registry := r' })

namespace Follows

variable {x : Lower α}

theorem pure (a : α) : Follows extra (Pure.pure a : Lower α) := ⟨fun _ => .refl _, fun _ r h _ => ⟨r, h, rfl⟩⟩

theorem throw (e : Diagnostic) : Follows extra (MonadExcept.throw e : Lower α) :=
  ⟨fun _ => .refl _, fun _ r h _ => ⟨r, h, rfl⟩⟩

theorem bind {f : α → Lower β} (hx : Follows extra x) (hf : ∀ a, Follows extra (f a)) : Follows extra (x >>= f) := by
  constructor
  · intro s
    have hle := hx.registry_le s
    rcases hrun : x.run.run s with ⟨e | a, t⟩
    · rw [run_bind_of_error hrun]
      rwa [hrun] at hle
    · rw [run_bind_of_ok hrun]
      rw [hrun] at hle
      exact hle.trans ((hf a).registry_le t)
  · intro s r hr hfree
    have hsame := hx.same s r hr
    rcases hrun : x.run.run s with ⟨e | a, t⟩
    · rw [run_bind_of_error hrun] at hfree ⊢
      rw [hrun] at hsame
      obtain ⟨r', hr', hrun'⟩ := hsame hfree
      exact ⟨r', hr', run_bind_of_error hrun'⟩
    · rw [run_bind_of_ok hrun] at hfree ⊢
      rw [hrun] at hsame
      obtain ⟨r', hr', hrun'⟩ := hsame fun form hform => hfree form ((hf a).registry_le t hform)
      obtain ⟨r'', hr'', hrun''⟩ := (hf a).same t r' hr' hfree
      exact ⟨r'', hr'', (run_bind_of_ok hrun').trans hrun''⟩

/-- What is read of a draft is not its registry. -/
theorem get_bind {f : Draft → Lower β} (hf : ∀ s, Follows extra (f s))
    (hsame : ∀ (s : Draft) (r : Registry), f { s with registry := r } = f s) : Follows extra (get >>= f) := by
  have hrun (s : Draft) : (get >>= f).run.run s = (f s).run.run s := run_bind_of_ok (x := get) rfl
  constructor
  · exact fun s => by
      rw [hrun]
      exact (hf s).registry_le s
  · intro s r hr hfree
    rw [hrun] at hfree ⊢
    obtain ⟨r', hr', hrun'⟩ := (hf s).same s r hr hfree
    refine ⟨r', hr', (hrun _).trans ?_⟩
    rw [hsame, hrun']

/-- A change of a draft that is not one of its registry. -/
theorem modify {f : Draft → Draft} (hf : ∀ s r, f { s with registry := r } = { f s with registry := r })
    (hregistry : ∀ s, (f s).registry = s.registry) : Follows extra (modifyThe Draft f : Lower Unit) := by
  constructor
  · intro s
    change s.registry.Le (f s).registry
    rw [hregistry]
    exact .refl _
  · intro s r hr _
    refine ⟨r, ?_, ?_⟩
    · change r.Exceeds extra (f s).registry
      rwa [hregistry]
    · change (Except.ok (), f { s with registry := r }) = (.ok (), { f s with registry := r })
      rw [hf]

theorem claim (base : String) : Follows extra (Lowering.claim base) := by
  constructor
  · exact fun s => s.registry.le_claim base
  · intro s r hr hfree
    obtain ⟨heq, hr'⟩ := hr.claim (hfree _ (s.registry.between_claim base).2)
    refine ⟨(r.claim base).2, hr', ?_⟩
    change (Except.ok (r.claim base).1, _) = (Except.ok (s.registry.claim base).1, _)
    rw [heq]
    rfl

end Follows

/-! ## Computations that record what they claim -/

/-- Names stay taken, and those that were claimed on the way are recorded. -/
structure Draft.Names (s s' : Draft) : Prop where
  registry_le : s.registry.Le s'.registry
  inlineNames_subset : s.inlineNames ⊆ s'.inlineNames
  recorded : ∀ form ∈ s'.registry.taken, form ∈ s.registry.taken ∨ form ∈ s'.inlineNames.map fun p => snakeCase p.2

theorem Draft.Names.refl (s : Draft) : Draft.Names s s := ⟨.refl _, List.Subset.refl _, fun _ h => .inl h⟩

theorem Draft.Names.trans (h : Draft.Names s s') (h' : Draft.Names s' s'') : Draft.Names s s'' where
  registry_le := h.registry_le.trans h'.registry_le
  inlineNames_subset := List.Subset.trans h.inlineNames_subset h'.inlineNames_subset
  recorded := by
    intro form hform
    rcases h'.recorded form hform with hform | hform
    · exact (h.recorded form hform).imp_right fun hform => List.map_subset _ h'.inlineNames_subset hform
    · exact .inr hform

/-- A computation that goes the same way with extra names taken and, where it succeeds, has recorded the names that it
was given. -/
structure Steady (extra : String → Prop) (x : Lower α) : Prop extends Follows extra x where
  names : ∀ s, Ends x s (fun _ s' => Draft.Names s s') fun _ _ => True

namespace Steady

variable {x : Lower α} {c : Context}

theorem pure (a : α) : Steady extra (Pure.pure a : Lower α) := ⟨.pure a, fun s => ends_pure.2 (.refl s)⟩

theorem throw (e : Diagnostic) : Steady extra (MonadExcept.throw e : Lower α) :=
  ⟨.throw e, fun _ => ends_throw.2 trivial⟩

theorem bind {f : α → Lower β} (hx : Steady extra x) (hf : ∀ a, Steady extra (f a)) : Steady extra (x >>= f) where
  toFollows := hx.toFollows.bind fun a => (hf a).toFollows
  names s := by
    refine ends_bind.2 ((hx.names s).mono (fun a s' h => ?_) fun _ _ _ => trivial)
    exact ((hf a).names s').mono (fun _ _ h' => h.trans h') fun _ _ _ => trivial

theorem map {f : α → β} (hx : Steady extra x) : Steady extra (f <$> x) := by
  rw [map_eq_pure_bind]
  exact hx.bind fun a => pure (f a)

theorem warn (code : DiagnosticCode) (message : String) : Steady extra (Lowering.warn c code message) where
  toFollows := .modify (fun _ _ => rfl) fun _ => rfl
  names _ := ends_modify.2 ⟨.refl _, List.Subset.refl _, fun _ h => .inl h⟩

/-- A computation is steady if it is steady to lower the nodes that it lowers. -/
theorem of_traverses {position : Position} {nodes : List SchemaNode} (h : Traverses c position nodes x)
    (hnodes : ∀ m ∈ nodes, ∀ hint, Steady extra (lower c hint position m)) : Steady extra x := by
  induction h with
  | pure a => exact pure a
  | throw e => exact throw e
  | warn code message => exact warn code message
  | node hint n => exact hnodes n List.mem_cons_self hint
  | bind _ _ ihx ihf =>
    obtain ⟨hfirst, hsecond⟩ := List.forall_mem_append.1 hnodes
    exact (ihx hfirst).bind fun a => ihf a hsecond

theorem of_quiet (h : Traverses c .nested [] x) : Steady extra x :=
  of_traverses h fun _ hm => by cases hm

theorem known? (node : SchemaNode) (position : Position) : Steady extra (Lowering.known? c node position) := by
  unfold Lowering.known?
  dsimp only
  split
  · exact (of_quiet (.unknownShape _ _)).map
  · split
    · exact (of_quiet (.useDefinition _)).bind fun _ => pure _
    · constructor
      · refine .get_bind (fun s => ?_) fun s r => rfl
        split
        · exact .pure _
        · exact .pure _
      · refine fun s => ends_bind.2 (ends_get.2 ?_)
        split
        · exact ends_pure.2 (.refl s)
        · exact ends_pure.2 (.refl s)

/-- A name is recorded where it is claimed for a node. -/
theorem defineInline {id : SchemaId} {title doc : Option String} {hint : String} {body : String → Lower TypeBody}
    (hbody : ∀ name, Steady extra (body name)) :
    Steady extra (Lowering.defineInline id title doc hint body) where
  toFollows := by
    refine (Follows.claim _).bind fun name => Follows.bind (.modify (fun _ _ => rfl) fun _ => rfl) fun _ => ?_
    refine .get_bind (fun s => (hbody name).toFollows.bind fun b => ?_) fun s r => rfl
    exact Follows.bind (.modify (fun _ _ => rfl) fun _ => rfl) fun _ => .pure _
  names := by
    intro s
    rw [ends_defineInline]
    refine ((hbody _).names _).mono (fun b s' h => ?_) fun _ _ _ => trivial
    refine ⟨(s.registry.le_claim _).trans h.registry_le, fun p hp => h.inlineNames_subset (List.mem_append_left _ hp), ?_⟩
    · intro form hform
      rcases h.recorded form hform with hform | hform
      · rcases List.mem_cons.1 hform with rfl | hform
        · refine .inr (List.mem_map.2 ⟨_, h.inlineNames_subset (List.mem_append_right _ List.mem_cons_self), rfl⟩)
        · exact .inl hform
      · exact .inr hform

end Steady

/-! ## Lowering -/

/-- Lowering a node goes the same way with extra names taken. -/
theorem lower_steady (c : Context) (extra : String → Prop) (n : SchemaNode) : ∀ hint position,
    Steady extra (lower c hint position n) := by
  induction n using SchemaNode.inductionOnChildren with
  | step n ih =>
    have hinside {α : Type} {x : Lower α} (h : Traverses c .nested n.shape.children x) : Steady extra x :=
      .of_traverses h fun m hm hint => ih m hm hint .nested
    obtain ⟨id, title, description, nullable, shape⟩ := n
    intro hint position
    rw [lower]
    refine (Steady.known? _ position).bind fun type => ?_
    cases type with
    | some type => exact .pure _
    | none =>
      dsimp only
      split
      · next hcomposite =>
        refine (Steady.map (Steady.defineInline fun name => ?_)).bind fun _ => .pure _
        exact hinside (compose_traverses c id name hcomposite)
      · next hplain =>
        exact (hinside (describe_traverses c id hint position (Bool.eq_false_iff.2 hplain))).bind fun _ => .pure _

theorem Traverses.steady {c : Context} {position : Position} {nodes : List SchemaNode} {x : Lower α}
    (h : Traverses c position nodes x) (extra : String → Prop) : Steady extra x :=
  .of_traverses h fun m _ hint => lower_steady c extra m hint position

/-- An operation is lowered in the same way with extra names taken, if it is given none of them. -/
theorem lowerOperation_follows (c : Context) (extra : String → Prop) (o : Operation) :
    Follows extra (lowerOperation c o) := by
  obtain ⟨rest, hrest, heq⟩ := lowerOperation_traverses c o
  rw [heq]
  refine (Follows.claim _).bind fun request => (Follows.claim _).bind fun response => ?_
  exact (Follows.claim _).bind fun service => ((hrest request response service).steady extra).toFollows

/-- A claim is given a new name, and takes no other. -/
theorem claim_ends (base : String) (s : Draft) : Ends (claim base) s (fun name s' =>
    Registry.Between s.registry s'.registry name ∧ s.registry.Le s'.registry ∧
      ∀ form ∈ s'.registry.taken, form ∈ s.registry.taken ∨ form = snakeCase name) fun _ _ => True :=
  ends_modifyGet.2 ⟨s.registry.between_claim base, s.registry.le_claim base, fun _ h => (List.mem_cons.1 h).symm⟩

/-- The names that an operation was given are new; they are its own and those recorded. -/
theorem lowerOperation_names (c : Context) (o : Operation) (s : Draft) :
    Ends (lowerOperation c o) s (fun operation s' =>
      (∀ name ∈ operation.names, Registry.Between s.registry s'.registry name) ∧
        ∀ form ∈ s'.registry.taken, form ∈ s.registry.taken ∨
          form ∈ (s'.inlineNames.map (·.2) ++ operation.names).map snakeCase) fun _ _ => True := by
  refine ends_bind.2 ((claim_ends _ s).mono (fun request s₁ h₁ => ?_) fun _ _ _ => trivial)
  refine ends_bind.2 ((claim_ends _ s₁).mono (fun response s₂ h₂ => ?_) fun _ _ _ => trivial)
  refine ends_bind.2 ((claim_ends _ s₂).mono (fun service s₃ h₃ => ?_) fun _ _ _ => trivial)
  have hnames {α : Type} {nodes : List SchemaNode} {x : Lower α} (h : Traverses c .payload nodes x) :
      ∀ s, Ends x s (fun _ s' => Draft.Names s s') fun _ _ => True := (h.steady fun _ => False).names
  refine ends_bind.2 ((hnames (lowerParams_traverses c _ _ _) _).mono (fun p s₄ h₄ => ?_) fun _ _ _ => trivial)
  refine ends_bind.2 ((hnames (lowerBody_traverses c _ _ _) _).mono (fun body s₅ h₅ => ?_) fun _ _ _ => trivial)
  refine ends_bind.2 ((hnames (lowerResponses_traverses c _ _) _).mono (fun responses s' h₆ => ?_) fun _ _ _ => trivial)
  obtain ⟨hrequest, hle₁, htaken₁⟩ := h₁
  obtain ⟨hresponse, hle₂, htaken₂⟩ := h₂
  obtain ⟨hservice, hle₃, htaken₃⟩ := h₃
  have h := (h₄.trans h₅).trans h₆
  refine ends_pure.2 ⟨?_, fun form hform => ?_⟩
  · intro name hname
    -- a later claim is of a registry that has the earlier names, too
    simp only [OperationDef.names, List.mem_cons, List.not_mem_nil, or_false] at hname
    rcases hname with rfl | rfl | rfl
    · exact hrequest.mono (.refl _) ((hle₂.trans hle₃).trans h.registry_le)
    · exact hresponse.mono hle₁ (hle₃.trans h.registry_le)
    · exact hservice.mono (hle₁.trans hle₂) h.registry_le
  · simp only [OperationDef.names, List.map_append, List.map_map, List.map_cons, List.map_nil, List.mem_append,
      List.mem_cons, List.not_mem_nil, or_false]
    rcases h.recorded form hform with hform | hform
    · rcases htaken₃ form hform with hform | rfl
      · rcases htaken₂ form hform with hform | rfl
        · exact (htaken₁ form hform).imp_right fun heq => .inr (.inl heq)
        · exact .inr (.inr (.inr (.inl rfl)))
      · exact .inr (.inr (.inr (.inr rfl)))
    · exact .inr (.inl hform)

end Lowering

end ContractBindings
