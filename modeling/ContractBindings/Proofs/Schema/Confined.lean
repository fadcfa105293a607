import ContractBindings.Proofs.Document.Schemas
import ContractBindings.Proofs.Ending
import ContractBindings.Proofs.Schema.Keywords

/-!
# What the interpretation of a tree may do

The interpretation of a tree is *confined* to it: of the levels below it only uses the interpretation of the schemas
under the keywords of the tree, it follows no texts but those that the tree itself follows, and it looks at the table only
to flatten the parts of a composition (`Confined`). Which schemas and texts it uses, and in which order, does not depend on
what the levels below do otherwise, so a confined interpretation is a function of the resolver and of the levels below
(`Reading`). With it goes what is told of the answer: all definitions that it names are open (`Slots.Covers`).

One lemma for each keyword says that its part of interpretation is confined; `level_confined` joins them. What holds of
pure answers, schema errors, visits, references and compositions, and is kept by sequencing, so holds of every level at
once.
-/

namespace ContractBindings

open Interpretation

/-! ## The definitions that a shape names -/

/-- The definitions that a shape names itself: the target of a reference, and those that tags select. -/
def Shape.ownLinks : Shape → List SchemaId
  | .reference target => [target]
  | .union _ (some discriminator) => discriminator.tags.map (·.1)
  | _ => []

/-- A shape names a definition, at any depth. -/
def Shape.LinksTo (s : Shape) (k : SchemaId) : Prop := k ∈ s.ownLinks ∨ ∃ m, s.Holds m ∧ k ∈ m.shape.ownLinks

theorem Shape.LinksTo.cases_children {s : Shape} {k : SchemaId} (h : s.LinksTo k) :
    k ∈ s.ownLinks ∨ ∃ m ∈ s.children, m.shape.LinksTo k := by
  rcases h with h | ⟨m, hm, hk⟩
  · exact .inl h
  · obtain ⟨child, hchild, rfl | hm⟩ := hm.cases_children
    · exact .inr ⟨m, hchild, .inl hk⟩
    · exact .inr ⟨child, hchild, .inr ⟨m, hm, hk⟩⟩

theorem Shape.LinksTo.of_child {s : Shape} {k : SchemaId} {m : SchemaNode} (hm : m ∈ s.children)
    (h : m.shape.LinksTo k) : s.LinksTo k := by
  rcases h with h | ⟨n, hn, h⟩
  · exact .inr ⟨m, .child hm, h⟩
  · exact .inr ⟨n, .deeper hm hn, h⟩

namespace Slots

/-- All definitions that a shape names are open. -/
def Covers (s : Slots) (shape : Shape) : Prop := ∀ k, shape.LinksTo k → k ∈ s.map (·.1)

/-- All definitions that finished definitions name are open. -/
def Closed (s : Slots) : Prop := ∀ {k n}, s.Finished k n → s.Covers n.shape

variable {s s' : Slots} {shape : Shape}

theorem Covers.mono (h : s.Covers shape) (hs : s.map (·.1) ⊆ s'.map (·.1)) : s'.Covers shape :=
  fun k hk => hs (h k hk)

theorem Covers.of_children (hown : ∀ k ∈ shape.ownLinks, k ∈ s.map (·.1))
    (h : ∀ m ∈ shape.children, s.Covers m.shape) : s.Covers shape := by
  intro k hk
  rcases hk.cases_children with hk | ⟨m, hm, hk⟩
  · exact hown k hk
  · exact h m hm k hk

theorem Covers.child (h : s.Covers shape) {m : SchemaNode} (hm : m ∈ shape.children) : s.Covers m.shape :=
  fun k hk => h k (.of_child hm hk)

/-- A shape that names nothing. -/
theorem covers_of_leaf (hown : shape.ownLinks = []) (hchildren : shape.children = []) : s.Covers shape :=
  .of_children (by simp [hown]) (by simp [hchildren])

end Slots

namespace Interpretation

/-! ## Confined interpretations -/

/-- What the interpretation of a level is given: a resolver, and the interpretation of the levels below. -/
structure Reading where
  resolver : Resolver
  visit : Visit

/-- What is told stays true while definitions are opened. -/
def Lasting (post : α → Slots → Prop) : Prop :=
  ∀ (a : α) (s s' : Slots), s.map (·.1) ⊆ s'.map (·.1) → post a s → post a s'

/-- What becomes of the parts of a composition. -/
def flattened (id : SchemaId) (parts : List SchemaNode) : Interpretation Shape := do
  let slots ← get
  match ← ofSchema (Composition.flatten id (parts.map (partShape? slots))) with
  | some merged => return merged
  | none => return .intersection parts

/-- What the parts become is told by the table, which stays as it is. -/
theorem run_flattened (id : SchemaId) (parts : List SchemaNode) (s : Slots) : (flattened id parts).run.run s =
    (((Composition.flatten id (parts.map (partShape? s))).map (·.getD (.intersection parts))).mapError .schema, s) := by
  unfold flattened
  rw [run_bind_of_ok (show (get : Interpretation Slots).run.run s = (.ok s, s) from rfl)]
  cases Composition.flatten id (parts.map (partShape? s)) with
  | error e => rfl
  | ok answer => cases answer <;> rfl

theorem ends_flattened {id : SchemaId} {parts : List SchemaNode} {s : Slots} {ok : Shape → Slots → Prop}
    {failed : InterpretError → Slots → Prop} : Ends (flattened id parts) s ok failed ↔
      (∀ answer, Composition.flatten id (parts.map (partShape? s)) = .ok answer →
        ok (answer.getD (.intersection parts)) s) ∧
        ∀ e, Composition.flatten id (parts.map (partShape? s)) = .error e → failed (.schema e) s := by
  unfold Ends
  rw [run_flattened]
  cases Composition.flatten id (parts.map (partShape? s)) with
  | error e => exact ⟨fun h => ⟨nofun, fun _ he => Except.error.inj he ▸ h⟩, fun h => h.2 e rfl⟩
  | ok answer => exact ⟨fun h => ⟨fun _ ha => Except.ok.inj ha ▸ h, nofun⟩, fun h => h.1 answer rfl⟩

/-- An interpretation that is confined to a tree, and what is told of its answers in the table after it. -/
inductive Confined (tree : Tree) : {α : Type} → (α → Slots → Prop) → (Reading → Interpretation α) → Prop
  | pure {α : Type} {P : α → Slots → Prop} {a : α} : (∀ s, P a s) → Confined tree P fun _ => Pure.pure a
  | throw {α : Type} {P : α → Slots → Prop} {e : SchemaError} : Confined tree P fun _ => MonadExcept.throw (.schema e)
  | visit {part : Tree} {id : SchemaId} : part.Subschema tree →
      Confined tree (fun n s => s.Covers n.shape) fun p => p.visit part id
  | reference {text : String} {holder : SchemaId} : tree.Follows text →
      Confined tree (fun k s => k ∈ s.map (·.1)) fun p => Interpretation.reference p.resolver p.visit text holder
  | composed {id : SchemaId} {x : Reading → Interpretation (List SchemaNode)} :
      Confined tree (fun parts s => ∀ n ∈ parts, s.Covers n.shape) x →
        Confined tree (fun shape s => s.Covers shape) fun p => x p >>= flattened id
  | bind {α β : Type} {P : α → Slots → Prop} {Q : β → Slots → Prop} {x : Reading → Interpretation α}
      {f : α → Reading → Interpretation β} : Confined tree P x → Lasting P →
        (∀ a, Confined tree (fun b s => P a s → Q b s) (f a)) → Confined tree Q fun p => x p >>= fun a => f a p
  | mono {α : Type} {P P' : α → Slots → Prop} {x : Reading → Interpretation α} : Confined tree P x →
      (∀ a s, P a s → P' a s) → Confined tree P' x

/-- Two readings give related interpretations if what leaves the table as it is is related to itself, sequencing keeps the
relation, and the parts and the references of the tree are related. -/
theorem Confined.related {tree : Tree} {P : α → Slots → Prop} {x : Reading → Interpretation α} (h : Confined tree P x)
    (R : ∀ {β : Type}, Interpretation β → Interpretation β → Prop) {p q : Reading}
    (hquiet : ∀ {β : Type} (x : Interpretation β), (∀ s : Slots, (x.run.run s).2 = s) → R x x)
    (hbind : ∀ {β γ : Type} {x y : Interpretation β} {f g : β → Interpretation γ}, R x y → (∀ b, R (f b) (g b)) →
      R (x >>= f) (y >>= g))
    (hvisit : ∀ part id, part.Subschema tree → R (p.visit part id) (q.visit part id))
    (hreference : ∀ text holder, tree.Follows text → R (Interpretation.reference p.resolver p.visit text holder)
      (Interpretation.reference q.resolver q.visit text holder)) : R (x p) (x q) := by
  induction h with
  | pure _ => exact hquiet _ fun _ => rfl
  | throw => exact hquiet _ fun _ => rfl
  | visit hpart => exact hvisit _ _ hpart
  | reference hfollows => exact hreference _ _ hfollows
  | composed _ ih => exact hbind ih fun parts => hquiet _ fun s => by rw [run_flattened]
  | bind _ _ _ ihx ihf => exact hbind ihx ihf
  | mono _ _ ih => exact ih

theorem lasting_covers : Lasting fun (shape : Shape) s => s.Covers shape := fun _ _ _ hs h => h.mono hs

theorem lasting_node : Lasting fun (n : SchemaNode) s => s.Covers n.shape := fun _ _ _ hs h => h.mono hs

theorem Lasting.all {P : α → Slots → Prop} (hP : Lasting P) : Lasting fun (answers : List α) s => ∀ a ∈ answers, P a s :=
  fun _ s s' hs h a ha => hP a s s' hs (h a ha)

namespace Confined

variable {tree : Tree}

theorem map {α β : Type} {P : α → Slots → Prop} {Q : β → Slots → Prop} {x : Reading → Interpretation α} {f : α → β}
    (hx : Confined tree P x) (hP : Lasting P) (h : ∀ a s, P a s → Q (f a) s) : Confined tree Q fun p => f <$> x p := by
  have heq : (fun p => f <$> x p) = fun p => x p >>= fun a => Pure.pure (f a) := by
    funext p
    exact map_eq_pure_bind f (x p)
  rw [heq]
  exact .bind hx hP fun a => .pure fun s => h a s

theorem ofSchema {α : Type} {P : α → Slots → Prop} {e : Except SchemaError α} (h : ∀ a, e = .ok a → ∀ s, P a s) :
    Confined tree P fun _ => Interpretation.ofSchema e := by
  cases e with
  | error e => exact .throw
  | ok a => exact .pure (h a rfl)

/-- A walk over a list that answers with what each item gives. -/
theorem mapM {α γ : Type} {P : α → Slots → Prop} {f : Reading → γ → Interpretation α} (hP : Lasting P) :
    ∀ items : List γ, (∀ c ∈ items, Confined tree P fun p => f p c) →
      Confined tree (fun answers s => ∀ a ∈ answers, P a s) fun p => items.mapM (f p)
  | [], _ => by
    simp only [List.mapM_nil]
    exact .pure fun s => by simp
  | c :: items, hf => by
    simp only [List.mapM_cons]
    have hrest := mapM hP items fun d hd => hf d (List.mem_cons_of_mem _ hd)
    refine .bind (hf c List.mem_cons_self) hP fun a => .bind hrest hP.all fun answers => .pure fun s hanswers ha => ?_
    exact List.forall_mem_cons.2 ⟨ha, hanswers⟩

/-- A walk over a list that adds to a result: what each step keeps of the result, then and later, all of them keep. -/
theorem foldlM {β γ : Type} {Q : β → Slots → Prop} {f : Reading → β → γ → Interpretation β} : ∀ items : List γ,
    (∀ c ∈ items, ∀ b, Confined tree (fun b' s => ∀ s' : Slots, s.map (·.1) ⊆ s'.map (·.1) → Q b s' → Q b' s')
      fun p => f p b c) →
        ∀ b, Confined tree (fun b' s => ∀ s' : Slots, s.map (·.1) ⊆ s'.map (·.1) → Q b s' → Q b' s')
          fun p => items.foldlM (f p) b
  | [], _, b => by
    simp only [List.foldlM_nil]
    exact .pure fun _ _ _ h => h
  | c :: items, hf, b => by
    simp only [List.foldlM_cons]
    refine .bind (hf c List.mem_cons_self b) ?_ fun b' => ?_
    · exact fun _ _ _ hs h s' hs' hb => h s' (List.Subset.trans hs hs') hb
    · refine (foldlM items (fun d hd => hf d (List.mem_cons_of_mem _ hd)) b').mono fun b'' s hlast hfirst s' hs hb => ?_
      exact hlast s' hs (hfirst s' hs hb)

end Confined

/-! ## Keywords -/

section Keywords

variable {tree : Tree} {entries : Entries}

theorem tags_confined {discriminator : Tree} {mapping : Entries} (h : tree.asMapping? = some entries)
    (hd : entries.get? "discriminator" = some discriminator)
    (hm : (discriminator.get? "mapping").bind Tree.asMapping? = some mapping) (holder : SchemaId) :
    Confined tree (fun selected s => ∀ p ∈ selected, p.1 ∈ s.map (·.1))
      fun p => tags p.resolver p.visit holder mapping := by
  unfold tags
  refine (Confined.foldlM (Q := fun (selected : List (SchemaId × String)) s => ∀ p ∈ selected, p.1 ∈ s.map (·.1))
    mapping (fun c hc selected => ?_) []).mono fun selected s hall => hall s (List.Subset.refl _) (by simp)
  obtain ⟨tag, target⟩ := c
  dsimp only
  cases htag : tag.keyText? with
  | none => exact .pure fun _ _ _ hb => hb
  | some tagText =>
    cases htarget : target.asText? with
    | none => exact .pure fun _ _ _ hb => hb
    | some text =>
      have hlink : tree.Follows (tagReference text) :=
        .inr ⟨entries, discriminator, mapping, tag, target, text, h, hd, hm, hc, htarget, rfl⟩
      refine .bind (.reference hlink) (fun _ _ _ hs hk => hs hk) fun k => .pure fun s hk s' hs hb p hp => ?_
      rcases eq_or_mem_of_mem_upsert hp with rfl | hp
      · exact hs hk
      · exact hb p hp

theorem discriminator_confined (h : tree.asMapping? = some entries) (id : SchemaId) :
    Confined tree (fun answer s => ∀ d, answer = some d → ∀ p ∈ d.tags, p.1 ∈ s.map (·.1))
      fun p => discriminator p.resolver p.visit entries id := by
  unfold discriminator
  cases hd : entries.get? "discriminator" with
  | none => exact .pure fun s d hd => by cases hd
  | some found =>
    dsimp only
    cases htext : found.asText? with
    | some property =>
      refine .pure fun s d hd => ?_
      cases hd
      simp
    | none =>
      dsimp only
      cases hname : (found.get? "propertyName").bind Tree.asText? with
      | none => exact .pure fun s d hd => by cases hd
      | some property =>
        dsimp only
        have htags : Confined tree (fun selected s => ∀ p ∈ selected, p.1 ∈ s.map (·.1))
            fun p => tags p.resolver p.visit (id.child "discriminator")
              (((found.get? "mapping").bind Tree.asMapping?).getD []) := by
          cases hm : (found.get? "mapping").bind Tree.asMapping? with
          | none => exact .pure fun s => by simp
          | some mapping => exact tags_confined h hd hm _
        refine .bind htags (fun _ _ _ hs hall p hp => hs (hall p hp)) fun selected => .pure fun s hall d hd => ?_
        cases hd
        exact hall

theorem mem_of_indexed {γ : Type} {items : List γ} {p : Nat × γ} (hp : p ∈ indexed items) : p.2 ∈ items :=
  (List.of_mem_zip hp).2

theorem union_confined (h : tree.asMapping? = some entries) {key : String} {branches : List Tree}
    (hbranches : sequence? entries key = some branches) (id : SchemaId) :
    Confined tree (fun answer s => s.Covers answer.1) fun p => union p.resolver p.visit entries id key branches := by
  unfold union
  dsimp only
  refine .bind (.mapM lasting_node _ ?_) lasting_node.all fun nodes => ?_
  · intro c hc
    have hmem : c.2 ∈ branches := mem_of_indexed (List.mem_filter.1 hc).1
    exact .visit (.listed h hbranches hmem)
  · have hmany (hasNull : Bool) : Confined tree (fun answer s => (∀ n ∈ nodes, s.Covers n.shape) → s.Covers answer.1)
        fun p => do return (Shape.union nodes (← discriminator p.resolver p.visit entries id), hasNull) := by
      refine .bind (discriminator_confined h id) ?_ fun answer => .pure fun s hd hnodes => ?_
      · exact fun _ _ _ hs hd d heq p hp => hs (hd d heq p hp)
      · refine .of_children ?_ hnodes
        intro k hk
        cases answer with
        | none => cases hk
        | some d =>
          obtain ⟨p, hp, rfl⟩ := List.mem_map.1 hk
          exact hd d rfl p hp
    match nodes, branches.any isNullBranch with
    | [single], true => exact .pure fun s hnodes => hnodes single List.mem_cons_self
    | [], hasNull => exact hmany hasNull
    | [_], false => exact hmany false
    | _ :: _ :: _, hasNull => exact hmany hasNull

theorem visit_confined (h : tree.asMapping? = some entries) {key : String} {value : Tree}
    (hvalue : entries.get? key = some value) (id : SchemaId) :
    Confined tree (fun n s => s.Covers n.shape) fun p => p.visit value id := .visit (.under h hvalue)

theorem fields_confined (h : tree.asMapping? = some entries) (id : SchemaId) :
    Confined tree (fun fields s => ∀ p ∈ fields, s.Covers p.2.shape)
      fun p => fields p.visit (((entries.get? "properties").bind Tree.asMapping?).getD []) id := by
  have hpart := Tree.Subschema.of_mem_properties h
  generalize ((entries.get? "properties").bind Tree.asMapping?).getD [] = properties at hpart
  unfold fields
  refine (Confined.foldlM (Q := fun (fields : List (String × SchemaNode)) s => ∀ p ∈ fields, s.Covers p.2.shape)
    properties (fun c hc before => ?_) []).mono fun fields s hall => hall s (List.Subset.refl _) (by simp)
  obtain ⟨key, value⟩ := c
  dsimp only
  cases hkey : key.keyText? with
  | none => exact .pure fun _ _ _ hb => hb
  | some name =>
    refine .bind (.visit (hpart _ hc name hkey)) lasting_node fun n => .pure fun s hn s' hs hb p hp => ?_
    rcases eq_or_mem_of_mem_upsert hp with rfl | hp
    · exact hn.mono hs
    · exact hb p hp

theorem covers_unknown (s : Slots) (id : SchemaId) : s.Covers (SchemaNode.unknown id).shape :=
  Slots.covers_of_leaf rfl rfl

theorem object_confined (h : tree.asMapping? = some entries) (id : SchemaId) :
    Confined tree (fun shape s => s.Covers shape) fun p => object p.visit entries id := by
  have hnone : Confined tree (fun (additional : Option SchemaNode) s => ∀ n ∈ additional, s.Covers n.shape)
      fun _ => Pure.pure none := .pure fun s n hn => by cases hn
  have hunknown (anyId : SchemaId) : Confined tree
      (fun (additional : Option SchemaNode) s => ∀ n ∈ additional, s.Covers n.shape)
      fun _ => Pure.pure (some (SchemaNode.unknown anyId)) := by
    refine .pure fun s n hn => ?_
    rw [← Option.mem_some.1 hn]
    exact covers_unknown s anyId
  have hvisit {schema : Tree} (hget : entries.get? "additionalProperties" = some schema) (anyId : SchemaId) :
      Confined tree (fun (additional : Option SchemaNode) s => ∀ n ∈ additional, s.Covers n.shape)
        fun p => some <$> p.visit schema anyId := by
    refine .map (visit_confined h hget anyId) lasting_node fun n s hn m hm => ?_
    rw [← Option.mem_some.1 hm]
    exact hn
  have hlasting : Lasting fun (additional : Option SchemaNode) s => ∀ n ∈ additional, s.Covers n.shape :=
    fun _ _ _ hs hall n hn => (hall n hn).mono hs
  have hrest (fields : List (String × SchemaNode)) (additional : Option SchemaNode) : Confined tree
      (fun shape s => (∀ n ∈ additional, s.Covers n.shape) → (∀ p ∈ fields, s.Covers p.2.shape) → s.Covers shape)
      fun _ => Pure.pure (Shape.object fields (requiredNames entries) additional) := by
    refine .pure fun s ha hf => .of_children (by simp [Shape.ownLinks]) ?_
    intro m hm
    rcases List.mem_append.1 hm with hm | hm
    · obtain ⟨p, hp, rfl⟩ := List.mem_map.1 hm
      exact hf p hp
    · exact ha m (by simpa using hm)
  unfold object
  refine .bind (fields_confined h _) (fun _ _ _ hs hall p hp => (hall p hp).mono hs) fun fields => ?_
  dsimp only
  cases hget : entries.get? "additionalProperties" with
  | none =>
    cases (entries.get? "properties").bind Tree.asMapping? with
    | none => exact .bind (hunknown _) hlasting (hrest fields)
    | some _ => exact .bind hnone hlasting (hrest fields)
  | some schema =>
    cases schema with
    | bool allowed =>
      cases allowed with
      | false => exact .bind hnone hlasting (hrest fields)
      | true => exact .bind (hunknown _) hlasting (hrest fields)
    | _ => exact .bind (hvisit hget _) hlasting (hrest fields)

theorem array_confined (h : tree.asMapping? = some entries) (id : SchemaId) :
    Confined tree (fun shape s => s.Covers shape) fun p => array p.visit entries id := by
  unfold array
  cases hitems : entries.get? "items" with
  | none => exact .pure fun s => Slots.covers_of_leaf rfl rfl
  | some items =>
    refine .bind (visit_confined h hitems _) lasting_node fun n => .pure fun s hn => ?_
    refine .of_children (by simp [Shape.ownLinks]) ?_
    intro m hm
    obtain rfl : m = n := by simpa [Shape.children] using hm
    exact hn

theorem typed_confined (h : tree.asMapping? = some entries) (declared : String) (id : SchemaId) :
    Confined tree (fun shape s => s.Covers shape) fun p => typed p.visit declared entries id := by
  have hprimitive (kind : PrimitiveKind) (format : Option ValueFormat) :
      Confined tree (fun shape s => s.Covers shape) fun _ => Pure.pure (Shape.primitive kind format) :=
    .pure fun s => Slots.covers_of_leaf rfl rfl
  by_cases hscalar : declared = "string" ∨ declared = "integer" ∨ declared = "number" ∨ declared = "boolean"
  · rcases hscalar with rfl | rfl | rfl | rfl
    · exact hprimitive _ _
    · exact hprimitive _ _
    · exact hprimitive _ _
    · exact hprimitive _ _
  · by_cases hobject : declared = "object"
    · subst hobject
      exact object_confined h id
    · by_cases harray : declared = "array"
      · subst harray
        exact array_confined h id
      · have hthrow : ∀ visit : Visit,
            typed visit declared entries id = throw (.schema (.unsupportedType id declared)) := by
          intro visit
          unfold typed
          split <;> first | rfl | simp_all
        simp only [hthrow]
        exact .throw

/-- The parts of a composition, with the properties beside them. -/
def composedParts (visit : Visit) (entries : Entries) (id : SchemaId) (parts : List Tree) :
    Interpretation (List SchemaNode) := do
  let nodes ← (indexed parts).mapM fun (index, part) => visit part ((id.child "allOf").child (toString index))
  let siblings ←
    if entries.hasKey "properties" then do
      let shape ← object visit entries id
      pure [SchemaNode.ofShape ((id.child "allOf").child (toString parts.length)) shape]
    else pure []
  return nodes ++ siblings

theorem composition_eq (visit : Visit) (entries : Entries) (id : SchemaId) (parts : List Tree) :
    composition visit entries id parts = composedParts visit entries id parts >>= flattened id := by
  unfold composition composedParts
  cases entries.hasKey "properties" <;> simp only [↓reduceIte, Bool.false_eq_true, bind_assoc, pure_bind] <;> rfl

theorem composition_confined (h : tree.asMapping? = some entries) {parts : List Tree}
    (hparts : sequence? entries "allOf" = some parts) (id : SchemaId) :
    Confined tree (fun shape s => s.Covers shape) fun p => composition p.visit entries id parts := by
  simp only [composition_eq]
  refine .composed ?_
  unfold composedParts
  refine .bind (.mapM lasting_node _ ?_) lasting_node.all fun nodes => ?_
  · intro c hc
    exact .visit (.listed h hparts (mem_of_indexed hc))
  · cases entries.hasKey "properties" with
    | true =>
      refine .bind (object_confined h id) lasting_covers fun shape => .pure fun s hshape hnodes n hn => ?_
      rcases List.mem_append.1 hn with hn | hn
      · exact hnodes n hn
      · rw [List.mem_singleton.1 hn]
        exact hshape
    | false =>
      refine .pure fun s hnodes n hn => ?_
      rw [List.append_nil] at hn
      exact hnodes n hn

theorem severalTypes_confined (h : tree.asMapping? = some entries) (declared : List String) (id : SchemaId) :
    Confined tree (fun shape s => s.Covers shape) fun p => severalTypes p.visit declared entries id := by
  unfold severalTypes
  refine .bind (.mapM lasting_node _ ?_) lasting_node.all fun nodes => .pure fun s hnodes => ?_
  · rintro ⟨index, type⟩ -
    exact .bind (typed_confined h type _) lasting_covers fun shape => .pure fun s hshape => hshape
  · exact .of_children (by simp [Shape.ownLinks]) hnodes

theorem enumeration_covers {id : SchemaId} {values : List Tree} {answer : Shape × Bool}
    (h : enumeration id values = .ok answer) (s : Slots) : s.Covers answer.1 := by
  obtain ⟨found, hfound⟩ := enumeration_shape h
  exact hfound ▸ Slots.covers_of_leaf rfl rfl

/-! ## Nodes -/

theorem branches_sequence {key : String} {branches : List Tree} (h : branches? entries = some (key, branches)) :
    sequence? entries key = some branches := by
  unfold branches? at h
  split at h
  · next found hone =>
    cases h
    exact hone
  · obtain ⟨found, hany, heq⟩ := Option.map_eq_some_iff.1 h
    cases heq
    exact hany

theorem shape_confined (h : tree.asMapping? = some entries) (id : SchemaId) :
    Confined tree (fun answer s => s.Covers answer.1) fun p => shape p.resolver p.visit entries id := by
  have hplain {x : Reading → Interpretation Shape} (hx : Confined tree (fun shape s => s.Covers shape) x) :
      Confined tree (fun answer s => s.Covers answer.1) fun p => do return (← x p, false) :=
    .bind hx lasting_covers fun shape => .pure fun s hshape => hshape
  unfold shape
  dsimp only
  cases hvalues : declaredValues? entries with
  | some values => exact .ofSchema fun answer hanswer s => enumeration_covers hanswer s
  | none =>
    cases hbranches : branches? entries with
    | some found => exact union_confined h (branches_sequence hbranches) id
    | none =>
      cases hparts : sequence? entries "allOf" with
      | some parts => exact hplain (composition_confined h hparts id)
      | none =>
        cases hdeclared : (declaredTypes entries).filter (· != "null") with
        | cons type rest =>
          cases rest with
          | cons other rest => exact hplain (severalTypes_confined h _ id)
          | nil => exact hplain (typed_confined h type id)
        | nil =>
          dsimp only
          by_cases hobject : (entries.hasKey "properties" || entries.hasKey "additionalProperties") = true
          · simp only [hobject, ↓reduceIte]
            exact hplain (object_confined h id)
          · by_cases hitems : entries.hasKey "items" = true
            · simp only [hobject, hitems, ↓reduceIte]
              exact hplain (array_confined h id)
            · simp only [hobject, hitems]
              cases htext : Reference.textOf? entries with
              | some text =>
                have hlink : tree.Follows text := .inl ⟨entries, h, htext⟩
                refine .bind (.reference hlink) (fun _ _ _ hs hk => hs hk) fun k => .pure fun s hk => ?_
                refine .of_children ?_ (by simp [Shape.children])
                intro k' hk'
                rw [List.mem_singleton.1 hk']
                exact hk
              | none => exact .pure fun s => Slots.covers_of_leaf rfl rfl

end Keywords

/-- The interpretation of a level is confined to its tree, and its answer names only definitions that are open. -/
theorem level_confined (tree : Tree) (id : SchemaId) :
    Confined tree (fun n s => s.Covers n.shape) fun p => level p.resolver p.visit tree id := by
  unfold level
  cases h : tree.asMapping? with
  | none => exact .pure fun s => covers_unknown s id
  | some entries =>
    refine .bind (shape_confined h id) (fun _ _ _ hs hshape => Slots.Covers.mono hshape hs) fun answer => ?_
    exact .pure fun s hshape => hshape

end Interpretation

end ContractBindings
