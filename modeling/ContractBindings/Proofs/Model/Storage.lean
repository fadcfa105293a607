import Mathlib.Logic.Relation
import ContractBindings.Items.OfModel
import ContractBindings.Proofs.Model.Growth

/-!
# Types that store each other

A type stores another one if values of it hold values of the other where they stand: it is named in a field or payload
and not put in a box, a list or a map (`Items.Item.stored`). The descriptors tell which those are: the types that are
named, and not as recursive (`stored_ofType`). Types have a finite size if no type stores itself over any number of
others.

Types are *layered* if none of them does (`Layered`). They stay so if types are added that the old ones do not store
(`Layered.append`).
-/

namespace ContractBindings

namespace Items

/-- The names of the types of the model whose values stand in a value of a type. -/
def TypeExpr.stored : TypeExpr → List String
  | .named name => [name]
  | .optional type => type.stored
  | _ => []

/-- The names of the types of the model whose values stand in a value of an item. -/
def Item.stored : Item → List String
  | .record _ _ fields => fields.flatMap (·.type.stored)
  | .wrapper _ _ type => type.stored
  | .enumeration _ _ variants => variants.flatMap fun v => v.payload.elim [] TypeExpr.stored
  | _ => []

end Items

/-- A type of a model stores another one: the items of the first hold values of the second where they stand. -/
def Model.Stores (m : Model) (t u : TypeDef) : Prop :=
  t ∈ m.types ∧ u ∈ m.types ∧ u.name ∈ (Items.ofType t).flatMap Items.Item.stored

/-- The name of the type that a descriptor stores: the type is named, and the use is not recursive. -/
def TypeDescriptor.stored (t : TypeDescriptor) : List String :=
  match t.kind with
  | .named name false => [name]
  | _ => []

/-- The names of the types that a body stores. -/
def TypeBody.stores (b : TypeBody) : List String := b.descriptors.flatMap TypeDescriptor.stored

/-! ## From items to descriptors -/

namespace TypeDescriptor

variable {t : TypeDescriptor}

theorem stored_subset_names (t : TypeDescriptor) : t.stored ⊆ t.names := by
  obtain ⟨kind, nullable⟩ := t
  cases kind with
  | named name recursive => cases recursive <;> simp [stored, kind, names, namesOfKind]
  | _ => simp [stored, kind]

theorem stored_orNull (t : TypeDescriptor) (nullable : Bool) : (t.orNull nullable).stored = t.stored := rfl

end TypeDescriptor

theorem TypeBody.stores_subset_uses (b : TypeBody) : b.stores ⊆ b.uses := by
  intro name hname
  obtain ⟨t, ht, hname⟩ := List.mem_flatMap.1 hname
  exact List.mem_flatMap.2 ⟨t, ht, t.stored_subset_names hname⟩

namespace Items

theorem stored_optionalIf (optional : Bool) (type : TypeExpr) : (optionalIf optional type).stored = type.stored := by
  cases optional <;> rfl

/-- The type of a field or payload stores what its descriptor stores. -/
theorem stored_storedType (t : TypeDescriptor) (optional : Bool) : (storedType t optional).stored = t.stored := by
  obtain ⟨kind, nullable⟩ := t
  rw [storedType, stored_optionalIf]
  cases kind with
  | scalar scalar => cases scalar <;> rfl
  | named name recursive =>
    cases recursive <;> simp [TypeDescriptor.kind, kindType, TypeDescriptor.stored, TypeExpr.stored]
  | _ => simp [TypeDescriptor.kind, kindType, TypeDescriptor.stored, TypeExpr.stored]

/-- The items of a type store what the descriptors in its body store. -/
theorem stored_ofType (t : TypeDef) : (ofType t).flatMap Item.stored = t.body.stores := by
  unfold ofType TypeBody.stores
  cases t.body with
  | struct fields additional =>
    simp only [List.flatMap_singleton, Item.stored, TypeBody.descriptors, List.flatMap_append, List.flatMap_map, fieldOf,
      flattened, stored_storedType]
  | enumeration repr variants =>
    cases repr <;> simp [textEnumeration, constantEnumeration, constantType, Item.stored, TypeExpr.stored,
      TypeBody.descriptors]
  | union variants discriminator =>
    simp only [List.flatMap_singleton, Item.stored, TypeBody.descriptors, List.flatMap_map, branch, Option.elim,
      stored_storedType]
  | fallback alternatives => simp [Item.stored, TypeExpr.stored, TypeBody.descriptors]
  | composite parts =>
    simp only [List.flatMap_singleton, Item.stored, TypeBody.descriptors, List.flatMap_map, flattened, stored_storedType]
  | _ => simp [Item.stored, TypeBody.descriptors, stored_storedType]

end Items

/-! ## Layered types -/

/-- Where what the first relation leads to is left by the first alone, a cycle of both is one of the first or of the
second. -/
theorem irreflexive_or {α : Type} {R S : α → α → Prop} (hR : ∀ a, ¬ Relation.TransGen R a a)
    (hS : ∀ a, ¬ Relation.TransGen S a a) (hleave : ∀ {a b c}, R a b → ¬ S b c) (a : α) :
    ¬ Relation.TransGen (fun a b => R a b ∨ S a b) a a := by
  -- a way is one of the second relation, or ends where the second does not go on
  have hway {a b : α} (h : Relation.TransGen (fun a b => R a b ∨ S a b) a b) :
      Relation.TransGen S a b ∨ ∀ c, ¬ S b c := by
    induction h with
    | single h => exact h.elim (fun h => .inr fun _ => hleave h) fun h => .inl (.single h)
    | tail _ h ih =>
      rcases h with h | h
      · exact .inr fun _ => hleave h
      · exact ih.elim (fun ih => .inl (ih.tail h)) fun ih => absurd h (ih _)
  -- from there on it is one of the first
  have hstay {a b : α} (h : Relation.TransGen (fun a b => R a b ∨ S a b) a b) (ha : ∀ c, ¬ S a c) :
      Relation.TransGen R a b ∧ ∀ c, ¬ S b c := by
    induction h with
    | single h => exact h.elim (fun h => ⟨.single h, fun _ => hleave h⟩) fun h => absurd h (ha _)
    | tail _ h ih => exact h.elim (fun h => ⟨ih.1.tail h, fun _ => hleave h⟩) fun h => absurd h (ih.2 _)
  intro hcycle
  rcases hway hcycle with h | h
  · exact hS a h
  · exact hR a (hstay hcycle h).1

/-- A type under the first name stores the second name. -/
def Storing (types : List TypeDef) (a b : String) : Prop := ∃ t ∈ types, t.name = a ∧ b ∈ t.body.stores

/-- No type stores itself over any number of types. -/
def Layered (types : List TypeDef) : Prop := ∀ name, ¬ Relation.TransGen (Storing types) name name

namespace Layered

variable {types types' : List TypeDef} {t : TypeDef}

theorem nil : Layered [] := by
  intro name h
  obtain ⟨b, ⟨t, ht, -⟩, -⟩ := Relation.TransGen.head'_iff.1 h
  cases ht

theorem of_subset (h : Layered types') (hsub : types ⊆ types') : Layered types := by
  intro name hcycle
  refine h name (Relation.TransGen.mono ?_ _ _ hcycle)
  rintro a b ⟨t, ht, hrest⟩
  exact ⟨t, hsub ht, hrest⟩

/-- Types are layered with types that they do not store. -/
theorem append (h : Layered types) (h' : Layered types')
    (hfree : ∀ t ∈ types, ∀ t' ∈ types', t'.name ∉ t.body.stores) : Layered (types ++ types') := by
  intro name hcycle
  refine irreflexive_or h h' ?_ name (Relation.TransGen.mono ?_ _ _ hcycle)
  · rintro a b c ⟨t, ht, -, hb⟩ ⟨t', ht', rfl, -⟩
    exact hfree t ht t' ht' hb
  · rintro a b ⟨t, ht, hrest⟩
    rcases List.mem_append.1 ht with ht | ht
    · exact .inl ⟨t, ht, hrest⟩
    · exact .inr ⟨t, ht, hrest⟩

/-- A type is layered with types that do not store it, if it does not store itself. -/
theorem cons (h : Layered types) (hself : t.name ∉ t.body.stores) (hfree : ∀ u ∈ types, t.name ∉ u.body.stores) :
    Layered (t :: types) := by
  have hsingle : Layered [t] := by
    have hstep {a b : String} (h : Relation.TransGen (Storing [t]) a b) : a = t.name ∧ b ∈ t.body.stores := by
      induction h with
      | single h =>
        obtain ⟨u, hu, rfl, hb⟩ := h
        obtain rfl := List.mem_singleton.1 hu
        exact ⟨rfl, hb⟩
      | tail _ h ih =>
        obtain ⟨u, hu, rfl, hb⟩ := h
        obtain rfl := List.mem_singleton.1 hu
        exact ⟨ih.1, hb⟩
    intro name hcycle
    obtain ⟨rfl, hb⟩ := hstep hcycle
    exact hself hb
  refine (append h hsingle fun u hu t' ht' => ?_).of_subset ?_
  · obtain rfl := List.mem_singleton.1 ht'
    exact hfree u hu
  · intro u hu
    exact List.mem_append.2 ((List.mem_cons.1 hu).symm.imp_right List.mem_singleton.2)

/-- Groups of types are layered together if types of a group store none of other groups but those after it. -/
theorem flatMap {ι : Type} {groups : List ι} {f : ι → List TypeDef} (After : ι → ι → Prop)
    (hlayered : ∀ i ∈ groups, Layered (f i))
    (hname : ∀ i ∈ groups, ∀ j ∈ groups, ∀ t ∈ f i, ∀ u ∈ f j, t.name = u.name → i = j)
    (hirrefl : ∀ i, ¬ After i i) (htrans : ∀ {i j k}, After i j → After j k → After i k)
    (hstored : ∀ i ∈ groups, ∀ j ∈ groups, ∀ t ∈ f i, ∀ u ∈ f j, u.name ∈ t.body.stores → i = j ∨ After i j) :
    Layered (groups.flatMap f) := by
  -- a way stays in the group that it starts in, or ends in one after it
  have hway {a b : String} (h : Relation.TransGen (Storing (groups.flatMap f)) a b) :
      ∀ i ∈ groups, ∀ j ∈ groups, ∀ t ∈ f i, ∀ u ∈ f j, t.name = a → u.name = b →
        (i = j ∧ Relation.TransGen (Storing (f i)) a b) ∨ After i j := by
    induction h with
    | single h =>
      rintro i hi j hj t ht u hu rfl rfl
      obtain ⟨t', ht', heq, hb⟩ := h
      obtain ⟨i', hi', ht'⟩ := List.mem_flatMap.1 ht'
      obtain rfl := hname i' hi' i hi t' ht' t ht heq
      exact (hstored i' hi j hj t' ht' u hu hb).imp_left fun hij => ⟨hij, .single ⟨t', ht', heq, hb⟩⟩
    | tail _ h ih =>
      rintro i hi j hj t ht u hu rfl rfl
      obtain ⟨t', ht', heq, hb⟩ := h
      obtain ⟨k, hk, ht'⟩ := List.mem_flatMap.1 ht'
      rcases ih i hi k hk t ht t' ht' rfl heq with ⟨rfl, hway⟩ | hik
      · exact (hstored i hi j hj t' ht' u hu hb).imp_left fun hij => ⟨hij, hway.tail ⟨t', ht', heq, hb⟩⟩
      · rcases hstored k hk j hj t' ht' u hu hb with rfl | hkj
        · exact .inr hik
        · exact .inr (htrans hik hkj)
  intro name hcycle
  obtain ⟨b, ⟨t, ht, rfl, -⟩, -⟩ := Relation.TransGen.head'_iff.1 hcycle
  obtain ⟨i, hi, ht⟩ := List.mem_flatMap.1 ht
  rcases hway hcycle i hi i hi t ht t ht rfl rfl with ⟨-, hcycle⟩ | hii
  · exact hlayered i hi t.name hcycle
  · exact hirrefl i hii

end Layered

/-- Where types are layered, no type of the model stores itself. -/
theorem Model.not_stores_self {m : Model} (h : Layered m.types) (t : TypeDef) : ¬ Relation.TransGen m.Stores t t := by
  intro hcycle
  refine h t.name (hcycle.lift TypeDef.name ?_)
  rintro a b ⟨ha, -, hb⟩
  rw [Items.stored_ofType] at hb
  exact ⟨a, ha, rfl, hb⟩

end ContractBindings
