import ContractBindings.Proofs.Schema.Likeness
import ContractBindings.Schema.Interpretation

/-!
# Merging objects

The fields of a composition are those of its parts one after the other, where a name that occurs again must occur with
the same shape (`flatten_objects`). Structural equality of proper nodes is equality of bare forms, so it is enough that
each field agrees with the first of its name: the composition fails exactly if two parts disagree about a name, in
whatever order they stand (`flatten_parts`).
-/

namespace ContractBindings

theorem eraseDups_of_nodup [BEq α] [LawfulBEq α] {l : List α} (h : l.Nodup) : l.eraseDups = l := by
  induction l with
  | nil => rfl
  | cons a l ih =>
    obtain ⟨ha, hl⟩ := List.nodup_cons.1 h
    have hfilter : l.filter (fun b => !b == a) = l :=
      List.filter_eq_self.2 fun b hb => by simpa using fun he : b = a => ha (he ▸ hb)
    rw [List.eraseDups_cons, hfilter, ih hl]

/-- A name that stands before another list of names adds nothing to it. -/
theorem eraseDups_append_cons_of_mem [BEq α] [LawfulBEq α] {a : α} {l : List α} (h : a ∈ l) (l' : List α) :
    (l ++ a :: l').eraseDups = (l ++ l').eraseDups := by
  have hremove : (a :: l').removeAll l = l'.removeAll l := by simp [List.removeAll, h]
  rw [List.eraseDups_append, List.eraseDups_append, hremove]

/-- A name is put into its place. -/
theorem insertName_pairwise (name : String) : ∀ {names : List String}, names.Pairwise (· < ·) →
    (insertName name names).Pairwise (· < ·)
  | [], _ => List.pairwise_singleton _ _
  | other :: rest, h => by
    obtain ⟨hother, hrest⟩ := List.pairwise_cons.1 h
    rw [insertName]
    split
    · exact h
    · next hne =>
      have hne : name ≠ other := by simpa using hne
      split
      · next hlt =>
        exact List.pairwise_cons.2 ⟨List.forall_mem_cons.2 ⟨hlt, fun x hx => lt_trans hlt (hother x hx)⟩, h⟩
      · next hge =>
        refine List.pairwise_cons.2 ⟨fun x hx => ?_, insertName_pairwise name hrest⟩
        rcases mem_insertName.1 hx with rfl | hx
        · exact lt_of_le_of_ne (not_lt.1 hge) hne.symm
        · exact hother x hx

theorem sortedNames_pairwise (names : List String) : (sortedNames names).Pairwise (· < ·) := by
  have key : ∀ (names sorted : List String), sorted.Pairwise (· < ·) →
      (names.foldl (fun sorted name => insertName name sorted) sorted).Pairwise (· < ·) := by
    intro names
    induction names with
    | nil => exact fun _ h => h
    | cons name rest ih => exact fun sorted h => ih _ (insertName_pairwise name h)
  exact key names [] List.Pairwise.nil

namespace Composition

/-- The object as a shape. -/
def Merged.shape (m : Merged) : Shape := .object m.fields m.required m.additional

/-! ## Fields in a row -/

theorem addFields_append (schema : SchemaId) (rest : List (String × SchemaNode)) :
    ∀ more fields : List (String × SchemaNode), addFields schema fields (more ++ rest) =
      (addFields schema fields more).bind fun fields => addFields schema fields rest
  | [], _ => rfl
  | (name, field) :: more, fields => by
    rw [List.cons_append, addFields, addFields]
    split
    · split
      · exact addFields_append schema rest more fields
      · rfl
    · exact addFields_append schema rest more _

/-- The fields of objects are added in a row. -/
theorem addParts_objects (schema : SchemaId) : ∀ (objects : List Merged) (m : Merged),
    addParts schema m (objects.map fun o => some o.shape) =
      (addFields schema m.fields (objects.flatMap (·.fields))).map fun fields =>
        some ⟨fields, (objects.flatMap (·.required)).foldl (fun sorted name => insertName name sorted) m.required,
          m.additional <|> objects.findSome? (·.additional)⟩
  | [], ⟨fields, required, additional⟩ => by
    cases fields <;> cases additional <;> rfl
  | o :: objects, m => by
    have hadditional : ((m.additional <|> o.additional) <|> objects.findSome? (·.additional)) =
        (m.additional <|> (o :: objects).findSome? (·.additional)) := by
      rw [List.findSome?_cons]
      cases m.additional <;> cases o.additional <;> rfl
    simp only [List.map_cons, Merged.shape, addParts, List.flatMap_cons, addFields_append, List.foldl_append, ← hadditional]
    cases addFields schema m.fields o.fields with
    | error e => rfl
    | ok fields => exact addParts_objects schema objects _

/-- Objects amount to their fields in a row, their required names in ascending order, and the first schema for undeclared
properties, unless the fields cannot stand in a row. -/
theorem flatten_shapes (schema : SchemaId) (objects : List Merged) :
    flatten schema (objects.map fun o => some o.shape) =
      (addFields schema [] (objects.flatMap (·.fields))).map fun fields =>
        some (Merged.mk fields (sortedNames (objects.flatMap (·.required))) (objects.findSome? (·.additional))).shape := by
  rw [flatten, addParts_objects, Merged.empty]
  cases addFields schema [] (objects.flatMap (·.fields)) <;> rfl

/-- A name that is new after others makes one more. -/
theorem nodup_append_singleton {fields : List (String × SchemaNode)} (hnodup : (fields.map (·.1)).Nodup) {name : String}
    (hlookup : fields.lookup name = none) (field : SchemaNode) : ((fields ++ [(name, field)]).map (·.1)).Nodup := by
  have hname : name ∉ fields.map (·.1) := lookup_eq_none_iff.1 hlookup
  rw [List.map_append]
  exact List.nodup_append'.2 ⟨hnodup, List.nodup_singleton _, by simpa using hname⟩

/-! ## Fields of one name -/

/-- Fields of one name have the same shape. -/
def Agree (fields : List (String × SchemaNode)) : Prop :=
  ∀ p ∈ fields, ∀ q ∈ fields, p.1 = q.1 → p.2.sameShape q.2 = true

/-- The fields of each name from its first declaration, in the order of these. -/
structure Firsts (declared fields : List (String × SchemaNode)) : Prop where
  names : fields.map (·.1) = (declared.map (·.1)).eraseDups
  first : ∀ name, fields.lookup name = declared.lookup name

/-- Nodes that structural equality compares by their bare forms. -/
def Proper (n : SchemaNode) : Prop := n.shape.Distinct ∧ n.shape.Numeric

theorem sameShape_iff {a b : SchemaNode} (ha : Proper a) (hb : Proper b) :
    a.sameShape b = true ↔ a.bare noDiscriminator = b.bare noDiscriminator := SchemaNode.told ha.1 ha.2 b hb.1

/-- One more field, of the shape that its name has already. -/
theorem agree_insert {fields rest : List (String × SchemaNode)} {name : String} {present field : SchemaNode}
    (hproper : ∀ p ∈ fields ++ (name, field) :: rest, Proper p.2) (hpresent : (name, present) ∈ fields)
    (hsame : present.sameShape field = true) (h : Agree (fields ++ rest)) : Agree (fields ++ (name, field) :: rest) := by
  have hbare : present.bare noDiscriminator = field.bare noDiscriminator :=
    (sameShape_iff (hproper _ (List.mem_append_left _ hpresent)) (hproper (name, field) (by simp))).1 hsame
  -- every field has one of its name and its bare form among the others
  have hother : ∀ p ∈ fields ++ (name, field) :: rest, ∃ q ∈ fields ++ rest, q.1 = p.1 ∧
      q.2.bare noDiscriminator = p.2.bare noDiscriminator := by
    intro p hp
    rcases List.mem_append.1 hp with hp | hp
    · exact ⟨p, List.mem_append_left _ hp, rfl, rfl⟩
    · rcases List.mem_cons.1 hp with rfl | hp
      · exact ⟨(name, present), List.mem_append_left _ hpresent, rfl, hbare⟩
      · exact ⟨p, List.mem_append_right _ hp, rfl, rfl⟩
  have hsub : ∀ p ∈ fields ++ rest, Proper p.2 := by
    intro p hp
    refine hproper p ?_
    rw [List.mem_append, List.mem_cons]
    exact (List.mem_append.1 hp).imp_right .inr
  intro p hp q hq hname
  obtain ⟨p', hp', hpname, hpbare⟩ := hother p hp
  obtain ⟨q', hq', hqname, hqbare⟩ := hother q hq
  rw [sameShape_iff (hproper p hp) (hproper q hq), ← hpbare, ← hqbare, ← sameShape_iff (hsub p' hp') (hsub q' hq')]
  exact h p' hp' q' hq' (by rw [hpname, hqname, hname])

/-- Fields of different names agree. -/
theorem agree_of_nodup {fields : List (String × SchemaNode)} (hproper : ∀ p ∈ fields, Proper p.2)
    (hnodup : (fields.map (·.1)).Nodup) : Agree fields := by
  intro p hp q hq hname
  rw [List.inj_on_of_nodup_map hnodup hp hq hname]
  exact (sameShape_iff (hproper q hq) (hproper q hq)).2 rfl

/-- The fields that are there after others were added: the first of each name. -/
theorem addFields_firsts {schema : SchemaId} : ∀ {more fields result : List (String × SchemaNode)},
    (fields.map (·.1)).Nodup → addFields schema fields more = .ok result → Firsts (fields ++ more) result
  | [], fields, result, hnodup, h => by
    cases h
    rw [List.append_nil]
    exact ⟨(eraseDups_of_nodup hnodup).symm, fun _ => rfl⟩
  | (name, field) :: rest, fields, result, hnodup, h => by
    rw [addFields] at h
    split at h
    · next present hlookup =>
      split at h
      · have hfirsts := addFields_firsts hnodup h
        have hname : name ∈ fields.map (·.1) := List.mem_map_of_mem (mem_of_lookup hlookup)
        refine ⟨?_, fun x => ?_⟩
        · rw [hfirsts.names, List.map_append, List.map_append, List.map_cons, eraseDups_append_cons_of_mem hname]
        · rw [hfirsts.first, List.lookup_append, List.lookup_append, List.lookup_cons]
          split
          · next hx =>
            obtain rfl : x = name := by simpa using hx
            rw [hlookup]
            rfl
          · rfl
      · cases h
    · next hlookup =>
      simpa using addFields_firsts (nodup_append_singleton hnodup hlookup field) h

/-- Fields can be added to others of different names exactly if all of them agree; else the error is about a name that has
two shapes. -/
theorem addFields_agree (schema : SchemaId) : ∀ {more fields : List (String × SchemaNode)},
    (∀ p ∈ fields ++ more, Proper p.2) → (fields.map (·.1)).Nodup →
      (Agree (fields ++ more) ∧ ∃ result, addFields schema fields more = .ok result) ∨
        ∃ p ∈ fields ++ more, ∃ q ∈ fields ++ more, p.1 = q.1 ∧ p.2.sameShape q.2 = false ∧
          addFields schema fields more = .error (.incompatibleComposition schema p.1)
  | [], fields, hproper, hnodup => by
    rw [List.append_nil] at hproper ⊢
    exact .inl ⟨agree_of_nodup hproper hnodup, fields, rfl⟩
  | (name, field) :: rest, fields, hproper, hnodup => by
    rw [addFields]
    split
    · next present hlookup =>
      have hpresent : (name, present) ∈ fields := mem_of_lookup hlookup
      have hmem {p : String × SchemaNode} (hp : p ∈ fields ++ rest) : p ∈ fields ++ (name, field) :: rest := by
        rw [List.mem_append, List.mem_cons]
        exact (List.mem_append.1 hp).imp_right .inr
      split
      · next hsame =>
        rcases addFields_agree schema (fun p hp => hproper p (hmem hp)) hnodup with ⟨hagree, hresult⟩ | ⟨p, hp, q, hq, herror⟩
        · exact .inl ⟨agree_insert hproper hpresent hsame hagree, hresult⟩
        · exact .inr ⟨p, hmem hp, q, hmem hq, herror⟩
      · next hdiffer =>
        exact .inr ⟨(name, present), List.mem_append_left _ hpresent, (name, field), by simp, rfl, by simpa using hdiffer, rfl⟩
    · next hlookup =>
      have happend : fields ++ (name, field) :: rest = fields ++ [(name, field)] ++ rest := by simp
      rw [happend] at hproper ⊢
      exact addFields_agree schema hproper (nodup_append_singleton hnodup hlookup field)

/-! ## Objects -/

/-- Two different objects declare a field of a name with different shapes. -/
def Clash (objects : List Merged) (name : String) : Prop :=
  ∃ o ∈ objects, ∃ o' ∈ objects, o ≠ o' ∧
    ∃ field field', (name, field) ∈ o.fields ∧ (name, field') ∈ o'.fields ∧ field.sameShape field' = false

/-- One object has all that objects have: the fields of their names, in order and each as it is declared first, the names
that one of them requires, in ascending order, and the first schema for undeclared properties. -/
structure Merged.Joins (m : Merged) (objects : List Merged) : Prop where
  fields : Firsts (objects.flatMap (·.fields)) m.fields
  required : ∀ name, name ∈ m.required ↔ ∃ o ∈ objects, name ∈ o.required
  ascending : m.required.Pairwise (· < ·)
  additional : m.additional = objects.findSome? (·.additional)

/-- What objects amount to, if they do, joins them. -/
theorem joins_of_flatten {schema : SchemaId} {objects : List Merged} {shape : Option Shape}
    (h : flatten schema (objects.map fun o => some o.shape) = .ok shape) :
    ∃ m : Merged, shape = some m.shape ∧ m.Joins objects := by
  rw [flatten_shapes] at h
  cases hfields : addFields schema [] (objects.flatMap (·.fields)) with
  | error e =>
    rw [hfields] at h
    cases h
  | ok fields =>
    rw [hfields] at h
    cases h
    have hfirsts : Firsts ([] ++ objects.flatMap (·.fields)) fields := addFields_firsts List.nodup_nil hfields
    exact ⟨_, rfl, hfirsts, fun name => by rw [mem_sortedNames, List.mem_flatMap], sortedNames_pairwise _, rfl⟩

theorem Merged.proper {o : Merged} (h : o.shape.Distinct ∧ o.shape.Numeric) {p : String × SchemaNode} (hp : p ∈ o.fields) :
    Proper p.2 := by
  have hchild : p.2 ∈ o.shape.children := List.mem_append_left _ (List.mem_map_of_mem hp)
  exact ⟨h.1.child hchild, h.2.child hchild⟩

/-- A name clashes among objects exactly if it has two shapes among their fields in a row. -/
theorem clash_iff {objects : List Merged} (hproper : ∀ o ∈ objects, o.shape.Distinct ∧ o.shape.Numeric) (name : String) :
    Clash objects name ↔ ∃ p ∈ objects.flatMap (·.fields), ∃ q ∈ objects.flatMap (·.fields), p.1 = name ∧ q.1 = name ∧
      p.2.sameShape q.2 = false := by
  constructor
  · rintro ⟨o, ho, o', ho', -, field, field', hfield, hfield', hdiffer⟩
    exact ⟨_, List.mem_flatMap.2 ⟨o, ho, hfield⟩, _, List.mem_flatMap.2 ⟨o', ho', hfield'⟩, rfl, rfl, hdiffer⟩
  · rintro ⟨p, hp, q, hq, rfl, hname, hdiffer⟩
    obtain ⟨o, ho, hp⟩ := List.mem_flatMap.1 hp
    obtain ⟨o', ho', hq⟩ := List.mem_flatMap.1 hq
    refine ⟨o, ho, o', ho', ?_, p.2, q.2, hp, hname ▸ hq, hdiffer⟩
    -- in one object there is one field of the name
    rintro rfl
    have hagree := agree_of_nodup (fun p hp => Merged.proper (hproper o ho) hp) (hproper o ho).1.1
    rw [hagree p hp q hq hname.symm] at hdiffer
    cases hdiffer

/-- Objects amount to one object that joins them unless a name clashes; then the error is about such a name. -/
theorem flatten_objects (schema : SchemaId) {objects : List Merged}
    (hproper : ∀ o ∈ objects, o.shape.Distinct ∧ o.shape.Numeric) :
    ((∀ name, ¬ Clash objects name) ∧
        ∃ m : Merged, flatten schema (objects.map fun o => some o.shape) = .ok (some m.shape) ∧ m.Joins objects) ∨
      ∃ name, Clash objects name ∧
        flatten schema (objects.map fun o => some o.shape) = .error (.incompatibleComposition schema name) := by
  have hfields : ∀ p ∈ objects.flatMap (·.fields), Proper p.2 := by
    intro p hp
    obtain ⟨o, ho, hp⟩ := List.mem_flatMap.1 hp
    exact Merged.proper (hproper o ho) hp
  have hspec := addFields_agree schema (fun p (hp : p ∈ [] ++ objects.flatMap (·.fields)) => hfields p hp) List.nodup_nil
  rw [List.nil_append] at hspec
  simp only [clash_iff hproper]
  rcases hspec with ⟨hagree, fields, hresult⟩ | ⟨p, hp, q, hq, hname, hdiffer, herror⟩
  · refine .inl ⟨?_, ?_⟩
    · rintro name ⟨p, hp, q, hq, rfl, hname, hdiffer⟩
      rw [hagree p hp q hq hname.symm] at hdiffer
      cases hdiffer
    · have hok := flatten_shapes schema objects
      rw [hresult] at hok
      obtain ⟨m, hm, hjoins⟩ := joins_of_flatten hok
      exact ⟨m, hok.trans (congrArg Except.ok hm), hjoins⟩
  · exact .inr ⟨p.1, ⟨p, hp, q, hq, rfl, hname.symm, hdiffer⟩, by rw [flatten_shapes, herror]; rfl⟩

end Composition

/-- The object that a shape is. -/
def Shape.object? : Shape → Option Composition.Merged
  | .object fields required additional => some ⟨fields, required, additional⟩
  | _ => none

theorem Shape.object?_eq_some_iff {s : Shape} {o : Composition.Merged} : s.object? = some o ↔ s = o.shape := by
  obtain ⟨fields, required, additional⟩ := o
  cases s <;> simp [Shape.object?, Composition.Merged.shape]

namespace Interpretation

open ContractBindings.Composition

/-- The object that a part of a composition is, in itself or in the definition that it refers to. -/
def partObject? (slots : Slots) (part : SchemaNode) : Option Merged := (partShape? slots part).bind Shape.object?

theorem partShape_of_partObject {slots : Slots} {part : SchemaNode} {o : Merged} (h : partObject? slots part = some o) :
    partShape? slots part = some o.shape := by
  obtain ⟨shape, hshape, ho⟩ := Option.bind_eq_some_iff.1 h
  rw [hshape, shape.object?_eq_some_iff.1 ho]

/-- The objects among the parts of a composition. -/
def partObjects (slots : Slots) (parts : List SchemaNode) : List Merged := parts.filterMap (partObject? slots)

theorem partShapes_eq {slots : Slots} {parts : List SchemaNode} (h : ∀ part ∈ parts, (partObject? slots part).isSome) :
    parts.map (partShape? slots) = (partObjects slots parts).map fun o => some o.shape := by
  induction parts with
  | nil => rfl
  | cons part parts ih =>
    obtain ⟨hpart, hparts⟩ := List.forall_mem_cons.1 h
    obtain ⟨o, ho⟩ := Option.isSome_iff_exists.1 hpart
    have hcons : partObjects slots (part :: parts) = o :: partObjects slots parts := List.filterMap_cons_some ho
    rw [List.map_cons, ih hparts, partShape_of_partObject ho, hcons, List.map_cons]

/-- Parts that are objects fail to be one object exactly if two of them declare a field with different shapes, and else
are the object that joins them. Whether they fail does not depend on their order. -/
theorem flatten_parts {slots : Slots} (id : SchemaId) {parts : List SchemaNode}
    (hobjects : ∀ part ∈ parts, (partObject? slots part).isSome)
    (hproper : ∀ o ∈ partObjects slots parts, o.shape.Distinct ∧ o.shape.Numeric) :
    ((∃ name, flatten id (parts.map (partShape? slots)) = .error (.incompatibleComposition id name)) ↔
        ∃ name, Clash (partObjects slots parts) name) ∧
      ((∀ name, ¬ Clash (partObjects slots parts) name) →
        ∃ m : Merged, flatten id (parts.map (partShape? slots)) = .ok (some m.shape) ∧ m.Joins (partObjects slots parts)) ∧
      ∀ parts' : List SchemaNode, parts'.Perm parts →
        (flatten id (parts'.map (partShape? slots))).isOk = (flatten id (parts.map (partShape? slots))).isOk := by
  have hone {parts : List SchemaNode} (hobjects : ∀ part ∈ parts, (partObject? slots part).isSome)
      (hproper : ∀ o ∈ partObjects slots parts, o.shape.Distinct ∧ o.shape.Numeric) :=
    partShapes_eq hobjects ▸ flatten_objects id hproper
  have hok {parts : List SchemaNode} (hobjects : ∀ part ∈ parts, (partObject? slots part).isSome)
      (hproper : ∀ o ∈ partObjects slots parts, o.shape.Distinct ∧ o.shape.Numeric) :
      (flatten id (parts.map (partShape? slots))).isOk = true ↔ ∀ name, ¬ Clash (partObjects slots parts) name := by
    rcases hone hobjects hproper with ⟨hno, m, hm, -⟩ | ⟨name, hclash, herror⟩
    · exact iff_of_true (by rw [hm]; rfl) hno
    · exact iff_of_false (by rw [herror]; exact Bool.false_ne_true) fun hno => hno name hclash
  refine ⟨⟨?_, ?_⟩, fun hno => ?_, fun parts' hperm => ?_⟩
  · rintro ⟨name, herror⟩
    rcases hone hobjects hproper with ⟨-, m, hm, -⟩ | ⟨name, hclash, -⟩
    · rw [herror] at hm
      cases hm
    · exact ⟨name, hclash⟩
  · rintro ⟨name, hclash⟩
    rcases hone hobjects hproper with ⟨hno, -⟩ | ⟨name, -, herror⟩
    · exact absurd hclash (hno name)
    · exact ⟨name, herror⟩
  · rcases hone hobjects hproper with ⟨-, hm⟩ | ⟨name, hclash, -⟩
    · exact hm
    · exact absurd hclash (hno name)
  · have hobjects' : (partObjects slots parts').Perm (partObjects slots parts) := hperm.filterMap _
    have hclash (name : String) : Clash (partObjects slots parts') name ↔ Clash (partObjects slots parts) name := by
      simp only [Clash, hobjects'.mem_iff]
    rw [Bool.eq_iff_iff, hok (fun part h => hobjects part (hperm.mem_iff.1 h))
      (fun o h => hproper o (hobjects'.mem_iff.1 h)), hok hobjects hproper]
    simp only [hclash]

/-- The table with one finished definition. -/
def storedSlots : Slots := [(⟨"#/a"⟩, some (.ok numberAndUnion))]

/-- A reference to that definition, and an object that has one of its fields and one of its own. -/
def storedParts : List SchemaNode :=
  [.ofShape ⟨"#/c/allOf/0"⟩ (.reference ⟨"#/a"⟩),
    .ofShape ⟨"#/c/allOf/1"⟩ (.object
      [("u", taggedUnion "#/c/allOf/1/properties/u" "kind"), ("z", singleNumber "#/c/allOf/1/properties/z" (.zero false))]
      ["z"] none)]

theorem flatten_parts_storedParts : (∀ part ∈ storedParts, (partObject? storedSlots part).isSome) ∧
    (∀ o ∈ partObjects storedSlots storedParts, o.shape.Distinct ∧ o.shape.Numeric) ∧
    ∃ m : Merged, flatten ⟨"#/c"⟩ (storedParts.map (partShape? storedSlots)) = .ok (some m.shape) ∧
      m.Joins (partObjects storedSlots storedParts) ∧ m.fields.map (·.1) = ["n", "u", "z"] := by
  have hobjects : ∀ part ∈ storedParts, (partObject? storedSlots part).isSome := by decide +kernel
  have hproper : ∀ o ∈ partObjects storedSlots storedParts, o.shape.Distinct ∧ o.shape.Numeric := by
    refine List.forall_mem_cons.2 ⟨⟨numberAndUnion_distinct, numberAndUnion_numeric⟩, List.forall_mem_singleton.2 ⟨?_, ?_⟩⟩
    · refine Shape.everywhere_of_children (by decide) (List.forall_mem_cons.2 ⟨?_, List.forall_mem_singleton.2 ?_⟩)
      · exact taggedUnion_distinct _ _
      · exact Shape.everywhere_of_leaf List.nodup_nil rfl
    · refine Shape.everywhere_of_children List.not_mem_nil (List.forall_mem_cons.2 ⟨?_, List.forall_mem_singleton.2 ?_⟩)
      · exact taggedUnion_numeric _ _
      · exact Shape.everywhere_of_leaf (by decide) rfl
  obtain ⟨hfails, hjoins, -⟩ := flatten_parts ⟨"#/c"⟩ hobjects hproper
  have hok : (flatten ⟨"#/c"⟩ (storedParts.map (partShape? storedSlots))).isOk = true := by decide +kernel
  obtain ⟨m, hm, hjoined⟩ := hjoins fun name hclash => by
    obtain ⟨other, herror⟩ := hfails.2 ⟨name, hclash⟩
    rw [herror] at hok
    cases hok
  exact ⟨hobjects, hproper, m, hm, hjoined, hjoined.fields.names.trans (by decide +kernel)⟩

end Interpretation

end ContractBindings
