import Mathlib.Data.List.Sort
import Mathlib.Data.String.Basic
import ContractBindings.Proofs.Schema.Inside
import ContractBindings.Schema.Composition

/-!
# What structural equality compares

The *bare* form of a node is what is left of it without the places and the documentation of all nodes in it; its fields
are put in the order of their names, since objects that differ in the order of fields only are the same. What becomes of
discriminators is left open. Two nodes are structurally equal exactly if their bare forms without discriminators are the
same (`sameShape_iff_bare`): everything but the discriminators is compared, and they are not (`tagged_sameShape`).
-/

namespace ContractBindings

/-! ## Bare forms -/

/-- A list in ascending order of the keys of its elements. -/
def sortedBy (key : α → String) (l : List α) : List α := l.insertionSort fun a b => key a ≤ key b

/-- Lists whose elements have different keys are the same in ascending order exactly if they have the same elements. -/
theorem sortedBy_eq_iff {key : α → String} {l l' : List α} (hl : (l.map key).Nodup) :
    sortedBy key l = sortedBy key l' ↔ l.Perm l' := by
  have hperm (l : List α) : (sortedBy key l).Perm l := List.perm_insertionSort _ l
  have : Std.Total fun a b : α => key a ≤ key b := ⟨fun a b => le_total (key a) (key b)⟩
  have : IsTrans α fun a b => key a ≤ key b := ⟨fun a b c hab hbc => le_trans hab hbc⟩
  have hsorted (l : List α) : (sortedBy key l).Pairwise fun a b => key a ≤ key b := List.pairwise_insertionSort _ l
  constructor
  · intro h
    exact (hperm l).symm.trans (h ▸ hperm l')
  · intro h
    have hall : (sortedBy key l).Perm (sortedBy key l') := (hperm l).trans (h.trans (hperm l').symm)
    refine List.Perm.eq_of_pairwise (fun a b ha hb hab hba => ?_) (hsorted l) (hsorted l') hall
    have ha' : a ∈ l := (hperm l).mem_iff.1 ha
    have hb' : b ∈ l := h.mem_iff.2 ((hperm l').mem_iff.1 hb)
    exact List.inj_on_of_nodup_map hl ha' hb' (le_antisymm hab hba)

/-- The literal with one zero in place of the two zeros, which are the same number. -/
def Literal.unsigned : Literal → Literal
  | .number x => .number (if x.isZero then .zero false else x)
  | value => value

/-- The discriminator with its tags in ascending order of the schemas that they select. -/
def Discriminator.unordered (d : Discriminator) : Discriminator := ⟨d.property, sortedBy (·.1.pointer) d.tags⟩

section Bare

variable (told : Option Discriminator → Option Discriminator)

mutual

/-- A node without places and documentation, and with what becomes of discriminators. -/
def SchemaNode.bare : SchemaNode → SchemaNode
  | .mk _ _ _ nullable shape => .mk ⟨""⟩ none none nullable shape.bare

/-- A shape without places and documentation, and with what becomes of discriminators. -/
def Shape.bare : Shape → Shape
  | .primitive kind format => .primitive kind format
  | .array items => .array (Shape.bareOption items)
  | .object fields required additional =>
    .object (sortedBy (·.1) (Shape.bareFields fields)) required (Shape.bareOption additional)
  | .enumeration values => .enumeration (values.map Literal.unsigned)
  | .union branches discriminator => .union (Shape.bareList branches) (told discriminator)
  | .intersection parts => .intersection (Shape.bareList parts)
  | .reference target => .reference target
  | .unknown => .unknown

/-- The bare form of a schema that may be absent. -/
def Shape.bareOption : Option SchemaNode → Option SchemaNode
  | some node => some node.bare
  | none => none

/-- The bare forms of schemas. -/
def Shape.bareList : List SchemaNode → List SchemaNode
  | [] => []
  | node :: rest => node.bare :: Shape.bareList rest

/-- The bare forms of fields. -/
def Shape.bareFields : List (String × SchemaNode) → List (String × SchemaNode)
  | [] => []
  | (name, node) :: rest => (name, node.bare) :: Shape.bareFields rest

end

end Bare

theorem Shape.bareFields_eq (told : Option Discriminator → Option Discriminator) : ∀ fields : List (String × SchemaNode),
    Shape.bareFields told fields = fields.map fun p => (p.1, p.2.bare told)
  | [] => rfl
  | (name, node) :: rest => by rw [Shape.bareFields, Shape.bareFields_eq told rest, List.map_cons]

/-! ## Distinct names and numbers -/

/-- The names of the fields of a shape. -/
def Shape.fieldNames : Shape → List String
  | .object fields _ _ => fields.map (·.1)
  | _ => []

/-- The literals of a shape. -/
def Shape.literals : Shape → List Literal
  | .enumeration values => values
  | _ => []

/-- The fields of a shape have different names, at every depth. -/
def Shape.Distinct (s : Shape) : Prop := s.Everywhere fun s => s.fieldNames.Nodup

/-- The literals in a shape that are written as numbers are numbers, at every depth. -/
def Shape.Numeric (s : Shape) : Prop := s.Everywhere fun s => .number .notANumber ∉ s.literals

/-! ## Structural equality -/

/-- Two numbers are the same exactly if they are, with one zero in place of two, the same double; what is no number is not
the same as anything. -/
theorem Number.Binary64.sameNumber_iff {x : Number.Binary64} (hx : x ≠ .notANumber) (y : Number.Binary64) :
    x.sameNumber y = true ↔ (if x.isZero then zero false else x) = if y.isZero then zero false else y := by
  have hzero : (zero false).isZero = true := rfl
  have hsame : x.sameNumber y = (x == y || (x.isZero && y.isZero)) := by
    cases x with
    | notANumber => exact absurd rfl hx
    | _ => cases y <;> simp [sameNumber, isZero]
  rw [hsame]
  cases hzx : x.isZero <;> cases hzy : y.isZero
  · simp
  · have hne : x ≠ zero false := fun h => by rw [h, hzero] at hzx; cases hzx
    have hxy : x ≠ y := fun h => by rw [h, hzy] at hzx; cases hzx
    simp [hne, hxy]
  · have hne : zero false ≠ y := fun h => by rw [← h, hzero] at hzy; cases hzy
    have hxy : x ≠ y := fun h => by rw [h, hzy] at hzx; cases hzx
    simp [hne, hxy]
  · simp

theorem Literal.same_iff {a : Literal} (ha : a ≠ .number .notANumber) (b : Literal) :
    a.same b = true ↔ a.unsigned = b.unsigned := by
  cases a with
  | number x =>
    have hx : x ≠ .notANumber := fun h => ha (by rw [h])
    cases b with
    | number y => simpa [same, unsigned] using Number.Binary64.sameNumber_iff hx y
    | _ => simp [same, unsigned]
  | _ => cases b <;> simp [same, unsigned]

/-- Literals are the same one by one exactly if they are, with one zero in place of two, the same literals. -/
theorem Literal.all_same_iff : ∀ {values : List Literal}, .number .notANumber ∉ values → ∀ values' : List Literal,
    (values.length == values'.length && (values.zip values').all fun (a, b) => a.same b) = true ↔
      values.map unsigned = values'.map unsigned
  | [], _, [] => by simp
  | [], _, _ :: _ => by simp
  | _ :: _, _, [] => by simp
  | a :: values, h, b :: values' => by
    rw [List.mem_cons, not_or] at h
    have hrest := Literal.all_same_iff h.2 values'
    have hfirst := Literal.same_iff (Ne.symm h.1) b
    simp only [Bool.and_eq_true, beq_iff_eq] at hrest
    simp only [List.length_cons, List.zip_cons_cons, List.all_cons, Bool.and_eq_true, beq_iff_eq, Nat.add_right_cancel_iff,
      List.map_cons, List.cons.injEq, ← hrest, hfirst]
    exact and_left_comm

/-- Leaves the discriminators of unions out. -/
def noDiscriminator (_ : Option Discriminator) : Option Discriminator := none

/-- Structural equality with a node is equality with its bare form. -/
def SchemaNode.Told (a : SchemaNode) : Prop :=
  ∀ b : SchemaNode, b.shape.Distinct → (a.sameShape b = true ↔ a.bare noDiscriminator = b.bare noDiscriminator)

namespace Shape

theorem sameOption_iff {a b : Option SchemaNode} (ha : ∀ m ∈ a.toList, m.Told) (hb : ∀ m ∈ b.toList, m.shape.Distinct) :
    sameOption a b = true ↔ bareOption noDiscriminator a = bareOption noDiscriminator b := by
  cases a with
  | none => cases b <;> simp [sameOption, bareOption]
  | some m =>
    cases b with
    | none => simp [sameOption, bareOption]
    | some k =>
      rw [sameOption, bareOption, bareOption, Option.some.injEq]
      exact ha m (by simp) k (hb k (by simp))

theorem sameList_iff : ∀ {as bs : List SchemaNode}, (∀ m ∈ as, m.Told) → (∀ m ∈ bs, m.shape.Distinct) →
    (sameList as bs = true ↔ bareList noDiscriminator as = bareList noDiscriminator bs)
  | [], [], _, _ => by simp [sameList]
  | [], _ :: _, _, _ => by simp [sameList, bareList]
  | _ :: _, [], _, _ => by simp [sameList, bareList]
  | a :: as, b :: bs, ha, hb => by
    rw [List.forall_mem_cons] at ha hb
    rw [sameList, Bool.and_eq_true, bareList, bareList, List.cons.injEq]
    exact and_congr (ha.1 b hb.1) (sameList_iff ha.2 hb.2)

theorem sameFields_iff_forall {fields' : List (String × SchemaNode)} : ∀ {fields : List (String × SchemaNode)},
    sameFields fields fields' = true ↔
      ∀ p ∈ fields, ∃ field', fields'.lookup p.1 = some field' ∧ p.2.sameShape field' = true
  | [] => by simp [sameFields]
  | (name, field) :: rest => by
    rw [sameFields, Bool.and_eq_true, List.forall_mem_cons, @sameFields_iff_forall fields' rest]
    refine and_congr_left fun _ => ?_
    cases fields'.lookup name <;> simp

/-- Objects have as many fields, and each field of the first one is in the second one with the same shape, exactly if the
bare forms of their fields differ in order only. -/
theorem sameFields_iff {fields fields' : List (String × SchemaNode)} (h : ∀ p ∈ fields, p.2.Told)
    (h' : ∀ p ∈ fields', p.2.shape.Distinct) (hn : (fields.map (·.1)).Nodup) (hn' : (fields'.map (·.1)).Nodup) :
    (fields.length = fields'.length ∧ sameFields fields fields' = true) ↔
      (bareFields noDiscriminator fields).Perm (bareFields noDiscriminator fields') := by
  rw [sameFields_iff_forall, bareFields_eq, bareFields_eq]
  constructor
  · rintro ⟨hlength, hall⟩
    have hnodup : (fields.map fun p => (p.1, p.2.bare noDiscriminator)).Nodup :=
      List.Nodup.of_map (·.1) (by rwa [List.map_map])
    refine List.Subperm.perm_of_length_le (List.subperm_of_subset hnodup fun q hq => ?_) ?_
    · obtain ⟨p, hp, rfl⟩ := List.mem_map.1 hq
      obtain ⟨field', hlookup, hsame⟩ := hall p hp
      have hmem : (p.1, field') ∈ fields' := mem_of_lookup hlookup
      exact List.mem_map.2 ⟨_, hmem, by rw [(h p hp field' (h' _ hmem)).1 hsame]⟩
    · rw [List.length_map, List.length_map, hlength]
  · intro hperm
    refine ⟨by simpa using hperm.length_eq, fun p hp => ?_⟩
    have hmem := hperm.mem_iff.1 (List.mem_map_of_mem hp)
    obtain ⟨q, hq, heq⟩ := List.mem_map.1 hmem
    obtain ⟨hname, hbare⟩ := Prod.mk.inj heq
    exact ⟨q.2, hname ▸ lookup_of_mem hn' hq, (h p hp q.2 (h' q hq)).2 hbare.symm⟩

/-- Two shapes are the same exactly if their bare forms are, where that is so for the schemas they are made of. -/
theorem same_iff {s s' : Shape} (hs : s.Distinct) (hnumeric : s.Numeric) (hs' : s'.Distinct)
    (hchildren : ∀ m ∈ s.children, m.Told) :
    same s s' = true ↔ s.bare noDiscriminator = s'.bare noDiscriminator := by
  have hchildren' : ∀ m ∈ s'.children, m.shape.Distinct := fun m hm => Everywhere.child hs' hm
  cases s with
  | primitive kind format => cases s' <;> simp [same, bare]
  | array items =>
    cases s' with
    | array items' =>
      rw [same, bare, bare, array.injEq]
      exact sameOption_iff hchildren hchildren'
    | _ => simp [same, bare]
  | object fields required additional =>
    cases s' with
    | object fields' required' additional' =>
      have hfields := sameFields_iff (fun p hp => hchildren p.2 (List.mem_append_left _ (List.mem_map_of_mem hp)))
        (fun p hp => hchildren' p.2 (List.mem_append_left _ (List.mem_map_of_mem hp))) hs.1 hs'.1
      have hadditional := sameOption_iff (fun m hm => hchildren m (List.mem_append_right _ hm))
        (fun m hm => hchildren' m (List.mem_append_right _ hm))
      have hnames : ((bareFields noDiscriminator fields).map (·.1)).Nodup := by
        rw [bareFields_eq, List.map_map]
        exact hs.1
      simp only [same, bare, object.injEq, Bool.and_eq_true, beq_iff_eq, sortedBy_eq_iff hnames, ← hfields, hadditional]
      tauto
    | _ => simp [same, bare]
  | enumeration values =>
    cases s' with
    | enumeration values' =>
      have hvalues : .number .notANumber ∉ values := hnumeric.1
      simpa only [same, bare, enumeration.injEq] using Literal.all_same_iff hvalues values'
    | _ => simp [same, bare]
  | union branches discriminator =>
    cases s' with
    | union branches' discriminator' =>
      simp only [same, bare, union.injEq, noDiscriminator, and_true]
      exact sameList_iff hchildren hchildren'
    | _ => simp [same, bare]
  | intersection parts =>
    cases s' with
    | intersection parts' =>
      rw [same, bare, bare, intersection.injEq]
      exact sameList_iff hchildren hchildren'
    | _ => simp [same, bare]
  | reference target => cases s' <;> simp [same, bare]
  | unknown => cases s' <;> simp [same, bare]

end Shape

theorem SchemaNode.told {a : SchemaNode} (ha : a.shape.Distinct) (hnumeric : a.shape.Numeric) : a.Told := by
  induction a using SchemaNode.inductionOnChildren with
  | step a ih =>
    intro b hb
    have hshape := Shape.same_iff ha hnumeric hb fun m hm => ih m hm (ha.child hm) (hnumeric.child hm)
    obtain ⟨id, title, description, nullable, shape⟩ := a
    obtain ⟨id', title', description', nullable', shape'⟩ := b
    simp only [sameShape, bare, SchemaNode.mk.injEq, Bool.and_eq_true, beq_iff_eq, true_and]
    exact and_congr_right fun _ => hshape

/-- Two nodes are structurally equal exactly if their bare forms without discriminators are the same. Every difference
other than in places, documentation, the order of fields and discriminators is told. -/
theorem SchemaNode.sameShape_iff_bare {a b : SchemaNode} (ha : a.shape.Distinct) (hnumeric : a.shape.Numeric)
    (hb : b.shape.Distinct) : a.sameShape b = true ↔ a.bare noDiscriminator = b.bare noDiscriminator :=
  SchemaNode.told ha hnumeric b hb

/-- A union of a text and a whole number that are told apart by a property. -/
def taggedUnion (place property : String) : SchemaNode :=
  .ofShape ⟨place⟩ (.union
    [.ofShape ⟨place ++ "/oneOf/0"⟩ (.primitive .string none), .ofShape ⟨place ++ "/oneOf/1"⟩ (.primitive .integer none)]
    (some ⟨property, []⟩))

/-- The enumeration of one number. -/
def singleNumber (place : String) (x : Number.Binary64) : SchemaNode := .ofShape ⟨place⟩ (.enumeration [.number x])

/-- A described object with a number and a union. -/
def numberAndUnion : SchemaNode :=
  .mk ⟨"#/a"⟩ (some "A") none true
    (.object [("n", singleNumber "#/a/n" (.zero true)), ("u", taggedUnion "#/a/u" "kind")] ["n"] none)

/-- The same object elsewhere, with its fields in the other order. -/
def unionAndNumber : SchemaNode :=
  .mk ⟨"#/b"⟩ none (some "b") true
    (.object [("u", taggedUnion "#/b/u" "kind"), ("n", singleNumber "#/b/n" (.zero false))] ["n"] none)

theorem taggedUnion_distinct (place property : String) : (taggedUnion place property).shape.Distinct := by
  refine Shape.everywhere_of_children List.nodup_nil (List.forall_mem_cons.2 ⟨?_, List.forall_mem_singleton.2 ?_⟩)
  · exact Shape.everywhere_of_leaf List.nodup_nil rfl
  · exact Shape.everywhere_of_leaf List.nodup_nil rfl

theorem taggedUnion_numeric (place property : String) : (taggedUnion place property).shape.Numeric := by
  refine Shape.everywhere_of_children List.not_mem_nil (List.forall_mem_cons.2 ⟨?_, List.forall_mem_singleton.2 ?_⟩)
  · exact Shape.everywhere_of_leaf List.not_mem_nil rfl
  · exact Shape.everywhere_of_leaf List.not_mem_nil rfl

theorem numberAndUnion_distinct : numberAndUnion.shape.Distinct := by
  refine Shape.everywhere_of_children (by decide) (List.forall_mem_cons.2 ⟨?_, List.forall_mem_singleton.2 ?_⟩)
  · exact Shape.everywhere_of_leaf List.nodup_nil rfl
  · exact taggedUnion_distinct _ _

theorem numberAndUnion_numeric : numberAndUnion.shape.Numeric := by
  refine Shape.everywhere_of_children List.not_mem_nil (List.forall_mem_cons.2 ⟨?_, List.forall_mem_singleton.2 ?_⟩)
  · exact Shape.everywhere_of_leaf (by decide) rfl
  · exact taggedUnion_numeric _ _

theorem sameShape_iff_bare_numberAndUnion : numberAndUnion.shape.Distinct ∧ numberAndUnion.shape.Numeric ∧
    unionAndNumber.shape.Distinct ∧ numberAndUnion.sameShape unionAndNumber = true ∧
    numberAndUnion.bare noDiscriminator = unionAndNumber.bare noDiscriminator := by
  have hdistinct : unionAndNumber.shape.Distinct := by
    refine Shape.everywhere_of_children (by decide) (List.forall_mem_cons.2 ⟨?_, List.forall_mem_singleton.2 ?_⟩)
    · exact taggedUnion_distinct _ _
    · exact Shape.everywhere_of_leaf List.nodup_nil rfl
  have hsame : numberAndUnion.sameShape unionAndNumber = true := by decide +kernel
  have hbare := (SchemaNode.sameShape_iff_bare numberAndUnion_distinct numberAndUnion_numeric hdistinct).1 hsame
  exact ⟨numberAndUnion_distinct, numberAndUnion_numeric, hdistinct, hsame, hbare⟩

/-- Unions that are told apart by different properties are structurally equal, though their bare forms differ; so two
objects with them under one name amount to one object, which has the first. -/
theorem tagged_sameShape : (taggedUnion "#/a/u" "kind").sameShape (taggedUnion "#/b/u" "sort") = true ∧
    (taggedUnion "#/a/u" "kind").bare (Option.map .unordered) ≠ (taggedUnion "#/b/u" "sort").bare (Option.map .unordered) ∧
    Composition.flatten ⟨"#/c"⟩ [some (.object [("u", taggedUnion "#/a/u" "kind")] [] none),
        some (.object [("u", taggedUnion "#/b/u" "sort")] [] none)] =
      .ok (some (.object [("u", taggedUnion "#/a/u" "kind")] [] none)) := by
  have hsame : (taggedUnion "#/a/u" "kind").sameShape (taggedUnion "#/b/u" "sort") = true := by decide +kernel
  refine ⟨hsame, fun h => ?_, ?_⟩
  · simp [taggedUnion, SchemaNode.ofShape, SchemaNode.bare, Shape.bare, Discriminator.unordered] at h
  · simp [Composition.flatten, Composition.addParts, Composition.addFields, Composition.Merged.empty, hsame, bind,
      Except.bind, pure, Except.pure]

end ContractBindings
