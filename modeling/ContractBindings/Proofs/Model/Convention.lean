import ContractBindings.Proofs.Model.Assembly
import ContractBindings.Proofs.Naming.Lettered

/-!
# Conventions of naming

Every name that lowering claims is asked for by a title in Pascal form, by a name that is given already, or by one of these
with letters and digits behind it; and every use of a type is one of a definition, by the name that it has, or of a name
that is recorded. So a property of names and uses that claims establish and that holds of the definitions holds of all
that lowering makes, also where it fails: such a property is a *convention* (`Convention`), and lowering a schema obeys it
(`lower_obeys`), as do the drafts of definitions (`Context.Lowered.obeys`) and all operations in order
(`lowerOperations_obey`).
-/

namespace ContractBindings

open Naming

/-! ## Uses of types -/

namespace TypeDescriptor

mutual

/-- The uses of types in a descriptor: the name, and whether the use is marked as recursive. -/
def marks : TypeDescriptor → List (String × Bool)
  | .mk kind _ => marksOfKind kind

/-- The uses of types in what is described. -/
def marksOfKind : TypeKind → List (String × Bool)
  | .list item => marks item
  | .map value => marks value
  | .named name recursive => [(name, recursive)]
  | _ => []

end

mutual

/-- The names that a descriptor uses are those of its uses. -/
theorem names_eq : ∀ type : TypeDescriptor, type.names = type.marks.map (·.1)
  | .mk kind _ => namesOfKind_eq kind

theorem namesOfKind_eq : ∀ kind : TypeKind, namesOfKind kind = (marksOfKind kind).map (·.1)
  | .list item => names_eq item
  | .map value => names_eq value
  | .named _ _ => rfl
  | .scalar _ => rfl
  | .opaqueValue => rfl
  | .unit => rfl

end

@[simp]
theorem marks_orNull (type : TypeDescriptor) (nullable : Bool) : (type.orNull nullable).marks = type.marks := by
  cases type
  rfl

end TypeDescriptor

/-- The uses of types in a body. -/
def TypeBody.marks (b : TypeBody) : List (String × Bool) := b.descriptors.flatMap TypeDescriptor.marks

/-- The uses of types in an operation. -/
def OperationDef.marks (o : OperationDef) : List (String × Bool) := o.descriptors.flatMap TypeDescriptor.marks

theorem TypeBody.uses_eq (b : TypeBody) : b.uses = b.marks.map (·.1) := by
  rw [uses, marks, List.map_flatMap]
  exact List.flatMap_congr fun type _ => type.names_eq

theorem OperationDef.uses_eq (o : OperationDef) : o.uses = o.marks.map (·.1) := by
  rw [uses, marks, List.map_flatMap]
  exact List.flatMap_congr fun type _ => type.names_eq

theorem marks_struct (fields : List Field) (additional : Option Field) :
    TypeBody.marks (.struct fields additional) =
      fields.flatMap (·.type.marks) ++ additional.toList.flatMap (·.type.marks) := by
  rw [TypeBody.marks, TypeBody.descriptors, List.flatMap_append, List.flatMap_map, List.flatMap_map]

/-- The words for the branches of a union that is kept as an opaque value. -/
def TypeBody.alternatives : TypeBody → List String
  | .fallback alternatives => alternatives
  | _ => []

namespace Lowering

/-- The use of a definition closes a cycle: the owner is the definition or is reached from it. -/
def Context.closes (c : Context) (target : SchemaId) : Bool :=
  c.owner.elim false fun owner => target == owner || ((c.reachable.lookup target).getD []).contains owner

/-! ## Conventions -/

/-- What can be told of the registry that names are claimed from, of what names are asked for by, and of the uses of types,
where claims establish it: what is claimed may be used unmarked, and what is used may be asked for again. -/
structure Convention where
  registry : Registry → Prop
  base : String → Prop
  use : String → Bool → Prop
  claimed : ∀ {r b}, registry r → base b → use (r.claim b).1 false ∧ registry (r.claim b).2
  titled : ∀ title {lead}, Capitalized lead → Lettered lead → base (pascalCaseOr title lead)
  suffixed : ∀ {b suffix}, base b → Lettered suffix → base (b ++ suffix)
  inside : ∀ {name mark}, use name mark → base name

/-- A convention fits a context where it holds of the uses of definitions and of what was recorded before. -/
structure Convention.Fits (k : Convention) (c : Context) : Prop where
  definitions : ∀ {id name}, c.names.lookup id = some name → k.use name (c.closes id)
  recorded : ∀ p ∈ c.inlineNames, k.use p.2 false

/-- All uses that are listed obey a convention. -/
def Convention.Uses (k : Convention) (marks : List (String × Bool)) : Prop := ∀ p ∈ marks, k.use p.1 p.2

end Lowering

open Lowering

/-- The uses in a body obey a convention, also those behind the words for a union that is kept as an opaque value. -/
structure TypeBody.Obeys (k : Convention) (b : TypeBody) : Prop where
  marks : k.Uses b.marks
  alternatives : ∀ a ∈ b.alternatives, ∃ type : TypeDescriptor, k.Uses type.marks ∧ a = type.describe

theorem TypeBody.Obeys.of_marks {k : Convention} {b : TypeBody} (hb : b.alternatives = []) (h : k.Uses b.marks) :
    b.Obeys k := ⟨h, hb ▸ List.forall_mem_nil _⟩

/-- A type has a name that may be used, and its body obeys the convention. -/
structure TypeDef.Obeys (k : Convention) (t : TypeDef) : Prop where
  name : ∃ mark, k.use t.name mark
  body : t.body.Obeys k

/-- The names of the types for an operation may be used, and its uses obey the convention. -/
structure OperationDef.Obeys (k : Convention) (o : OperationDef) : Prop where
  request : k.use o.request false
  response : k.use o.response false
  service : k.use o.service false
  marks : k.Uses o.marks

namespace Lowering

/-- What lowering has come to obeys a convention. -/
structure Draft.Obeys (k : Convention) (s : Draft) : Prop where
  registry : k.registry s.registry
  types : ∀ t ∈ s.types, t.Obeys k
  recorded : ∀ p ∈ s.inlineNames, k.use p.2 false

theorem Draft.Obeys.start {k : Convention} {r : Registry} (h : k.registry r) : (Draft.start r).Obeys k :=
  ⟨h, List.forall_mem_nil _, List.forall_mem_nil _⟩

/-- A computation keeps to a convention, and the uses in its answer obey it. -/
abbrev Obeys (k : Convention) (marks : α → List (String × Bool)) (x : Lower α) : Prop :=
  Keeps (Draft.Obeys k) x fun a => k.Uses (marks a)

namespace Obeys

variable {k : Convention} {c : Context} (hk : k.Fits c)

theorem nil : k.Uses [] := List.forall_mem_nil _

theorem one {name : String} {mark : Bool} (h : k.use name mark) : k.Uses [(name, mark)] := by
  intro p hp
  rw [List.mem_singleton.1 hp]
  exact h

theorem claim {base : String} (h : k.base base) : Keeps (Draft.Obeys k) (Lowering.claim base) fun name => k.use name false :=
  fun _ hs => ends_modifyGet.2 ⟨⟨(k.claimed hs.registry h).2, hs.types, hs.recorded⟩, (k.claimed hs.registry h).1⟩

theorem warn (code : DiagnosticCode) (message : String) :
    Keeps (Draft.Obeys k) (Lowering.warn c code message) fun _ => True :=
  .modify fun _ hs => ⟨hs.registry, hs.types, hs.recorded⟩

theorem insertType (place : Nat) {t : TypeDef} (h : t.Obeys k) :
    Keeps (Draft.Obeys k) (Lowering.insertType place t) fun _ => True := by
  refine .modify fun _ hs => ⟨hs.registry, fun u hu => ?_, hs.recorded⟩
  rcases List.mem_append.1 hu with hu | hu
  · exact hs.types u (List.mem_of_mem_take hu)
  · rcases List.mem_cons.1 hu with rfl | hu
    · exact h
    · exact hs.types u (List.mem_of_mem_drop hu)

include hk in
theorem useDefinition (target : SchemaId) :
    Obeys k TypeDescriptor.marksOfKind (Lowering.useDefinition c target) := by
  unfold Lowering.useDefinition
  split
  · next name hname =>
    split
    · exact .throw _
    · exact .pure (one (hk.definitions hname))
  · exact .throw _

theorem unknownShape (id : SchemaId) (position : Position) :
    Obeys k TypeDescriptor.marks (Lowering.unknownShape c id position) := by
  unfold Lowering.unknownShape
  dsimp only
  split
  · exact .throw _
  · exact (warn _ _).bind fun _ _ => .pure nil

theorem contained {inner : TypeDescriptor} (id : SchemaId) (h : k.Uses inner.marks) :
    Obeys k TypeDescriptor.marks (Lowering.contained c inner id) := by
  unfold Lowering.contained
  split
  · exact (warn _ _).bind fun _ _ => .pure nil
  · exact .pure h

include hk in
theorem known? (node : SchemaNode) (position : Position) :
    Obeys k (fun type => type.elim [] TypeDescriptor.marks) (Lowering.known? c node position) := by
  intro s hs
  obtain ⟨x, hx, hrun⟩ := known?_as c node position s
  refine .of_run_eq hrun ?_
  cases hx with
  | refused _ _ _ =>
    refine Keeps.map (g := some) (unknownShape _ _) ?_ s hs
    exact fun _ h => h
  | definition _ =>
    refine Keeps.bind (useDefinition hk _) ?_ s hs
    exact fun kind h => .pure h
  | named _ hname => exact ends_pure.2 ⟨hs, one (hname.elim (hk.recorded _) (hs.recorded _))⟩
  | new _ _ _ => exact ends_pure.2 ⟨hs, nil⟩

theorem defineInline {id : SchemaId} {title doc : Option String} {hint : String} {body : String → Lower TypeBody}
    (hhint : k.base hint) (hbody : ∀ name, k.base name → Keeps (Draft.Obeys k) (body name) (TypeBody.Obeys k)) :
    Obeys k TypeDescriptor.marksOfKind (Lowering.defineInline id title doc hint body) := by
  have hbase : k.base (inlineBase title hint) := by
    cases title with
    | none => exact hhint
    | some title => exact k.titled title ⟨'T', _, rfl, rfl⟩ (by decide)
  refine (claim hbase).bind fun name hname => ?_
  have hrecord : Keeps (Draft.Obeys k) (modify fun d : Draft => { d with inlineNames := d.inlineNames ++ [(id, name)] } :
      Lower Unit) fun _ => True := by
    refine .modify fun s hs => ⟨hs.registry, hs.types, ?_⟩
    exact List.forall_mem_append.2 ⟨hs.recorded, List.forall_mem_singleton.2 hname⟩
  refine hrecord.after fun _ => Keeps.after .get fun _ => (hbody name (k.inside hname)).bind fun b hb => ?_
  exact (insertType _ ⟨⟨false, hname⟩, hb⟩).bind fun _ _ => .pure (one hname)

theorem unionBody (name : String) (branches : List SchemaNode) (discriminator : Option Discriminator)
    {types : List TypeDescriptor} (h : k.Uses (types.flatMap TypeDescriptor.marks)) :
    Keeps (Draft.Obeys k) (Lowering.unionBody c name branches discriminator types) (TypeBody.Obeys k) := by
  have hunion {variants : List UnionVariant} {property : Option String}
      (hvariants : ∀ v ∈ variants, v.type ∈ types) : (TypeBody.union variants property).Obeys k := by
    refine .of_marks rfl fun p hp => h p ?_
    simp only [TypeBody.marks, TypeBody.descriptors, List.flatMap_map, List.mem_flatMap] at hp ⊢
    obtain ⟨v, hv, hp⟩ := hp
    exact ⟨v.type, hvariants v hv, hp⟩
  obtain ⟨x, hx, hbody⟩ := unionBody_as c name branches discriminator types
  rw [hbody]
  cases hx with
  | downgraded _ =>
    refine (warn _ _).bind fun _ _ => .pure ⟨nil, fun a ha => ?_⟩
    obtain ⟨type, htype, rfl⟩ := List.mem_map.1 ha
    exact ⟨type, fun p hp => h p (List.mem_flatMap.2 ⟨type, htype, hp⟩), rfl⟩
  | plain _ => exact .pure (hunion fun _ => type_mem_of_unionVariants)
  | tagged _ _ _ => exact .pure (hunion fun _ => type_mem_of_tagged)
  | dropped _ _ => exact (warn _ _).bind fun _ _ => .pure (hunion fun _ => type_mem_of_unionVariants)

end Obeys

/-! ## Lowering a schema -/

section Lower

variable {k : Convention} {c : Context}

/-- Lowering each node of a list obeys a convention, whatever the type may be named after that it may become. -/
def Obeys.Nodes (k : Convention) (c : Context) (nodes : List SchemaNode) : Prop :=
  ∀ n ∈ nodes, ∀ hint, k.base hint → Obeys k TypeDescriptor.marks (lower c hint .nested n)

section Shapes

variable {hint name : String}

theorem lowerOr_obeys (hhint : k.base hint) {absent : Lower TypeDescriptor}
    (habsent : Obeys k TypeDescriptor.marks absent) : ∀ {n : Option SchemaNode}, Obeys.Nodes k c n.toList →
      Obeys k TypeDescriptor.marks (lowerOr c hint absent n)
  | some node, hn => hn node (by simp) hint hhint
  | none, _ => habsent

theorem lowerOption_obeys (hhint : k.base hint) : ∀ {n : Option SchemaNode}, Obeys.Nodes k c n.toList →
    Obeys k (fun type => type.elim [] TypeDescriptor.marks) (lowerOption c hint n)
  | some node, hn => (hn node (by simp) hint hhint).map fun _ h => h
  | none, _ => .pure Obeys.nil

theorem lowerFields_obeys (required : List String) (hname : k.base name) : ∀ (r : Registry)
    {fields : List (String × SchemaNode)}, Obeys.Nodes k c (fields.map (·.2)) →
      Obeys k (fun p => p.1.flatMap (·.type.marks)) (lowerFields c name required r fields)
  | _, [], _ => .pure Obeys.nil
  | _, (wire, node) :: rest, hn => by
    obtain ⟨hnode, hrest⟩ := List.forall_mem_cons.1 hn
    rw [lowerFields]
    refine (hnode _ (k.suffixed hname (lettered_pascalCase wire))).bind fun type htype => ?_
    refine (lowerFields_obeys required hname _ hrest).bind fun p hp => .pure ?_
    exact List.forall_mem_append.2 ⟨htype, hp⟩

theorem lowerBranches_obeys (hname : k.base name) : ∀ (number : Nat) {branches : List SchemaNode},
    Obeys.Nodes k c branches →
      Obeys k (fun types => types.flatMap TypeDescriptor.marks) (lowerBranches c name number branches)
  | _, [], _ => .pure Obeys.nil
  | number, node :: rest, hn => by
    obtain ⟨hnode, hrest⟩ := List.forall_mem_cons.1 hn
    have hhint : k.base (name ++ "Variant" ++ toString number) :=
      k.suffixed (k.suffixed hname (by decide)) (lettered_toString_nat number)
    rw [lowerBranches]
    refine (hnode _ hhint).bind fun type htype => (lowerBranches_obeys hname _ hrest).bind fun types htypes => .pure ?_
    exact List.forall_mem_append.2 ⟨htype, htypes⟩

theorem lowerParts_obeys (hname : k.base name) : ∀ (number : Nat) (r : Registry) {parts : List SchemaNode},
    Obeys.Nodes k c parts →
      Obeys k (fun fields => fields.flatMap (·.type.marks)) (lowerParts c name number r parts)
  | _, _, [], _ => .pure Obeys.nil
  | number, _, node :: rest, hn => by
    obtain ⟨hnode, hrest⟩ := List.forall_mem_cons.1 hn
    have hhint : k.base (name ++ "Part" ++ toString number) :=
      k.suffixed (k.suffixed hname (by decide)) (lettered_toString_nat number)
    rw [lowerParts]
    refine (hnode _ hhint).bind fun type htype => (lowerParts_obeys hname _ _ hrest).bind fun fields hfields => .pure ?_
    exact List.forall_mem_append.2 ⟨htype, hfields⟩

theorem describe_obeys (hk : k.Fits c) (id : SchemaId) (position : Position) (hhint : k.base hint) {shape : Shape}
    (hchildren : Obeys.Nodes k c shape.children) :
    Obeys k TypeDescriptor.marks (describe c id hint position shape) := by
  cases shape with
  | primitive kind format => exact .pure Obeys.nil
  | array items =>
    have hitem : k.base (hint ++ "Item") := k.suffixed hhint (by decide)
    rw [describe]
    refine (lowerOr_obeys hitem (Obeys.unknownShape _ _) hchildren).bind fun item h => ?_
    exact (Obeys.contained id h).bind fun item h => .pure h
  | object fields required additional =>
    have hvalue : k.base (hint ++ "Value") := k.suffixed hhint (by decide)
    have hadditional : Obeys.Nodes k c additional.toList := fun m hm => hchildren m (List.mem_append_right _ hm)
    rw [describe]
    refine (lowerOr_obeys hvalue (Obeys.unknownShape _ _) hadditional).bind fun value h => ?_
    exact (Obeys.contained id h).bind fun value h => .pure h
  | enumeration values =>
    rw [describe]
    exact (Obeys.warn _ _).bind fun _ _ => .pure Obeys.nil
  | reference target =>
    rw [describe]
    exact (Obeys.useDefinition hk target).map fun _ h => h
  | union branches discriminator => exact Obeys.unknownShape _ _
  | intersection parts => exact Obeys.unknownShape _ _
  | unknown => exact Obeys.unknownShape _ _

theorem marks_additionalField (r : Registry) (value : TypeDescriptor) :
    (additionalField r value).type.marks = value.marks := by
  simp [additionalField, TypeDescriptor.ofKind, TypeDescriptor.marks, TypeDescriptor.marksOfKind]

theorem compose_obeys (id : SchemaId) (hname : k.base name) {shape : Shape}
    (hchildren : Obeys.Nodes k c shape.children) :
    Keeps (Draft.Obeys k) (compose c id name shape) (TypeBody.Obeys k) := by
  cases shape with
  | object fields required additional =>
    obtain ⟨hfields, hadditional⟩ := List.forall_mem_append.1 hchildren
    have hvalue : k.base (name ++ "Value") := k.suffixed hname (by decide)
    rw [compose]
    refine (lowerFields_obeys required hname _ hfields).bind fun p hp => ?_
    refine (lowerOption_obeys hvalue hadditional).bind fun value h => ?_
    cases value with
    | some value =>
      refine (Obeys.contained id h).bind fun value h => .pure (.of_marks rfl ?_)
      rw [marks_struct]
      refine List.forall_mem_append.2 ⟨hp, fun n hn => h n ?_⟩
      simpa [marks_additionalField] using hn
    | none =>
      refine .pure (.of_marks rfl ?_)
      rw [marks_struct]
      exact List.forall_mem_append.2 ⟨hp, Obeys.nil⟩
  | enumeration values => exact .pure (.of_marks rfl Obeys.nil)
  | union branches discriminator =>
    rw [compose]
    exact (lowerBranches_obeys hname 1 hchildren).bind fun types htypes => Obeys.unionBody _ _ _ htypes
  | intersection parts =>
    rw [compose]
    refine (lowerParts_obeys hname 1 _ hchildren).bind fun fields hfields => .pure (.of_marks rfl ?_)
    rwa [TypeBody.marks, TypeBody.descriptors, List.flatMap_map]
  | primitive kind format => exact .pure (.of_marks rfl Obeys.nil)
  | array items => exact .pure (.of_marks rfl Obeys.nil)
  | reference target => exact .pure (.of_marks rfl Obeys.nil)
  | unknown => exact .pure (.of_marks rfl Obeys.nil)

end Shapes

variable (hk : k.Fits c)

include hk

/-- Lowering a node obeys a convention. -/
theorem lower_obeys (n : SchemaNode) {hint : String} (position : Position) (hhint : k.base hint) :
    Obeys k TypeDescriptor.marks (lower c hint position n) := by
  induction n using SchemaNode.inductionOnChildren generalizing hint position with
  | step n ih =>
    obtain ⟨id, title, description, nullable, shape⟩ := n
    have hchildren : Obeys.Nodes k c shape.children := fun m hm _ hhint => ih m hm .nested hhint
    rw [lower]
    refine (Obeys.known? hk _ position).bind fun type htype => ?_
    cases type with
    | some type => exact .pure htype
    | none =>
      dsimp only
      have hnull (type : TypeDescriptor) (h : k.Uses type.marks) :
          Obeys k TypeDescriptor.marks (pure (type.orNull nullable)) := .pure (by rwa [type.marks_orNull])
      split
      · have hnamed : Obeys k TypeDescriptor.marks (TypeDescriptor.ofKind <$>
            defineInline id title description hint fun name => compose c id name shape) :=
          (Obeys.defineInline hhint fun name hname => compose_obeys id hname hchildren).map fun _ h => h
        exact hnamed.bind hnull
      · exact (describe_obeys hk id position hhint hchildren).bind hnull

theorem Obeys.nodes (nodes : List SchemaNode) : Obeys.Nodes k c nodes :=
  fun n _ _ hhint => lower_obeys hk n .nested hhint

/-- Lowering a definition under a name that may be used obeys a convention. -/
theorem lowerDefinition_obeys (id : SchemaId) {name : String} {mark : Bool} (node : SchemaNode)
    (hname : k.use name mark) : Keeps (Draft.Obeys k) (lowerDefinition c id name node) fun _ => True := by
  unfold lowerDefinition
  split
  · refine (compose_obeys id (k.inside hname) (.nodes hk _)).bind fun b hb => ?_
    exact Obeys.insertType _ ⟨⟨mark, hname⟩, hb⟩
  · refine (describe_obeys hk id .nested (k.inside hname) (.nodes hk _)).bind fun type htype => ?_
    refine Obeys.insertType _ ⟨⟨mark, hname⟩, .of_marks rfl ?_⟩
    rwa [TypeBody.marks, TypeBody.descriptors, List.flatMap_singleton, type.marks_orNull]

/-! ## Lowering an operation -/

section Base

variable {base : String} (hbase : k.base base)

include hbase

theorem lowerParams_obeys : ∀ (r : Registry) (params : List Parameter),
    Obeys k (fun p => p.1.flatMap (·.type.marks)) (lowerParams c base r params)
  | _, [] => .pure Obeys.nil
  | r, p :: rest => by
    rw [lowerParams]
    have hhint : k.base (base ++ pascalCase p.name) := k.suffixed hbase (lettered_pascalCase p.name)
    refine (lower_obeys hk p.schema .payload hhint).bind fun type htype => ?_
    exact (lowerParams_obeys _ rest).bind fun p hp => .pure (List.forall_mem_append.2 ⟨htype, hp⟩)

theorem lowerBody_obeys (r : Registry) (body : Option RequestBody) :
    Obeys k (fun b => b.toList.flatMap (·.type.marks)) (lowerBody c base r body) := by
  cases body with
  | none => exact .pure Obeys.nil
  | some b =>
    rw [lowerBody]
    refine (lower_obeys hk b.schema .payload (k.suffixed hbase (by decide))).bind fun type htype => .pure ?_
    exact List.forall_mem_append.2 ⟨htype, Obeys.nil⟩

theorem responseType_obeys (status : String) (response : Response) :
    Obeys k (fun type => type.elim [] TypeDescriptor.marks) (responseType c base status response) := by
  have hhint : k.base (base ++ pascalCase status ++ "Response") :=
    k.suffixed (k.suffixed hbase (lettered_pascalCase status)) (by decide)
  unfold responseType
  split
  · next node _ => exact (lower_obeys hk node .payload hhint).map fun _ h => h
  · exact .pure Obeys.nil
  · exact .pure Obeys.nil

theorem lowerResponses_obeys : ∀ responses : List (String × Response),
    Obeys k (fun rs => rs.flatMap (·.type.marks)) (lowerResponses c base responses)
  | [] => .pure Obeys.nil
  | (status, response) :: rest => by
    rw [lowerResponses_cons]
    refine (responseType_obeys hk hbase status response).bind fun type htype => ?_
    refine (lowerResponses_obeys rest).bind fun others hothers => .pure ?_
    cases type with
    | none => exact hothers
    | some type => exact List.forall_mem_append.2 ⟨htype, hothers⟩

end Base

theorem lowerOperation_obeys (o : Operation) :
    Keeps (Draft.Obeys k) (lowerOperation c o) (OperationDef.Obeys k) := by
  have hbase : k.base (pascalCaseOr o.id "Operation") := k.titled o.id ⟨'O', _, rfl, rfl⟩ (by decide)
  have hrequest : Lettered c.target.requestSuffix := by cases c.target <;> decide
  have hservice : Lettered c.target.serviceSuffix := by cases c.target <;> decide
  refine (Obeys.claim (k.suffixed hbase hrequest)).bind fun request hrequest => ?_
  refine (Obeys.claim (k.suffixed hbase (by decide))).bind fun response hresponse => ?_
  refine (Obeys.claim (k.suffixed hbase hservice)).bind fun service hservice => ?_
  refine (lowerParams_obeys hk hbase _ _).bind fun p hparams => (lowerBody_obeys hk hbase _ _).bind fun body hbody => ?_
  refine (lowerResponses_obeys hk hbase _).bind fun responses hresponses => .pure ⟨hrequest, hresponse, hservice, ?_⟩
  rw [OperationDef.marks, OperationDef.descriptors, List.flatMap_append, List.flatMap_append, List.flatMap_map,
    List.flatMap_map, List.flatMap_map]
  exact List.forall_mem_append.2 ⟨List.forall_mem_append.2 ⟨hparams, hbody⟩, hresponses⟩

end Lower

/-! ## The whole model -/

/-- What lowering a definition comes to, an answer or a failure, obeys a convention. -/
theorem Context.Lowered.obeys {k : Convention} {c : Context} {d : Definition} {failed : List SchemaId} {r : Registry}
    {node : SchemaNode} {name : String} {answer : Except Diagnostic Unit} {draft : Draft}
    (h : c.Lowered d failed r node name answer draft) (hk : k.Fits (c.about failed d.id)) (hr : k.registry r) :
    draft.Obeys k := by
  have hends := lowerDefinition_obeys hk d.id node (hk.definitions h.name_eq) _ (.start hr)
  cases answer with
  | ok _ => exact (hends.answer h.run_eq).1
  | error _ => exact hends.failure h.run_eq

section Operations

variable {k : Convention} {c : Context} (hk : k.Fits c)

include hk

/-- An operation has no owner, so what fits where operations are lowered fits for each of them. -/
theorem Convention.Fits.during (howner : c.owner = none) {inlineNames : List (SchemaId × String)}
    (h : ∀ p ∈ inlineNames, k.use p.2 false) (unit : String) : k.Fits (c.during inlineNames unit) where
  definitions hname := by
    have huse := hk.definitions hname
    rwa [Context.closes, howner] at huse
  recorded := h

/-- Lowering operations adds types that obey a convention, and the operations obey it. -/
theorem lowerOperations_obey (howner : c.owner = none) {a : Assembly} (hr : k.registry a.registry)
    (hi : ∀ p ∈ a.inlineNames, k.use p.2 false) (ho : a.model.operations = []) (operations : List Operation) :
    (∃ added, (lowerOperations c a operations).model.types = a.model.types ++ added ∧ ∀ t ∈ added, t.Obeys k) ∧
      ∀ o ∈ (lowerOperations c a operations).model.operations, o.Obeys k := by
  refine (lowerOperations_run (I := fun _ s => ((∃ added, s.model.types = a.model.types ++ added ∧ ∀ t ∈ added, t.Obeys k) ∧
    ∀ o ∈ s.model.operations, o.Obeys k) ∧ k.registry s.registry ∧ ∀ p ∈ s.inlineNames, k.use p.2 false) ?_
      operations [] a ⟨⟨⟨[], by simp⟩, by simp [ho]⟩, hr, hi⟩).1
  rintro before o s s' ⟨⟨⟨added, hadded, htypes⟩, hoperations⟩, hr, hi⟩ hstep
  have hends := lowerOperation_obeys (hk.during howner hi o.id) o _ (.start hr)
  cases hstep with
  | @added operation draft hrun =>
    obtain ⟨hdraft, hoperation⟩ := hends.answer hrun
    refine ⟨⟨⟨added ++ draft.types, by rw [hadded, List.append_assoc], ?_⟩, ?_⟩, hdraft.registry, ?_⟩
    · exact List.forall_mem_append.2 ⟨htypes, hdraft.types⟩
    · exact List.forall_mem_append.2 ⟨hoperations, List.forall_mem_singleton.2 hoperation⟩
    · exact List.forall_mem_append.2 ⟨fun p hp => hdraft.recorded p (List.mem_reverse.1 hp), hi⟩
  | failed hrun => exact ⟨⟨⟨added, hadded, htypes⟩, hoperations⟩, (hends.failure hrun).registry, hi⟩

end Operations

section Model

variable {g : SchemaGraph} {target : Target} {config : Config} {k : Convention}

/-- A draft of a definition obeys what fits where the definition is lowered and holds of all registries from there on. -/
theorem drafted_obeys (hr : ∀ r, (named g target).registry.Le r → k.registry r) {p : SchemaId × Draft}
    (hk : ∀ failed, k.Fits ((context g target config).about failed p.1)) (hp : p ∈ (drafted g target config).drafts) :
    p.2.Obeys k := by
  have htraced : Drafts.Traced _ _ _ (drafted g target config) :=
    lowerDefinitions_traced capitalized_names rfl g.definitions
  obtain ⟨d, -, failed, r, node, name, hid, -, hle, hl⟩ := htraced.drafts p hp
  exact hl.obeys (hid ▸ hk failed) (hr r hle)

/-- The types that operations add to a model, and its operations, obey what fits where they are lowered. -/
theorem ofGraph_obeys (hr : ∀ r, (named g target).registry.Le r → k.registry r)
    (hk : k.Fits (operationContext g target config)) (hi : ∀ p ∈ (assembled g target config).inlineNames, k.use p.2 false)
    (operations : List Operation) :
    (∃ added, (Model.ofGraph g operations target config).types = (kept g target config).flatMap (·.2.types) ++ added ∧
      ∀ t ∈ added, t.Obeys k) ∧
      ∀ o ∈ (Model.ofGraph g operations target config).operations, o.Obeys k := by
  obtain ⟨hregistry, -, hoperations, -, -⟩ := foldl_commit (kept g target config)
    ⟨(drafted g target config).registry, [],
      ⟨[], [], (drafted g target config).diagnostics ++ (spreaded g target config).2⟩⟩
  have htraced : Drafts.Traced _ _ _ (drafted g target config) :=
    lowerDefinitions_traced capitalized_names rfl g.definitions
  have hle : (named g target).registry.Le (assembled g target config).registry := by
    rw [assembled, hregistry]
    exact htraced.registry_le
  rw [ofGraph_eq, ← assembled_types]
  exact lowerOperations_obey hk rfl (hr _ hle) hi hoperations operations

/-- Where the names of definitions may be used with any mark, all types and operations of a model obey the convention. -/
theorem ofGraph_obeys_of_names (config : Config) (hr : ∀ r, (named g target).registry.Le r → k.registry r)
    (hnames : ∀ p ∈ (named g target).names, ∀ mark, k.use p.2 mark) (operations : List Operation) :
    (∀ t ∈ (Model.ofGraph g operations target config).types, t.Obeys k) ∧
      ∀ o ∈ (Model.ofGraph g operations target config).operations, o.Obeys k := by
  have hdrafted {p : SchemaId × Draft} (hp : p ∈ kept g target config) : p.2.Obeys k :=
    drafted_obeys hr (fun _ => ⟨fun h => hnames _ (mem_of_lookup h) _, List.forall_mem_nil _⟩) (List.mem_filter.1 hp).1
  obtain ⟨-, -, -, -, hinline⟩ := foldl_commit (kept g target config)
    ⟨(drafted g target config).registry, [],
      ⟨[], [], (drafted g target config).diagnostics ++ (spreaded g target config).2⟩⟩
  have hrecorded : ∀ p ∈ (assembled g target config).inlineNames, k.use p.2 false := by
    intro p hp
    rcases hinline p hp with hnone | ⟨q, hq, hp⟩
    · cases hnone
    · exact (hdrafted hq).recorded p hp
  have hfits : k.Fits (operationContext g target config) :=
    ⟨fun h => hnames _ (mem_of_lookup h) _, List.forall_mem_nil _⟩
  obtain ⟨⟨added, htypes, hadded⟩, hoperations⟩ := ofGraph_obeys hr hfits hrecorded operations
  refine ⟨?_, hoperations⟩
  rw [htypes]
  refine List.forall_mem_append.2 ⟨fun t ht => ?_, hadded⟩
  obtain ⟨p, hp, ht⟩ := List.mem_flatMap.1 ht
  exact (hdrafted hp).types t ht

end Model

end Lowering

end ContractBindings
