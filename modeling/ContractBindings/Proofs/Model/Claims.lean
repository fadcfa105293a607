import ContractBindings.Proofs.Model.Composed
import ContractBindings.Proofs.Naming.Claims

/-!
# What identifiers and variants are claimed from

The identifiers of the fields of a type, of the parts of a composition and of what a request holds are claimed in order
from a registry that has nothing taken, and the names of variants from one that has `Self` (`TypeBody.Claimed`,
`OperationDef.Claimed`). This holds of every body that is composed, so of all types of a model (`ofGraph_claimed`).
Responses claim nothing: each is named by its status (`ResponseDef.Named`).
-/

namespace ContractBindings

open Naming

/-! ## Names that are asked for -/

/-- The identifiers of the fields or parts of a body. -/
def TypeBody.idents : TypeBody → List String
  | .struct fields additional => fields.map (·.ident) ++ additional.toList.map (·.ident)
  | .composite parts => parts.map (·.ident)
  | _ => []

/-- The identifier that is asked for a part of a composition: that of its type, or its number. -/
def partAsked (target : Target) (type : TypeDescriptor) (number : Nat) : String :=
  match type.kind with
  | .named name _ => target.fieldIdent name
  | _ => "part_" ++ toString number

/-- The identifiers that are asked for parts, from a number on. -/
def partsAsked (target : Target) (number : Nat) : List Field → List String
  | [] => []
  | part :: rest => partAsked target part.type number :: partsAsked target (number + 1) rest

/-- The identifiers that are asked for the fields or parts of a body. -/
def TypeBody.askedIdents (target : Target) : TypeBody → List String
  | .struct fields additional =>
    fields.map (fun f => target.fieldIdent f.name) ++ additional.toList.map fun _ => "additional_properties"
  | .composite parts => partsAsked target 1 parts
  | _ => []

/-- The names of the variants of a body. -/
def TypeBody.variantNames : TypeBody → List String
  | .enumeration _ variants => variants.map (·.name)
  | .union variants _ => variants.map (·.name)
  | _ => []

/-- The names that are asked for the variants of a body. -/
def TypeBody.askedNames : TypeBody → List String
  | .enumeration _ variants => variants.map fun v => pascalCaseOr v.value.text "Value"
  | .union variants _ => variants.map fun v => Lowering.variantBase v.type
  | _ => []

/-- The identifiers and the names in a body are those that claims are given, in order. -/
structure TypeBody.Claimed (target : Target) (b : TypeBody) : Prop where
  idents : b.idents = (Registry.empty.claimAll (b.askedIdents target)).1
  variants : b.variantNames = ((Registry.reserving ["Self"]).claimAll b.askedNames).1

/-- The identifiers of what a request holds: the parameters and the body. -/
def OperationDef.idents (o : OperationDef) : List String := o.params.map (·.ident) ++ o.body.toList.map (·.ident)

/-- The identifiers that are asked for what a request holds. -/
def OperationDef.askedIdents (target : Target) (o : OperationDef) : List String :=
  o.params.map (fun p => target.fieldIdent p.name) ++ o.body.toList.map fun _ => "body"

/-- The identifiers of what a request holds are those that claims are given, in order. -/
def OperationDef.Claimed (target : Target) (o : OperationDef) : Prop :=
  o.idents = (Registry.empty.claimAll (o.askedIdents target)).1

/-- A response has the names that its status gives. -/
structure ResponseDef.Named (r : ResponseDef) : Prop where
  variant : r.variant = (Lowering.responseNames r.status).1
  ident : r.ident = (Lowering.responseNames r.status).2

theorem TypeBody.Claimed.of_struct {target : Target} {fields : List Field} {additional : Option Field}
    (h : (TypeBody.struct fields additional).idents =
      (Registry.empty.claimAll ((TypeBody.struct fields additional).askedIdents target)).1) :
    TypeBody.Claimed target (.struct fields additional) := ⟨h, rfl⟩

namespace Lowering

/-! ## Composing a body -/

section Compose

variable (c : Context)

theorem lowerFields_claims (name : String) (required : List String) : ∀ (r : Registry)
    (fields : List (String × SchemaNode)) (s : Draft),
    Ends (lowerFields c name required r fields) s
      (fun p _ => (p.1.map (·.ident), p.2) = r.claimAll (p.1.map fun f => c.target.fieldIdent f.name)) fun _ _ => True
  | r, [], s => ends_pure.2 rfl
  | r, (wire, node) :: rest, s => by
    rw [lowerFields]
    refine .after fun type s' => ?_
    refine ends_bind.2 ((lowerFields_claims name required _ rest s').mono (fun p s'' h => ?_) fun _ _ h => h)
    exact ends_pure.2 (Registry.cons_eq_claimAll h)

theorem lowerParts_claims (name : String) : ∀ (number : Nat) (r : Registry) (parts : List SchemaNode) (s : Draft),
    Ends (lowerParts c name number r parts) s
      (fun fields _ => fields.map (·.ident) = (r.claimAll (partsAsked c.target number fields)).1) fun _ _ => True
  | number, r, [], s => ends_pure.2 rfl
  | number, r, node :: rest, s => by
    rw [lowerParts]
    refine .after fun type s' => ?_
    refine ends_bind.2 ((lowerParts_claims name _ _ rest s').mono (fun fields s'' h => ends_pure.2 ?_) fun _ _ h => h)
    rw [List.map_cons, partsAsked, Registry.claimAll_cons, h]
    rfl

theorem lowerBranches_length (name : String) : ∀ (number : Nat) (branches : List SchemaNode) (s : Draft),
    Ends (lowerBranches c name number branches) s (fun types _ => types.length = branches.length) fun _ _ => True
  | number, [], s => ends_pure.2 rfl
  | number, node :: rest, s => by
    rw [lowerBranches]
    refine .after fun type s' => ?_
    refine ends_bind.2 ((lowerBranches_length name _ rest s').mono (fun types s'' h => ends_pure.2 ?_) fun _ _ h => h)
    rw [List.length_cons, List.length_cons, h]

theorem enumVariants_claims : ∀ (r : Registry) (values : List Literal),
    (enumVariants r values).map (·.name) = (r.claimAll (values.map fun v => pascalCaseOr v.text "Value")).1 ∧
      (enumVariants r values).map (·.value) = values
  | r, [] => ⟨rfl, rfl⟩
  | r, value :: rest => by
    obtain ⟨hnames, hvalues⟩ := enumVariants_claims (r.claim (pascalCaseOr value.text "Value")).2 rest
    rw [enumVariants]
    exact ⟨congrArg (_ :: ·) hnames, congrArg (_ :: ·) hvalues⟩

theorem names_unionVariants : ∀ (r : Registry) (types : List TypeDescriptor),
    (unionVariants r types).map (·.name) = (r.claimAll (types.map variantBase)).1
  | r, [] => rfl
  | r, type :: rest => by
    have hnames := names_unionVariants (r.claim (variantBase type)).2 rest
    rw [unionVariants]
    exact congrArg (_ :: ·) hnames

theorem enumeration_claimed (target : Target) (repr : EnumRepr) (values : List Literal) :
    TypeBody.Claimed target (.enumeration repr (enumVariants (Registry.reserving ["Self"]) values)) where
  idents := rfl
  variants := by
    obtain ⟨hnames, hvalues⟩ := enumVariants_claims (Registry.reserving ["Self"]) values
    rw [TypeBody.variantNames, TypeBody.askedNames, hnames]
    conv_lhs => rw [← hvalues]
    rw [List.map_map]
    rfl

/-- Variants of the given names and types have their names from claims, whatever tags they get. -/
theorem union_claimed (target : Target) (types : List TypeDescriptor) {variants : List UnionVariant}
    (discriminator : Option String)
    (hnames : variants.map (·.name) = (unionVariants (Registry.reserving ["Self"]) types).map (·.name))
    (htypes : variants.map (·.type) = types) : TypeBody.Claimed target (.union variants discriminator) where
  idents := rfl
  variants := by
    have hasked : variants.map (fun v => variantBase v.type) = types.map variantBase := by
      rw [← htypes, List.map_map]
      rfl
    rw [TypeBody.variantNames, TypeBody.askedNames, hasked, hnames, names_unionVariants]

theorem unionBody_claimed (name : String) (branches : List SchemaNode) (discriminator : Option Discriminator)
    {types : List TypeDescriptor} (hlength : types.length = branches.length) (s : Draft) :
    Ends (unionBody c name branches discriminator types) s (fun b _ => b.Claimed c.target) fun _ _ => True := by
  have hvariants := types_unionVariants (Registry.reserving ["Self"]) types
  have hplain (d : Option String) := union_claimed c.target types d rfl hvariants
  obtain ⟨x, hx, hbody⟩ := unionBody_as c name branches discriminator types
  rw [hbody]
  cases hx with
  | downgraded _ => exact .after fun _ _ => ends_pure.2 ⟨rfl, rfl⟩
  | plain _ => exact ends_pure.2 (hplain none)
  | tagged _ _ _ =>
    have hzip : (unionVariants (Registry.reserving ["Self"]) types).length ≤ branches.length := by
      refine Nat.le_of_eq ?_
      rw [← hlength, ← List.length_map (f := fun v : UnionVariant => v.type), hvariants]
    have hfirst := List.map_fst_zip hzip
    refine ends_pure.2 (union_claimed c.target types _ ?_ (Eq.trans ?_ hvariants))
    · conv_rhs => rw [← hfirst]
      rw [List.map_map, List.map_map]
      rfl
    · conv_rhs => rw [← hfirst]
      rw [List.map_map, List.map_map]
      rfl
  | dropped _ _ => exact .after fun _ _ => ends_pure.2 (hplain none)

/-- What a shape becomes has its names from claims. -/
theorem compose_claimed (id : SchemaId) (name : String) {shape : Shape} (h : isComposite shape = true) (s : Draft) :
    Ends (compose c id name shape) s (fun b _ => b.Claimed c.target) fun _ _ => True := by
  cases shape with
  | object fields required additional =>
    rw [compose]
    refine ends_bind.2 ((lowerFields_claims c name required _ fields s).mono (fun p s' hp => ?_) fun _ _ h => h)
    obtain ⟨fields, r⟩ := p
    have hclaims : Registry.empty.claimAll (fields.map fun f => c.target.fieldIdent f.name) =
        (fields.map (·.ident), r) := hp.symm
    refine .after fun value s'' => ?_
    cases value with
    | some value =>
      refine .after fun inner _ => ends_pure.2 (.of_struct ?_)
      rw [TypeBody.idents, TypeBody.askedIdents, Registry.claimAll_append, hclaims]
      rfl
    | none =>
      refine ends_pure.2 (.of_struct ?_)
      rw [TypeBody.idents, TypeBody.askedIdents, Registry.claimAll_append, hclaims]
      rfl
  | enumeration values => exact ends_pure.2 (enumeration_claimed c.target _ values)
  | union branches discriminator =>
    rw [compose]
    refine ends_bind.2 ((lowerBranches_length c name 1 branches s).mono (fun types s' htypes => ?_) fun _ _ h => h)
    exact unionBody_claimed c name branches discriminator htypes s'
  | intersection parts =>
    rw [compose]
    exact ends_bind.2 ((lowerParts_claims c name 1 _ parts s).mono (fun _ _ h => ends_pure.2 ⟨h, rfl⟩) fun _ _ h => h)
  | primitive kind format => cases h
  | array items => cases h
  | reference target => cases h
  | unknown => cases h

theorem lowerParams_claims (base : String) : ∀ (r : Registry) (params : List Parameter) (s : Draft),
    Ends (lowerParams c base r params) s
      (fun p _ => (p.1.map (·.ident), p.2) = r.claimAll (p.1.map fun q => c.target.fieldIdent q.name)) fun _ _ => True
  | r, [], s => ends_pure.2 rfl
  | r, q :: rest, s => by
    rw [lowerParams]
    refine .after fun type s' => ?_
    refine ends_bind.2 ((lowerParams_claims base _ rest s').mono (fun p s'' h => ?_) fun _ _ h => h)
    exact ends_pure.2 (Registry.cons_eq_claimAll h)

theorem lowerBody_claims (base : String) (r : Registry) (body : Option RequestBody) (s : Draft) :
    Ends (lowerBody c base r body) s
      (fun b _ => b.toList.map (·.ident) = (r.claimAll (b.toList.map fun _ => "body")).1) fun _ _ => True := by
  cases body with
  | none => exact ends_pure.2 rfl
  | some b => exact .after fun type _ => ends_pure.2 rfl

/-- The statuses of responses are declared, in this order, and each response is named by its status. -/
theorem lowerResponses_statuses (base : String) : ∀ (responses : List (String × Response)) (s : Draft),
    Ends (lowerResponses c base responses) s
      (fun rs _ => (rs.map (·.status)).Sublist (responses.map (·.1)) ∧ ∀ r ∈ rs, r.Named) fun _ _ => True
  | [], s => ends_pure.2 ⟨List.Sublist.refl [], fun r hr => by cases hr⟩
  | (status, response) :: rest, s => by
    rw [lowerResponses_cons]
    refine .after fun type s' => ?_
    refine ends_bind.2 ((lowerResponses_statuses base rest s').mono (fun others s'' h => ends_pure.2 ?_) fun _ _ h => h)
    cases type with
    | none => exact ⟨h.1.cons _, h.2⟩
    | some type => exact ⟨h.1.cons_cons _, List.forall_mem_cons.2 ⟨⟨rfl, rfl⟩, h.2⟩⟩

theorem lowerOperation_statuses (o : Operation) (s : Draft) : Ends (lowerOperation c o) s
    (fun operation _ => (operation.responses.map (·.status)).Sublist (o.responses.map (·.1)) ∧
      ∀ r ∈ operation.responses, r.Named) fun _ _ => True := by
  refine .after fun request _ => .after fun response _ => .after fun service _ => .after fun (params, r) _ => ?_
  refine .after fun body s' => ?_
  exact ends_bind.2 ((lowerResponses_statuses c _ o.responses s').mono (fun _ _ h => ends_pure.2 h) fun _ _ h => h)

/-- An operation has its identifiers from claims. -/
theorem lowerOperation_claimed (o : Operation) (s : Draft) :
    Ends (lowerOperation c o) s (fun operation _ => operation.Claimed c.target) fun _ _ => True := by
  refine .after fun request _ => .after fun response _ => .after fun service s' => ?_
  refine ends_bind.2 ((lowerParams_claims c _ _ _ s').mono (fun p s'' hp => ?_) fun _ _ h => h)
  obtain ⟨params, r⟩ := p
  have hclaims : Registry.empty.claimAll (params.map fun q => c.target.fieldIdent q.name) =
      (params.map (·.ident), r) := hp.symm
  refine ends_bind.2 ((lowerBody_claims c _ r _ s'').mono (fun body _ hbody => ?_) fun _ _ h => h)
  refine .after fun responses _ => ends_pure.2 ?_
  rw [OperationDef.Claimed, OperationDef.idents, OperationDef.askedIdents, Registry.claimAll_append, hclaims, hbody]

end Compose

/-! ## Types and operations of a model -/

/-- The types and operations of a model have their names from claims. -/
theorem ofGraph_claimed (g : SchemaGraph) (operations : List Operation) (target : Target) (config : Config) :
    (∀ t ∈ (Model.ofGraph g operations target config).types, t.body.Claimed target) ∧
      ∀ o ∈ (Model.ofGraph g operations target config).operations, o.Claimed target := by
  constructor
  · refine ofGraph_bodies g operations config ?_ fun _ => ⟨rfl, rfl⟩
    rintro c rfl id name shape s hcomposite
    exact compose_claimed c id name hcomposite s
  · refine ofGraph_operations g operations config ?_
    rintro c rfl o - s
    exact lowerOperation_claimed c o s

end Lowering

end ContractBindings
