import ContractBindings.Proofs.Model.Growth
import ContractBindings.Proofs.Operation.Building

/-!
# The nodes that a computation lowers

To lower the shape of a node is to lower the nodes in it, one after the other, and besides to warn or to fail
(`describe_traverses`, `compose_traverses`); and to lower an operation is to lower its schemas so (`lowerOperation_traverses`).
A property that sequencing keeps thus holds of lowering a node if it holds of looking the node up and of making a type of it,
by induction on the nodes in it.
-/

namespace ContractBindings

open Naming

namespace Lowering

/-- A computation that lowers the nodes of a list in order, all at one position, and is else made of warnings and
failures. -/
inductive Traverses (c : Context) (position : Position) : {α : Type} → List SchemaNode → Lower α → Prop
  | pure {α : Type} (a : α) : Traverses c position [] (Pure.pure a : Lower α)
  | throw {α : Type} (e : Diagnostic) : Traverses c position [] (MonadExcept.throw e : Lower α)
  | warn (code : DiagnosticCode) (message : String) : Traverses c position [] (Lowering.warn c code message)
  | node (hint : String) (n : SchemaNode) : Traverses c position [n] (lower c hint position n)
  | bind {α β : Type} {nodes nodes' : List SchemaNode} {x : Lower α} {f : α → Lower β} : Traverses c position nodes x →
      (∀ a, Traverses c position nodes' (f a)) → Traverses c position (nodes ++ nodes') (x >>= f)

variable {c : Context} {position : Position} {nodes : List SchemaNode}

namespace Traverses

variable {x : Lower α}

theorem andThen {f : α → Lower β} (hx : Traverses c position nodes x) (hf : ∀ a, Traverses c position [] (f a)) :
    Traverses c position nodes (x >>= f) := by
  have h := hx.bind hf
  rwa [List.append_nil] at h

theorem map {f : α → β} (hx : Traverses c position nodes x) : Traverses c position nodes (f <$> x) := by
  rw [map_eq_pure_bind]
  exact hx.andThen fun a => .pure (f a)

theorem useDefinition (target : SchemaId) : Traverses c position [] (Lowering.useDefinition c target) := by
  unfold Lowering.useDefinition
  split
  · split
    · exact .throw _
    · exact .pure _
  · exact .throw _

theorem unknownShape (id : SchemaId) (place : Position) :
    Traverses c position [] (Lowering.unknownShape c id place) := by
  unfold Lowering.unknownShape
  dsimp only
  split
  · exact .throw _
  · exact (Traverses.warn _ _).andThen fun _ => .pure _

theorem contained (type : TypeDescriptor) (id : SchemaId) :
    Traverses c position [] (Lowering.contained c type id) := by
  unfold Lowering.contained
  split
  · exact (Traverses.warn _ _).andThen fun _ => .pure _
  · exact .pure _

theorem unionBody (name : String) (branches : List SchemaNode) (discriminator : Option Discriminator)
    (types : List TypeDescriptor) : Traverses c position [] (Lowering.unionBody c name branches discriminator types) := by
  obtain ⟨x, hx, hbody⟩ := unionBody_as c name branches discriminator types
  rw [hbody]
  cases hx with
  | downgraded _ => exact (Traverses.warn _ _).andThen fun _ => .pure _
  | plain _ => exact .pure _
  | tagged _ _ _ => exact .pure _
  | dropped _ _ => exact (Traverses.warn _ _).andThen fun _ => .pure _

end Traverses

/-! ## Lowering a shape -/

section Shape

variable (c : Context)

theorem lowerOr_traverses (hint : String) {absent : Lower TypeDescriptor} (h : Traverses c .nested [] absent) :
    ∀ n : Option SchemaNode, Traverses c .nested n.toList (lowerOr c hint absent n)
  | some n => .node hint n
  | none => h

theorem lowerOption_traverses (hint : String) : ∀ n : Option SchemaNode,
    Traverses c .nested n.toList (lowerOption c hint n)
  | some n => (Traverses.node hint n).map
  | none => .pure _

theorem lowerFields_traverses (name : String) (required : List String) : ∀ (r : Registry)
    (fields : List (String × SchemaNode)),
    Traverses c .nested (fields.map (·.2)) (lowerFields c name required r fields)
  | _, [] => .pure _
  | _, (_, node) :: rest =>
    (Traverses.node _ node).bind fun _ => (lowerFields_traverses name required _ rest).andThen fun _ => .pure _

theorem lowerBranches_traverses (name : String) : ∀ (number : Nat) (branches : List SchemaNode),
    Traverses c .nested branches (lowerBranches c name number branches)
  | _, [] => .pure _
  | _, node :: rest =>
    (Traverses.node _ node).bind fun _ => (lowerBranches_traverses name _ rest).andThen fun _ => .pure _

theorem lowerParts_traverses (name : String) : ∀ (number : Nat) (r : Registry) (parts : List SchemaNode),
    Traverses c .nested parts (lowerParts c name number r parts)
  | _, _, [] => .pure _
  | _, _, node :: rest =>
    (Traverses.node _ node).bind fun _ => (lowerParts_traverses name _ _ rest).andThen fun _ => .pure _

theorem describe_traverses (id : SchemaId) (hint : String) (position : Position) {shape : Shape}
    (h : isComposite shape = false) : Traverses c .nested shape.children (describe c id hint position shape) := by
  cases shape with
  | primitive kind format => exact .pure _
  | array items =>
    refine (lowerOr_traverses c _ (.unknownShape _ _) items).andThen fun item => ?_
    exact (Traverses.contained _ _).andThen fun _ => .pure _
  | object fields required additional =>
    obtain ⟨rfl, -⟩ : fields = [] ∧ additional.isSome = true := by simpa [isComposite] using h
    refine (lowerOr_traverses c _ (.unknownShape _ _) additional).andThen fun value => ?_
    exact (Traverses.contained _ _).andThen fun _ => .pure _
  | enumeration values => exact (Traverses.warn _ _).andThen fun _ => .pure _
  | reference target => exact (Traverses.useDefinition target).map
  | unknown => exact .unknownShape _ _
  | union branches discriminator => simp [isComposite] at h
  | intersection parts => simp [isComposite] at h

theorem compose_traverses (id : SchemaId) (name : String) {shape : Shape} (h : isComposite shape = true) :
    Traverses c .nested shape.children (compose c id name shape) := by
  cases shape with
  | object fields required additional =>
    refine (lowerFields_traverses c name required _ fields).bind fun p => ?_
    refine (lowerOption_traverses c _ additional).andThen fun value => ?_
    cases value with
    | some value => exact (Traverses.contained _ _).andThen fun _ => .pure _
    | none => exact .pure _
  | enumeration values => exact .pure _
  | union branches discriminator =>
    exact (lowerBranches_traverses c name 1 branches).andThen fun types => .unionBody _ _ _ _
  | intersection parts => exact (lowerParts_traverses c name 1 _ parts).andThen fun fields => .pure _
  | primitive kind format => simp [isComposite] at h
  | array items => simp [isComposite] at h
  | reference target => simp [isComposite] at h
  | unknown => simp [isComposite] at h

end Shape

/-! ## Lowering what an operation holds -/

section Operation

variable (c : Context) (base : String)

theorem lowerParams_traverses : ∀ (r : Registry) (params : List Parameter),
    Traverses c .payload (params.map (·.schema)) (lowerParams c base r params)
  | _, [] => .pure _
  | _, p :: rest =>
    (Traverses.node _ p.schema).bind fun _ => (lowerParams_traverses _ rest).andThen fun _ => .pure _

theorem lowerBody_traverses (r : Registry) : ∀ body : Option RequestBody,
    Traverses c .payload (body.toList.map (·.schema)) (lowerBody c base r body)
  | none => .pure _
  | some b => (Traverses.node _ b.schema).andThen fun _ => .pure _

theorem responseType_traverses (status : String) (response : Response) :
    Traverses c .payload response.schema.toList (responseType c base status response) := by
  unfold responseType
  cases response.schema with
  | some node => exact (Traverses.node _ node).map
  | none => cases c.config.emptyResponses <;> exact .pure _

theorem lowerResponses_traverses : ∀ responses : List (String × Response),
    Traverses c .payload (responses.flatMap (·.2.schema.toList)) (lowerResponses c base responses)
  | [] => .pure _
  | (status, response) :: rest => by
    rw [lowerResponses_cons]
    exact (responseType_traverses c base status response).bind fun _ =>
      (lowerResponses_traverses rest).andThen fun _ => .pure _

/-- Once its names are claimed, an operation lowers its schemas in order. -/
theorem lowerOperation_traverses (o : Operation) : ∃ rest : String → String → String → Lower OperationDef,
    (∀ request response service, Traverses c .payload o.schemas (rest request response service)) ∧
      lowerOperation c o = (do
        let request ← claim (pascalCaseOr o.id "Operation" ++ c.target.requestSuffix)
        let response ← claim (pascalCaseOr o.id "Operation" ++ "Response")
        let service ← claim (pascalCaseOr o.id "Operation" ++ c.target.serviceSuffix)
        rest request response service) := by
  refine ⟨_, fun request response service => ?_, rfl⟩
  rw [Operation.schemas, List.filterMap_eq_flatMap_toList, List.append_assoc]
  refine (lowerParams_traverses c _ _ _).bind fun (params, r) => (lowerBody_traverses c _ _ _).bind fun body => ?_
  exact (lowerResponses_traverses c _ _).andThen fun responses => .pure _

end Operation

end Lowering

end ContractBindings
