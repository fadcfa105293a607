import ContractBindings.Proofs.Model.Convention

/-!
# Names in a model

The names of types are made of words alone: what a type is named after is a title or a pointer in Pascal form, and what is
put behind it are words again. That names are words is a convention (`Convention.worded`), so the names in a model are words
(`ofGraph_words`), whatever the document calls its parts.
-/

namespace ContractBindings

open Naming

/-! ## Words for types -/

mutual

/-- The words for a descriptor stand in one line if the names in it are words. -/
theorem TypeDescriptor.unbroken_describe : ∀ type : TypeDescriptor, (∀ n ∈ type.names, Word n) →
    '\n' ∉ type.describe.toList
  | .mk kind nullable, h => by
    have hkind := TypeDescriptor.unbroken_describeKind kind h
    cases nullable <;> simp [TypeDescriptor.describe, String.toList_append, hkind]

theorem TypeDescriptor.unbroken_describeKind : ∀ kind : TypeKind, (∀ n ∈ TypeDescriptor.namesOfKind kind, Word n) →
    '\n' ∉ (TypeDescriptor.describeKind kind).toList
  | .scalar scalar, _ => by cases scalar <;> decide
  | .list item, h => by
    have hitem := TypeDescriptor.unbroken_describe item h
    simp [TypeDescriptor.describeKind, String.toList_append, hitem]
  | .map value, h => by
    have hvalue := TypeDescriptor.unbroken_describe value h
    simp [TypeDescriptor.describeKind, String.toList_append, hvalue]
  | .named name _, h => (h name (List.mem_singleton_self name)).lettered.not_mem (by decide)
  | .opaqueValue, _ => by decide
  | .unit, _ => by decide

end

/-- The names that a body uses are words, and the words for the branches of a union stand in one line. -/
structure TypeBody.Worded (b : TypeBody) : Prop where
  uses : ∀ n ∈ b.uses, Word n
  alternatives : ∀ a ∈ b.alternatives, '\n' ∉ a.toList

/-- The names of the types for an operation and those that it uses are words. -/
structure OperationDef.Worded (o : OperationDef) : Prop where
  request : Word o.request
  response : Word o.response
  service : Word o.service
  uses : ∀ n ∈ o.uses, Word n

namespace Lowering

/-- All names are words. -/
def Convention.worded : Convention where
  registry _ := True
  base := Word
  use name _ := Word name
  claimed _ hbase := ⟨Registry.word_claim _ hbase, trivial⟩
  titled title _ hcapital hlettered := word_pascalCaseOr title (hcapital.word hlettered)
  suffixed := Word.append
  inside h := h

theorem Convention.worded_uses {marks : List (String × Bool)} (h : Convention.worded.Uses marks) :
    ∀ n ∈ marks.map (·.1), Word n := by
  intro n hn
  obtain ⟨p, hp, rfl⟩ := List.mem_map.1 hn
  exact h p hp

/-- The names of definitions are words. -/
theorem nameDefinitions_words : ∀ (ds : List Definition) (n : Lowering.Naming), (∀ p ∈ n.names, Word p.2) →
    ∀ p ∈ (nameDefinitions n ds).names, Word p.2
  | [], _, h => h
  | d :: ds, n, h => by
    rw [nameDefinitions]
    split
    · next node _ =>
      have hbase : Word (definitionBase d.id node) := by
        unfold definitionBase
        split <;> exact word_pascalCaseOr _ (by decide)
      refine nameDefinitions_words ds _ ?_
      exact List.forall_mem_append.2 ⟨h, List.forall_mem_singleton.2 (n.registry.word_claim hbase)⟩
    · exact nameDefinitions_words ds _ h

theorem named_words (g : SchemaGraph) (target : Target) : ∀ p ∈ (named g target).names, Word p.2 :=
  nameDefinitions_words _ _ (List.forall_mem_nil _)

/-- The names in a model are words. -/
theorem ofGraph_words (g : SchemaGraph) (operations : List Operation) (target : Target) (config : Config) :
    (∀ t ∈ (Model.ofGraph g operations target config).types, Word t.name ∧ t.body.Worded) ∧
      ∀ o ∈ (Model.ofGraph g operations target config).operations, o.Worded := by
  obtain ⟨htypes, hoperations⟩ := ofGraph_obeys_of_names (k := .worded) config (fun _ _ => trivial)
    (fun p hp _ => named_words g target p hp) operations
  constructor
  · intro t ht
    obtain ⟨⟨_, hname⟩, hmarks, halternatives⟩ := htypes t ht
    refine ⟨hname, ?_, fun a ha => ?_⟩
    · rw [t.body.uses_eq]
      exact Convention.worded_uses hmarks
    · obtain ⟨type, htype, rfl⟩ := halternatives a ha
      refine type.unbroken_describe ?_
      rw [type.names_eq]
      exact Convention.worded_uses htype
  · intro o ho
    have hobeys := hoperations o ho
    refine ⟨hobeys.request, hobeys.response, hobeys.service, ?_⟩
    rw [o.uses_eq]
    exact Convention.worded_uses hobeys.marks

end Lowering

end ContractBindings
