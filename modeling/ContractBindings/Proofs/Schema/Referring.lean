import ContractBindings.Proofs.Schema.Keywords

/-!
# Nodes of schemas with a reference

Every keyword that gives a schema a shape comes before its reference, and none of them makes a node that refers to a
definition (`Unreferring`), except that one branch beside null is the branch itself, made nullable. So where the node of
a schema with a reference is not nullable and refers to a definition, it is the one that the schema's own reference leads
to (`visit_reference`).
-/

namespace ContractBindings

/-- The definition that a shape refers to, if it is a reference. -/
def Shape.target? : Shape → Option SchemaId
  | .reference target => some target
  | _ => none

theorem Shape.eq_of_target? {shape : Shape} {target : SchemaId} (h : shape.target? = some target) :
    shape = .reference target := by
  cases shape with
  | reference t => exact congrArg Shape.reference (Option.some.inj h)
  | _ => cases h

namespace Interpretation

/-- An interpretation answers with a shape that is no reference. -/
def Unreferring (x : Interpretation Shape) : Prop :=
  ∀ s, Ends x s (fun shape _ => ∀ t, shape ≠ .reference t) fun _ _ => True

namespace Unreferring

theorem pure {shape : Shape} (h : ∀ t, shape ≠ .reference t) : Unreferring (Pure.pure shape) := fun _ => ends_pure.2 h

theorem after {x : Interpretation α} {f : α → Interpretation Shape} (h : ∀ a, Unreferring (f a)) :
    Unreferring (x >>= f) := fun _ => .after fun a s => h a s

end Unreferring

section Levels

variable {r : Resolver} {visit : Visit}

theorem object_unreferring (entries : Entries) (id : SchemaId) : Unreferring (object visit entries id) := by
  unfold object
  refine .after fun _ => ?_
  dsimp only
  split <;> exact .after fun _ => .pure (by simp)

theorem array_unreferring (entries : Entries) (id : SchemaId) : Unreferring (array visit entries id) := by
  unfold array
  split
  · exact .after fun _ => .pure (by simp)
  · exact .pure (by simp)

theorem typed_unreferring (declared : String) (entries : Entries) (id : SchemaId) :
    Unreferring (typed visit declared entries id) := by
  unfold typed
  dsimp only
  split
  case h_5 => exact object_unreferring entries id
  case h_6 => exact array_unreferring entries id
  case h_7 => exact fun _ => ends_throw.2 trivial
  all_goals exact .pure (by simp)

theorem flattened_unreferring (id : SchemaId) (nodes : List SchemaNode) : Unreferring (do
    let slots ← get
    match ← ofSchema (Composition.flatten id (nodes.map (partShape? slots))) with
    | some merged => return merged
    | none => return .intersection nodes) := by
  refine .after fun slots s => ?_
  cases hflatten : Composition.flatten id (nodes.map (partShape? slots)) with
  | error e => exact ends_bind.2 (ends_throw.2 trivial)
  | ok merged =>
    refine ends_bind.2 (ends_pure.2 ?_)
    cases merged with
    | none => exact ends_pure.2 (by simp)
    | some shape => exact ends_pure.2 (flatten_spec hflatten).1

theorem composition_unreferring (entries : Entries) (id : SchemaId) (parts : List Tree) :
    Unreferring (composition visit entries id parts) := by
  unfold composition
  refine .after fun nodes => ?_
  dsimp only
  split
  · exact .after fun shape => .after fun siblings => flattened_unreferring id (nodes ++ siblings)
  · exact .after fun siblings => flattened_unreferring id (nodes ++ siblings)

theorem severalTypes_unreferring (declared : List String) (entries : Entries) (id : SchemaId) :
    Unreferring (severalTypes visit declared entries id) := by
  unfold severalTypes
  exact .after fun _ => .pure (by simp)

/-- A shape that is a reference and does not make the node nullable is the one that the schema's own reference leads to. -/
theorem shape_refers (entries : Entries) (id : SchemaId) (s : Slots) :
    Ends (shape r visit entries id) s
      (fun p _ => ∀ t, p.1 = .reference t → p.2 = false → ∃ text found, Reference.textOf? entries = some text ∧
        r.find text id.pointer = .ok found ∧ t = ⟨found.pointer⟩)
      fun _ _ => True := by
  have hplain {x : Interpretation Shape} (hx : Unreferring x) : Ends (do return (← x, false)) s
      (fun p _ => ∀ t, p.1 = .reference t → p.2 = false → ∃ text found, Reference.textOf? entries = some text ∧
        r.find text id.pointer = .ok found ∧ t = ⟨found.pointer⟩) fun _ _ => True :=
    ends_bind.2 ((hx s).mono (fun shape _ h => ends_pure.2 fun t ht => absurd ht (h t)) fun _ _ h => h)
  unfold shape
  dsimp only
  split
  · next values _ =>
    cases hvalues : enumeration id values with
    | error e => exact ends_throw.2 trivial
    | ok p => exact ends_pure.2 fun t ht => absurd ht ((enumeration_leaf hvalues).2 t)
  · split
    · unfold union
      dsimp only
      refine .after fun nodes s' => ?_
      split
      · exact ends_pure.2 fun _ _ hno => nomatch hno
      · exact .after fun _ _ => ends_pure.2 (by simp)
    · split
      · exact hplain (composition_unreferring entries id _)
      · split
        · exact hplain (severalTypes_unreferring _ entries id)
        · exact hplain (typed_unreferring _ entries id)
        · split
          · exact hplain (object_unreferring entries id)
          · split
            · exact hplain (array_unreferring entries id)
            · split
              · next text htext =>
                unfold reference
                cases hfind : r.find text id.pointer with
                | error e => exact ends_bind.2 (ends_throw.2 trivial)
                | ok found =>
                  refine ends_bind.2 (.after fun _ _ => ends_pure.2 (ends_pure.2 ?_))
                  rintro t ⟨⟩ -
                  exact ⟨text, found, htext, hfind, rfl⟩
              · exact ends_pure.2 fun t ht => by cases ht

/-- A level is the node with its identity, and nullable if it is flagged so. Where it refers to a definition without being
nullable, it is the definition that its own reference leads to. -/
theorem level_refers (tree : Tree) (id : SchemaId) (s : Slots) :
    Ends (level r visit tree id) s
      (fun node _ => node.id = id ∧ (((tree.get? "nullable").bind Tree.asBool?).getD false = true → node.nullable = true) ∧
        ∀ t, node.shape = .reference t → node.nullable = false → ∃ text found,
          (tree.get? "$ref").bind Tree.asText? = some text ∧ r.find text id.pointer = .ok found ∧ t = ⟨found.pointer⟩)
      fun _ _ => True := by
  unfold level
  cases hentries : tree.asMapping? with
  | none => exact ends_pure.2 ⟨rfl, fun h => by simp [Tree.get?, hentries] at h, fun t ht => by cases ht⟩
  | some entries =>
    refine ends_bind.2 ((shape_refers entries id s).mono ?_ fun _ _ h => h)
    rintro ⟨shape, shapeNull⟩ s' h
    refine ends_pure.2 ⟨rfl, fun hflagged => ?_, fun t ht hnull => ?_⟩
    · simp only [Tree.get?, hentries, Option.bind_some] at hflagged
      simp [SchemaNode.nullable, hflagged]
    · simp only [SchemaNode.nullable, Bool.or_eq_false_iff] at hnull
      simpa [Reference.textOf?, Tree.get?, hentries] using h t ht hnull.2

end Levels

/-- Where the node of a schema with a reference refers to a definition without being nullable, it is the definition that
the reference leads to. -/
theorem visit_reference {r : Resolver} {tree : Tree} {text : String} (htext : (tree.get? "$ref").bind Tree.asText? = some text)
    (id : SchemaId) (s : Slots) :
    Ends (visit r tree id) s
      (fun node _ => node.id = id ∧ (((tree.get? "nullable").bind Tree.asBool?).getD false = true → node.nullable = true) ∧
        ∀ t, node.shape = .reference t → node.nullable = false →
          ∃ found, r.find text id.pointer = .ok found ∧ t = ⟨found.pointer⟩)
      fun _ _ => True := by
  unfold visit
  cases bound r.root with
  | zero => exact ends_throw.2 trivial
  | succ depth =>
    refine (level_refers tree id s).mono (fun node _ h => ⟨h.1, h.2.1, fun t ht hnull => ?_⟩) fun _ _ h => h
    obtain ⟨text', found, htext', hfound, rfl⟩ := h.2.2 t ht hnull
    obtain rfl := Option.some.inj (htext.symm.trans htext')
    exact ⟨found, hfound, rfl⟩

end Interpretation

end ContractBindings
