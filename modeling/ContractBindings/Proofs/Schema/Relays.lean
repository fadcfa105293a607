import ContractBindings.Proofs.Document.Edges
import ContractBindings.Proofs.Schema.Content
import ContractBindings.Proofs.Schema.Referring

/-!
# Schemas that relay a reference

The node of a schema refers to a definition in two cases only: no keyword gives the schema a shape and it has a
reference, or it has one branch beside null and that branch is such a schema, in turn. Both are told by the document
alone (`Tree.Relays`), and interpretation does what they tell (`node_relayed`). A keyword with a value that does not fit it
gives no shape, so a schema may relay a reference although it has a key for which the resolver takes it as the end of a
chain of aliases.

Relays join definitions (`Document.Relay`), and whatever calls were made, the table of definitions has a reference exactly
where there is a relay (`runAll_relaying`).
-/

namespace ContractBindings

open Interpretation Reference

/-! ## Relays in a document -/

/-- The keywords that are looked at before the reference give no shape. -/
structure Entries.Bare (entries : Entries) : Prop where
  no_values : declaredValues? entries = none
  no_branches : branches? entries = none
  no_parts : sequence? entries "allOf" = none
  no_types : (declaredTypes entries).filter (· != "null") = []
  no_fields : (entries.hasKey "properties" || entries.hasKey "additionalProperties") = false
  no_items : entries.hasKey "items" = false

/-- A schema passes on a reference: its own, or that of its only branch beside null. -/
inductive Tree.Relays : Tree → String → Prop
  | own {tree : Tree} {entries : Entries} {text : String} : tree.asMapping? = some entries → entries.Bare →
      textOf? entries = some text → Relays tree text
  | branch {tree other : Tree} {entries : Entries} {key text : String} {branches : List Tree} :
      tree.asMapping? = some entries → declaredValues? entries = none → branches? entries = some (key, branches) →
        branches.any isNullBranch = true → branches.filter (fun branch => !isNullBranch branch) = [other] →
          Relays other text → Relays tree text

/-- What a reference resolves to does not depend on its holder. -/
theorem Reference.resolve_eq_ok_iff {root : Tree} {text holder : String} {found : Resolved} :
    resolve root text holder = .ok found ↔ chase root (chainBound root) [] text = .ok found := by
  unfold resolve
  cases chase root (chainBound root) [] text with
  | ok answer => exact ⟨fun h => congrArg Except.ok (Except.ok.inj h), fun h => congrArg Except.ok (Except.ok.inj h)⟩
  | error cause =>
    constructor <;> intro h <;> cases h

namespace Tree.Relays

variable {tree : Tree} {entries : Entries} {text : String}

theorem own_or_branch (h : tree.Relays text) (hentries : tree.asMapping? = some entries) :
    (entries.Bare ∧ textOf? entries = some text) ∨ ∃ key branches other, declaredValues? entries = none ∧
      branches? entries = some (key, branches) ∧ branches.any isNullBranch = true ∧
        branches.filter (fun branch => !isNullBranch branch) = [other] ∧ other.Relays text := by
  cases h with
  | own hmapping hbare htext =>
    obtain rfl := Option.some.inj (hentries.symm.trans hmapping)
    exact .inl ⟨hbare, htext⟩
  | branch hmapping hvalues hbranches hnull hothers hother =>
    obtain rfl := Option.some.inj (hentries.symm.trans hmapping)
    exact .inr ⟨_, _, _, hvalues, hbranches, hnull, hothers, hother⟩

theorem no_values (h : tree.Relays text) (hentries : tree.asMapping? = some entries) :
    declaredValues? entries = none := by
  rcases h.own_or_branch hentries with ⟨hbare, -⟩ | ⟨_, _, _, hvalues, -⟩
  · exact hbare.no_values
  · exact hvalues

theorem bare (h : tree.Relays text) (hentries : tree.asMapping? = some entries) (hbranches : branches? entries = none) :
    entries.Bare ∧ textOf? entries = some text := by
  rcases h.own_or_branch hentries with hown | ⟨_, _, _, -, hsome, -⟩
  · exact hown
  · rw [hbranches] at hsome
    cases hsome

/-- With branches, the reference is that of the only one beside null. -/
theorem of_branches (h : tree.Relays text) (hentries : tree.asMapping? = some entries) {key : String}
    {branches : List Tree} (hbranches : branches? entries = some (key, branches)) :
    branches.any isNullBranch = true ∧
      ∃ other, branches.filter (fun branch => !isNullBranch branch) = [other] ∧ other.Relays text := by
  rcases h.own_or_branch hentries with ⟨hbare, -⟩ | ⟨_, _, other, -, hsome, hnull, hothers, hother⟩
  · rw [hbare.no_branches] at hbranches
    cases hbranches
  · rw [hbranches] at hsome
    cases hsome
    exact ⟨hnull, other, hothers, hother⟩

end Tree.Relays

namespace Document

/-- A tree relays a reference to a definition. -/
def RelaysTo (d : Document) (tree : Tree) (k : SchemaId) : Prop :=
  ∃ text found, tree.Relays text ∧ resolve d.root text "#" = .ok found ∧ k = ⟨found.pointer⟩

/-- A definition relays a reference to another. -/
def Relay (d : Document) (j k : SchemaId) : Prop := ∃ tree, d.tree? j = some tree ∧ d.RelaysTo tree k

variable {d : Document} {tree : Tree} {j k : SchemaId}

theorem relay_iff (htree : d.tree? j = some tree) : d.Relay j k ↔ d.RelaysTo tree k := by
  constructor
  · rintro ⟨other, hother, hrelays⟩
    obtain rfl := Option.some.inj (htree.symm.trans hother)
    exact hrelays
  · exact fun hrelays => ⟨tree, htree, hrelays⟩

theorem not_relaysTo (h : ∀ text, ¬ tree.Relays text) : ¬ d.RelaysTo tree k := by
  rintro ⟨text, -, hrelays, -⟩
  exact h text hrelays

/-- What a relay leads to is no alias for the resolver. -/
theorem Relay.not_alias (h : d.Relay j k) : ∃ tree, d.tree? k = some tree ∧ aliasTarget? tree = none := by
  obtain ⟨-, -, text, found, -, hresolve, rfl⟩ := h
  obtain ⟨-, hlookup, halias⟩ := chase_spec (resolve_eq_ok_iff.1 hresolve)
  exact ⟨found.node, tree?_of_lookup hlookup, halias⟩

end Document

namespace Interpretation

variable {d : Document} {r : Resolver} {visit : Visit}

/-! ## Interpretation relays -/

/-- An interpretation answers with a reference exactly to what the tree relays one to, and no schema error arises where it
relays one. -/
def Relayed (d : Document) (tree : Tree) (shapeOf : α → Shape) (x : Interpretation α) : Prop :=
  ∀ s, Ends x s (fun a _ => ∀ k, shapeOf a = .reference k ↔ d.RelaysTo tree k)
    fun e _ => ∀ error, e = .schema error → ∀ k, ¬ d.RelaysTo tree k

/-- Shapes that are no references, of a tree that relays nothing. -/
theorem Unreferring.relayed {tree : Tree} {x : Interpretation Shape} (hx : Unreferring x)
    (hno : ∀ text, ¬ tree.Relays text) : Relayed d tree Prod.fst (do return (← x, false)) := by
  intro s
  refine ends_bind.2 ((hx s).mono (fun shape s' hshape => ends_pure.2 fun k => ?_) fun e s' _ error _ k => ?_)
  · exact iff_of_false (hshape k) (Document.not_relaysTo hno)
  · exact Document.not_relaysTo hno

/-- A walk over a list that fails fails at one of the items, and else gives an answer for each. -/
theorem ends_mapM {f : γ → Interpretation α} {ok : γ → α → Prop} {failed : γ → InterpretError → Prop} :
    ∀ (items : List γ), (∀ c ∈ items, ∀ s, Ends (f c) s (fun a _ => ok c a) fun e _ => failed c e) → ∀ s,
      Ends (items.mapM f) s (fun answers _ => List.Forall₂ ok items answers) fun e _ => ∃ c ∈ items, failed c e
  | [], _, s => by
    rw [List.mapM_nil]
    exact ends_pure.2 .nil
  | c :: items, h, s => by
    rw [List.mapM_cons]
    refine ends_bind.2 ((h c List.mem_cons_self s).mono (fun a s' ha => ?_) fun e _ he => ⟨c, List.mem_cons_self, he⟩)
    have hrest := ends_mapM items (fun c' hc' => h c' (List.mem_cons_of_mem _ hc')) s'
    refine ends_bind.2 (hrest.mono (fun answers _ hanswers => ends_pure.2 (.cons ha hanswers)) fun e _ he => ?_)
    obtain ⟨c', hc', he⟩ := he
    exact ⟨c', List.mem_cons_of_mem _ hc', he⟩

/-- The branches that are kept are those with their indices that are. -/
theorem map_filter_indexed (branches : List Tree) (keep : Tree → Bool) :
    ((indexed branches).filter fun p => keep p.2).map (·.2) = branches.filter keep := by
  have hsnd : (indexed branches).map (·.2) = branches := List.map_snd_zip (by simp)
  conv_rhs => rw [← hsnd]
  rw [List.filter_map]
  rfl

section Levels

variable {tree : Tree} {entries : Entries} (hentries : tree.asMapping? = some entries)

include hentries

theorem union_relayed (hvisit : ∀ part id, Relayed d part SchemaNode.shape (visit part id))
    (hvalues : declaredValues? entries = none) {key : String} {branches : List Tree}
    (hbranches : branches? entries = some (key, branches)) (id : SchemaId) :
    Relayed d tree Prod.fst (union r visit entries id key branches) := by
  intro s
  unfold union
  dsimp only
  have hothers := map_filter_indexed branches fun branch => !isNullBranch branch
  generalize ((indexed branches).filter fun p => !isNullBranch p.2) = others at hothers
  have hmany {nodes : List SchemaNode} (hlength : nodes.length = others.length)
      (hshape : ¬ (branches.any isNullBranch = true ∧ nodes.length = 1)) (text : String) : ¬ tree.Relays text := by
    intro hrelays
    obtain ⟨hnull, other, hother, -⟩ := hrelays.of_branches hentries hbranches
    refine hshape ⟨hnull, ?_⟩
    rw [hlength, ← List.length_map (f := (·.2)), hothers, hother]
    rfl
  refine ends_bind.2 ((ends_mapM others (fun c _ => hvisit c.2 _) s).mono (fun nodes s' hnodes => ?_)
    fun e _ he error herror k hk => ?_)
  · split
    · next single hnull =>
      -- one branch beside null is the schema itself
      cases hnodes with
      | cons hsingle hnil =>
        next c rest =>
        cases hnil
        refine ends_pure.2 fun k => (hsingle k).trans ⟨?_, ?_⟩
        · rintro ⟨text, found, hrelays, hfound⟩
          exact ⟨text, found, .branch hentries hvalues hbranches hnull (by simpa using hothers.symm) hrelays, hfound⟩
        · rintro ⟨text, found, hrelays, hfound⟩
          obtain ⟨-, other, hother, hrelays⟩ := hrelays.of_branches hentries hbranches
          rw [hother] at hothers
          obtain rfl : c.2 = other := by simpa using hothers
          exact ⟨text, found, hrelays, hfound⟩
    · next hshape =>
      have hno (k : SchemaId) : ¬ d.RelaysTo tree k := by
        refine Document.not_relaysTo (hmany hnodes.length_eq.symm fun hone => ?_)
        obtain ⟨single, rfl⟩ := List.length_eq_one_iff.1 hone.2
        exact hshape single rfl hone.1
      refine ends_bind.2 (Ends.trivial.mono (fun _ _ _ => ends_pure.2 fun k => ?_) fun _ _ _ _ _ k => hno k)
      exact iff_of_false (by simp) (hno k)
  · obtain ⟨text, found, hrelays, hfound⟩ := hk
    obtain ⟨-, other, hother, hrelays⟩ := hrelays.of_branches hentries hbranches
    obtain ⟨c, hc, hfailed⟩ := he
    have hmem : c.2 ∈ others.map (·.2) := List.mem_map_of_mem hc
    rw [hothers, hother, List.mem_singleton] at hmem
    exact hfailed error herror k ⟨text, found, hmem ▸ hrelays, hfound⟩

theorem reference_relayed (hr : r.Serves d.root) (hbare : entries.Bare) {text : String}
    (htext : textOf? entries = some text) (id : SchemaId) :
    Relayed d tree Prod.fst (do return (.reference (← reference r visit text id), false)) := by
  intro s
  unfold reference
  have hfind := hr.find_eq text id.pointer
  cases hfound : r.find text id.pointer with
  | error e =>
    refine ends_bind.2 (ends_throw.2 fun error herror => ?_)
    cases herror
  | ok found =>
    rw [hfound] at hfind
    have hdefine : Ends (define visit ⟨found.pointer⟩ found.node) s (fun _ _ => True)
        fun e _ => ∀ error, e ≠ .schema error := by
      rw [define]
      refine ends_bind.2 (ends_get.2 ?_)
      split
      · refine ends_bind.2 (ends_modify.2 (ends_bind.2 (ends_catchSchema ?_)))
        exact Ends.trivial.mono (fun _ _ _ => ends_modify.2 trivial) fun _ _ _ =>
          ⟨fun _ _ => ends_modify.2 trivial, fun hno => hno⟩
      · exact ends_pure.2 trivial
    refine ends_bind.2 (ends_bind.2 (hdefine.mono (fun _ _ _ => ends_pure.2 (ends_pure.2 fun k => ?_)) ?_))
    · constructor
      · rintro ⟨⟩
        exact ⟨text, found, .own hentries hbare htext, resolve_eq_ok_iff.2 (resolve_eq_ok_iff.1 hfind.symm), rfl⟩
      · rintro ⟨text', found', hrelays, hfound', rfl⟩
        obtain ⟨-, htext'⟩ := hrelays.bare hentries hbare.no_branches
        obtain rfl := Option.some.inj (htext.symm.trans htext')
        obtain rfl : found = found' := Except.ok.inj
          ((resolve_eq_ok_iff.1 hfind.symm).symm.trans (resolve_eq_ok_iff.1 hfound'))
        rfl
    · exact fun e _ hno error herror => absurd herror (hno error)

theorem shape_relayed (hr : r.Serves d.root) (hvisit : ∀ part id, Relayed d part SchemaNode.shape (visit part id))
    (id : SchemaId) : Relayed d tree Prod.fst (shape r visit entries id) := by
  unfold shape
  dsimp only
  split
  · next values hvalues =>
    have hno (k : SchemaId) : ¬ d.RelaysTo tree k := by
      refine Document.not_relaysTo fun text hrelays => ?_
      rw [hrelays.no_values hentries] at hvalues
      cases hvalues
    intro s
    cases hvalue : enumeration id values with
    | error e => exact ends_throw.2 fun _ _ => hno
    | ok p => exact ends_pure.2 fun k => iff_of_false ((enumeration_leaf hvalue).2 k) (hno k)
  · next hvalues =>
    split
    · next key branches hbranches => exact union_relayed hentries hvisit hvalues hbranches id
    · next hbranches =>
      -- a schema that relays a reference is bare from here on
      have hbare {text : String} (hrelays : tree.Relays text) := (hrelays.bare hentries hbranches).1
      split
      · next parts hparts =>
        refine (composition_unreferring entries id parts).relayed fun text hrelays => ?_
        rw [(hbare hrelays).no_parts] at hparts
        cases hparts
      · next hparts =>
        split
        · next htypes =>
          refine (severalTypes_unreferring _ entries id).relayed fun text hrelays => ?_
          rw [(hbare hrelays).no_types] at htypes
          cases htypes
        · next htypes =>
          refine (typed_unreferring _ entries id).relayed fun text hrelays => ?_
          rw [(hbare hrelays).no_types] at htypes
          cases htypes
        · next htypes =>
          split
          · next hfields =>
            refine (object_unreferring entries id).relayed fun text hrelays => ?_
            rw [(hbare hrelays).no_fields] at hfields
            cases hfields
          · next hfields =>
            split
            · next hitems =>
              refine (array_unreferring entries id).relayed fun text hrelays => ?_
              rw [(hbare hrelays).no_items] at hitems
              cases hitems
            · next hitems =>
              split
              · next text htext =>
                refine reference_relayed hentries hr ?_ htext id
                exact ⟨hvalues, hbranches, hparts, htypes, by simpa using hfields, by simpa using hitems⟩
              · next htext =>
                refine fun s => ends_pure.2 fun k => iff_of_false (by simp) ?_
                refine Document.not_relaysTo fun text hrelays => ?_
                rw [(hrelays.bare hentries hbranches).2] at htext
                cases htext

end Levels

/-- The node of a schema refers to a definition exactly if the schema relays a reference to it. -/
theorem node_relayed (hr : r.Serves d.root) (depth : Nat) :
    ∀ tree id, Relayed d tree SchemaNode.shape (node r depth tree id) := by
  induction depth with
  | zero =>
    refine fun tree id s => ends_throw.2 fun error herror => ?_
    cases herror
  | succ depth ih =>
    intro tree id s
    rw [node]
    unfold level
    cases hentries : tree.asMapping? with
    | none =>
      refine ends_pure.2 fun k => iff_of_false (by simp [SchemaNode.shape, SchemaNode.unknown, SchemaNode.ofShape]) ?_
      refine Document.not_relaysTo fun text hrelays => ?_
      cases hrelays with
      | own hmapping => cases hentries.symm.trans hmapping
      | branch hmapping => cases hentries.symm.trans hmapping
    | some entries =>
      refine ends_bind.2 ((shape_relayed hentries hr ih id s).mono ?_ fun _ _ h => h)
      exact fun p _ h => ends_pure.2 h

/-! ## Tables -/

end Interpretation

/-- The definition that a definition refers to, if it has a canonical form and its shape is a reference. -/
def Definition.target? (d : Definition) : Option SchemaId := d.node.toOption.bind fun n => n.shape.target?

/-- The definitions of a table that have content refer to what they relay a reference to. -/
def Slots.Relaying (d : Document) (s : Slots) : Prop :=
  ∀ k answer, s.lookup k = some (some answer) → ∀ t, Definition.target? ⟨k, answer⟩ = some t ↔ d.Relay k t

theorem Slots.relaying_upsert {d : Document} {s : Slots} {k : SchemaId}
    {content : Option (Except SchemaError SchemaNode)} (hs : s.Relaying d)
    (hcontent : ∀ answer, content = some answer → ∀ t, Definition.target? ⟨k, answer⟩ = some t ↔ d.Relay k t) :
    Slots.Relaying d (upsert s k content) := by
  intro j answer hj
  by_cases hjk : j = k
  · subst hjk
    rw [lookup_upsert_self] at hj
    exact hcontent answer (Option.some.inj hj)
  · rw [lookup_upsert_of_ne hjk] at hj
    exact hs j answer hj

namespace Interpretation

variable {d : Document} {r : Resolver}

/-- However an interpretation ends, references stand where there are relays. -/
def KeepsRelaying (d : Document) (x : Interpretation α) : Prop :=
  ∀ s : Slots, s.Relaying d → Ends x s (fun _ s' => s'.Relaying d) fun _ s' => s'.Relaying d

namespace KeepsRelaying

variable {x : Interpretation α}

theorem of_quiet (h : ∀ s : Slots, (x.run.run s).2 = s) : KeepsRelaying d x := by
  intro s hs
  have hquiet := h s
  unfold Ends
  rcases hrun : x.run.run s with ⟨e | a, s'⟩ <;> rw [hrun] at hquiet <;> cases hquiet <;> exact hs

theorem state (hx : KeepsRelaying d x) {s : Slots} (hs : s.Relaying d) : Slots.Relaying d (x.run.run s).2 := by
  rcases hrun : x.run.run s with ⟨e | a, s'⟩
  · exact (hx s hs).failure hrun
  · exact (hx s hs).answer hrun

theorem bind {f : α → Interpretation β} (hx : KeepsRelaying d x) (hf : ∀ a, KeepsRelaying d (f a)) :
    KeepsRelaying d (x >>= f) :=
  fun s hs => ends_bind.2 ((hx s hs).mono (fun a s' h => hf a s' h) fun _ _ h => h)

/-- A definition is opened for what it stands for, and gets content that relays the same reference. -/
theorem define {visit : Visit} {k : SchemaId} {tree : Tree} (htree : d.tree? k = some tree)
    (hkeeps : KeepsRelaying d (visit tree k)) (hrelayed : Relayed d tree SchemaNode.shape (visit tree k)) :
    KeepsRelaying d (define visit k tree) := by
  intro s hs
  rw [Interpretation.define]
  refine ends_bind.2 (ends_get.2 ?_)
  split
  · have hopened : Slots.Relaying d (upsert s k none) := s.relaying_upsert hs (by simp)
    have hboth := (hkeeps _ hopened).and (hrelayed (upsert s k none))
    refine ends_bind.2 (ends_modify.2 (ends_bind.2 (ends_catchSchema (hboth.mono ?_ ?_))))
    · rintro n s' ⟨hs', hn⟩
      refine ends_modify.2 (Slots.relaying_upsert hs' ?_)
      rintro answer ⟨⟩ t
      rw [Document.relay_iff htree, ← hn t]
      exact ⟨Shape.eq_of_target?, fun ht => congrArg Shape.target? ht⟩
    · rintro e s' ⟨hs', he⟩
      refine ⟨fun error herror => ends_modify.2 (Slots.relaying_upsert hs' ?_), fun _ => hs'⟩
      rintro answer ⟨⟩ t
      rw [Document.relay_iff htree]
      exact iff_of_false (by simp [Definition.target?, Except.toOption]) (he error herror t)
  · exact ends_pure.2 hs

theorem node (hr : r.Serves d.root) (depth : Nat) : ∀ tree id, KeepsRelaying d (node r depth tree id) := by
  induction depth with
  | zero => exact fun _ _ => of_quiet fun _ => rfl
  | succ depth ih =>
    intro tree id
    refine (level_confined tree id).related (fun x _ => KeepsRelaying d x) (p := ⟨r, Interpretation.node r depth⟩)
      (q := ⟨r, Interpretation.node r depth⟩) (fun _ hquiet => of_quiet hquiet) bind (fun part id _ => ih part id) ?_
    intro text holder _
    unfold reference
    dsimp only
    split
    · next found hfound =>
      rw [hr.find_eq] at hfound
      have htree := Document.tree?_of_lookup (k := ⟨found.pointer⟩) (chase_spec (resolve_eq_ok_iff.1 hfound)).2.1
      exact (define htree (ih _ _) (node_relayed hr depth _ _)).bind fun _ => of_quiet fun _ => rfl
    · exact of_quiet fun _ => rfl

theorem call (hr : r.Serves d.root) (c : Call) : KeepsRelaying d (c.interpret r d) := by
  cases c with
  | components =>
    rw [Call.interpret, components_eq hr]
    refine bind ?_ fun _ => of_quiet fun _ => rfl
    generalize d.componentIds = ids
    induction ids with
    | nil => exact of_quiet fun _ => rfl
    | cons k ids ih =>
      refine bind ?_ fun _ => ih
      unfold opening
      split
      · next tree htree => exact define htree (node hr _ _ _) (node_relayed hr _ _ _)
      · exact of_quiet fun _ => rfl
  | inline tree id => exact fun s hs => ends_map.2 (node hr _ tree id s hs)

end KeepsRelaying

/-- Whatever calls were made, definitions refer to what they relay a reference to. -/
theorem runAll_relaying (hr : r.Serves d.root) (calls : List Call) {s : Slots} (hs : s.Relaying d) :
    (runAll r d calls s).2.Relaying d := by
  induction calls generalizing s with
  | nil => exact hs
  | cons c calls ih => exact ih ((KeepsRelaying.call hr c).state hs)

end Interpretation

end ContractBindings
