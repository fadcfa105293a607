import ContractBindings.Proofs.Document.Reordering
import ContractBindings.Proofs.Schema.Uniform

/-!
# What definitions mean

Where the references between definitions do not loop, a definition means the same in whatever order the definitions are
reached: the content that is stored for it is the one that it has when it is interpreted first (`runAll_content`). So the
component schemas of a document in another order make the same graph in another order, and schemas that are interpreted
before only add definitions.

A schema is interpreted by its keywords, and no keyword is on the way to the component schemas. So a tree in which the
component schemas were put into another order is interpreted as before (`visit_shuffled`): references lead to the same
definitions, and what these stand for was at most shuffled, too.
-/

namespace ContractBindings

open Relation (ReflTransGen)

namespace Interpretation

open ContractBindings.Tree (Shuffled)

/-! ## Documents in another order -/

/-- A level reads a tree by its keywords, none of which is on the way to the component schemas. -/
theorem level_shuffled {tree tree' : Tree} (h : Shuffled tree tree') (r : Resolver) (visit : Visit) (id : SchemaId) :
    level r visit tree' id = level r visit tree id := by
  obtain rfl | ⟨entries, entries', hentries, hentries', hkeywords⟩ := h.keywords
  · rfl
  · exact level_sameSchema hentries hentries' hkeywords.sameSchema r visit id

/-- A confined interpretation is given all that it depends on. -/
theorem Confined.congr {tree : Tree} {P : α → Slots → Prop} {x : Reading → Interpretation α} (h : Confined tree P x)
    (p p' : Reading) (hvisit : ∀ part id, p'.visit part id = p.visit part id)
    (hreference : ∀ text holder, Interpretation.reference p'.resolver p'.visit text holder =
      Interpretation.reference p.resolver p.visit text holder) : x p' = x p :=
  h.related (fun x y => y = x) (fun _ _ => rfl) (fun hx hf => by rw [hx, funext hf]) (fun part id _ => hvisit part id)
    fun text holder _ => hreference text holder

variable {r r' : Resolver} {d d' : Document}

theorem find_shuffled (hd : d.Reorders d') (hr : r.Serves d.root) (hr' : r'.Serves d'.root) (text holder : String) :
    (∃ u, r.find text holder = .error u ∧ r'.find text holder = .error u) ∨
      ∃ found found', r.find text holder = .ok found ∧ r'.find text holder = .ok found' ∧
        found'.pointer = found.pointer ∧ Shuffled found.node found'.node := by
  rw [hr.find_eq, hr'.find_eq, Reference.resolve, Reference.resolve, hd.shuffled.chainBound_eq]
  obtain ⟨cause, h, h'⟩ | ⟨found, found', h, h', hpointer, hnode⟩ := Tree.chase_shuffled hd.shuffled
    (Reference.chainBound d.root) [] text
  · rw [h, h']
    exact .inl ⟨_, rfl, rfl⟩
  · rw [h, h']
    exact .inr ⟨found, found', rfl, rfl, hpointer, hnode⟩

/-- A shuffled tree is interpreted as before. -/
theorem node_shuffled (hd : d.Reorders d') (hr : r.Serves d.root) (hr' : r'.Serves d'.root) (depth : Nat) :
    ∀ (tree tree' : Tree) (id : SchemaId), Shuffled tree tree' → node r' depth tree' id = node r depth tree id := by
  induction depth with
  | zero => exact fun _ _ _ _ => rfl
  | succ depth ih =>
    intro tree tree' id h
    rw [node, node, level_shuffled h]
    refine (level_confined tree id).congr ⟨r, node r depth⟩ ⟨r', node r' depth⟩
      (fun part id => ih part part id (.refl part)) fun text holder => ?_
    unfold reference
    dsimp only
    obtain ⟨u, h, h'⟩ | ⟨found, found', h, h', hpointer, hnode⟩ := find_shuffled hd hr hr' text holder.pointer
    · rw [h, h']
    · rw [h, h']
      dsimp only
      rw [hpointer, define, define, ih _ _ _ hnode]

theorem visit_shuffled (hd : d.Reorders d') (hr : r.Serves d.root) (hr' : r'.Serves d'.root) {tree tree' : Tree}
    (h : Shuffled tree tree') (id : SchemaId) : visit r' tree' id = visit r tree id := by
  have hbound : bound r'.root = bound r.root := by
    rw [hr.root_eq, hr'.root_eq, bound, bound, hd.shuffled.size_eq]
  rw [visit, visit, hbound]
  exact node_shuffled hd hr hr' _ tree tree' id h

/-- Opening a definition means the same in both orders. -/
theorem opening_shuffled (hd : d.Reorders d') (hr : r.Serves d.root) (hr' : r'.Serves d'.root) (k : SchemaId) :
    opening r' d' k = opening r d k := by
  have htree := hd.tree? k
  unfold opening
  revert htree
  generalize d.tree? k = tree
  generalize d'.tree? k = tree'
  intro htree
  cases htree with
  | none => rfl
  | some h =>
    dsimp only
    rw [define, define, visit_shuffled hd hr hr' h]

variable {calls : List Call}

/-! ## Opening the component schemas -/

/-- A component schema is opened as the definition that it is, unless one of its identity was opened before; its identity
is then known. -/
theorem define_component_eq (hr : r.Serves d.root) {before after : List (SchemaId × Tree)} {k : SchemaId} {tree : Tree}
    (hentries : d.componentEntries = before ++ (k, tree) :: after) {s : Slots}
    (hbefore : ∀ j ∈ before.map (·.1), j ∈ s.map (·.1)) :
    (define (visit r) k tree).run.run s = (opening r d k).run.run s ∧
      ∀ j ∈ (before ++ [(k, tree)]).map (·.1), j ∈ ((define (visit r) k tree).run.run s).2.map (·.1) := by
  have hentry : (k, tree) ∈ d.componentEntries := hentries ▸ List.mem_append_right _ List.mem_cons_self
  have htree : tree.PartOf d.root := by
    obtain ⟨c, hc, hentry⟩ := List.mem_filterMap.1 hentry
    obtain ⟨name, -, hk⟩ := Option.map_eq_some_iff.1 hentry
    cases hk
    exact (Document.of_mem_componentSchemas hc).1
  have hvisit : Walks (fun _ => True) (visit r tree k) :=
    fun s => (node_walks hr _ tree k htree s).mono (fun _ _ h => h.mono fun _ _ => trivial)
      fun _ _ h => h.mono fun _ _ => trivial
  have hkeys := ((define_walks hvisit trivial).walk s).keys_subset
  have hstep : (define (visit r) k tree).run.run s = (opening r d k).run.run s ∧
      k ∈ ((define (visit r) k tree).run.run s).2.map (·.1) := by
    by_cases hmem : k ∈ s.map (·.1)
    · have hopen := run_define_of_open (Slots.isOpen_iff.2 hmem) (visit r) tree
      cases hfound : d.tree? k with
      | none =>
        rw [opening, hfound, hopen]
        exact ⟨rfl, hmem⟩
      | some first =>
        rw [opening_of_mem hfound hmem, hopen]
        exact ⟨rfl, hmem⟩
    · have hfirst : d.tree? k = some tree := by
        have hnone : before.lookup k = none := lookup_eq_none_iff.2 fun h => hmem (hbefore k h)
        rw [Document.tree?, hentries, List.lookup_append, hnone, Option.none_or, List.lookup_cons, BEq.rfl,
          Option.some_or]
      exact ⟨by rw [opening_eq hfirst], (define_next hvisit hmem).subset (by simp)⟩
  refine ⟨hstep.1, fun j hj => ?_⟩
  rw [List.map_append, List.mem_append] at hj
  rcases hj with hj | hj
  · exact hkeys (hbefore j hj)
  · exact List.mem_singleton.1 hj ▸ hstep.2

/-- Component schemas of one identity are opened once, as the first of them. -/
theorem forM_define_eq (hr : r.Serves d.root) : ∀ (before after : List (SchemaId × Tree)),
    d.componentEntries = before ++ after → ∀ s : Slots, (∀ k ∈ before.map (·.1), k ∈ s.map (·.1)) →
      (after.forM fun c => define (visit r) c.1 c.2).run.run s =
        ((after.map (·.1)).forM (opening r d)).run.run s
  | _, [], _, _, _ => rfl
  | before, (k, tree) :: after, hentries, s, hbefore => by
    obtain ⟨hsame, hrest⟩ := define_component_eq hr hentries hbefore
    rw [List.map_cons]
    change (define (visit r) k tree >>= fun _ => after.forM fun c => define (visit r) c.1 c.2).run.run s =
      (opening r d k >>= fun _ => (after.map (·.1)).forM (opening r d)).run.run s
    rcases hrun : (define (visit r) k tree).run.run s with ⟨e | a, s'⟩
    · rw [run_bind_of_error hrun, run_bind_of_error (hsame ▸ hrun)]
    · rw [hrun] at hrest
      rw [run_bind_of_ok hrun, run_bind_of_ok (hsame ▸ hrun)]
      exact forM_define_eq hr (before ++ [(k, tree)]) after (by rw [hentries, List.append_assoc]; rfl) s' hrest

/-- The component schemas are opened as the definitions that they are. -/
theorem components_eq (hr : r.Serves d.root) : components r d = d.componentIds.forM (opening r d) := by
  have hentries : components r d = d.componentEntries.forM fun c => define (visit r) c.1 c.2 := by
    unfold components Document.componentEntries
    generalize d.componentSchemas?.getD [] = entries
    induction entries with
    | nil => rfl
    | cons c entries ih =>
      obtain ⟨key, schema⟩ := c
      rw [List.forM]
      dsimp only
      cases hname : key.keyText? with
      | none => rw [List.filterMap_cons_none (by rw [hname]; rfl), ← ih, pure_bind]
      | some name =>
        rw [List.filterMap_cons_some (by rw [hname]; rfl), List.forM, ih]
  funext s
  rw [hentries, ← Document.map_componentEntries]
  exact forM_define_eq hr [] d.componentEntries rfl s (by simp)

theorem opening_uniform_of_opens (hr : r.Serves d.root) (hacyclic : d.Acyclic calls) {k : SchemaId}
    (hk : d.Opens calls k) : Uniform r d (fun _ => True) (opening r d k) :=
  (opening_uniform hr (Document.acc_of_opens hacyclic hk)).mono fun _ _ => trivial

/-! ## Calls -/

/-- Calls are uniform where no cycle of references is reached. -/
theorem Call.uniform (hr : r.Serves d.root) (hacyclic : d.Acyclic calls) {c : Call} (hc : c ∈ calls)
    (hon : c.On d.root) : Uniform r d (fun _ => True) (c.interpret r d) := by
  cases c with
  | components =>
    rw [interpret, components_eq hr]
    exact (Uniform.forM _ fun k hk => opening_uniform_of_opens hr hacyclic (.component hk)).bind fun _ => .pure
  | inline tree id =>
    have hopens {j k : SchemaId} (hj : d.LeadsTo tree j) (hjk : ReflTransGen d.Edge j k) : d.Opens calls k := by
      induction hjk with
      | refl => exact .inline hc hj
      | tail _ h ih => exact ih.edge h
    have hvisit := visit_uniform hr tree hon id fun k hk => by
      obtain ⟨j, hj, hjk⟩ := hk
      exact opening_uniform hr (Document.acc_of_opens hacyclic (hopens hj hjk))
    have heq : interpret r d (.inline tree id) = visit r tree id >>= fun n => Pure.pure (some n) := map_eq_pure_bind _ _
    rw [heq]
    exact (hvisit.mono fun _ _ => trivial).bind fun _ => .pure

/-- However calls end, the table after them is in order. -/
theorem runAll_worn (huniform : ∀ c ∈ calls, Uniform r d (fun _ => True) (c.interpret r d)) {s : Slots}
    (hs : Orderly r d [] .worn s) : Orderly r d [] .worn (runAll r d calls s).2 := by
  induction calls generalizing s with
  | nil => exact hs
  | cons c calls ih =>
    exact ih (fun c' hc' => huniform c' (List.mem_cons_of_mem _ hc'))
      ((huniform c List.mem_cons_self).orderly (by simp) hs)

/-- The table after calls that resolve their references stays fresh. It does so up to a call that is cut short. -/
theorem runAll_fresh (huniform : ∀ c ∈ calls, Uniform r d (fun _ => True) (c.interpret r d)) {s : Slots}
    (hs : Orderly r d [] .fresh s) :
    ((∀ answer ∈ (runAll r d calls s).1, Resolved answer) → Orderly r d [] .fresh (runAll r d calls s).2) ∧
      ((∀ answer ∈ (runAll r d calls s).1.dropLast, Resolved answer) →
        Orderly r d [] .cut (runAll r d calls s).2) := by
  induction calls generalizing s with
  | nil => exact ⟨fun _ => hs, fun _ => hs.next⟩
  | cons c calls ih =>
    have hc := huniform c List.mem_cons_self
    have hrest := fun c' hc' => huniform c' (List.mem_cons_of_mem _ hc')
    have hnone : ∀ k ∈ ([] : List SchemaId), ¬ True := by simp
    have hkept (hres : Resolved ((c.interpret r d).run.run s).1) :
        Orderly r d [] .fresh ((c.interpret r d).run.run s).2 := by
      by_cases hfirst : Resolved ((c.interpret r d).run.run []).1
      · exact (hc.resolved hfirst hnone hs).2.1
      · obtain ⟨-, hne | hcut⟩ := hc.unresolved hfirst hnone hs
        · exact absurd rfl hne
        · exact absurd hres hcut
    refine ⟨fun hall => ?_, fun hall => ?_⟩
    · exact (ih hrest (hkept (hall _ List.mem_cons_self))).1 fun answer h => hall answer (List.mem_cons_of_mem _ h)
    · cases calls with
      | nil => exact hc.orderly hnone hs
      | cons c' calls =>
        refine (ih hrest (hkept (hall _ List.mem_cons_self))).2 fun answer h => hall answer ?_
        exact List.mem_cons_of_mem _ h

/-! ## Graphs -/

/-- Two tables in order in which the same definitions are open have the same graph but for its order. -/
theorem graph_perm {s s' : Slots} (hs : Orderly r d [] .fresh s) (hs' : Orderly r d [] .fresh s')
    (hn : (s.map (·.1)).Nodup) (hn' : (s'.map (·.1)).Nodup) (hkeys : ∀ k, k ∈ s'.map (·.1) ↔ k ∈ s.map (·.1)) :
    s'.graph.definitions.Perm s.graph.definitions := by
  have hsubset {s s' : Slots} (hs : Orderly r d [] .fresh s) (hs' : Orderly r d [] .fresh s')
      (hn : (s.map (·.1)).Nodup) (hkeys : ∀ k, k ∈ s.map (·.1) → k ∈ s'.map (·.1)) : ∀ p ∈ s, p ∈ s' := by
    intro p hp
    have hmem := List.mem_map_of_mem (f := (·.1)) hp
    obtain ⟨content, halone, hlookup⟩ := hs.alone_of_mem hmem List.not_mem_nil
    have hp' : s.lookup p.1 = some p.2 := lookup_of_mem hn hp
    have hlookup' := (hs'.of_alone (hkeys p.1 hmem) List.not_mem_nil halone).1
    rw [← hlookup, hp'] at hlookup'
    exact mem_of_lookup hlookup'
  have hperm : s'.Perm s := by
    rw [List.perm_ext_iff_of_nodup hn'.of_map hn.of_map]
    exact fun p => ⟨hsubset hs' hs hn' (fun k => (hkeys k).1) p, hsubset hs hs' hn (fun k => (hkeys k).2) p⟩
  exact hperm.filterMap _

section Openings

variable {ids : List SchemaId}

/-- Definitions are all opened if each of them can be opened first. -/
theorem forM_opening_ok (huniform : ∀ k ∈ ids, Uniform r d (fun _ => True) (opening r d k))
    (hok : ∀ k ∈ ids, ((opening r d k).run.run []).1 = .ok ()) {s : Slots} (hs : Orderly r d [] .fresh s) :
    ∃ s', (ids.forM (opening r d)).run.run s = (.ok (), s') ∧ Orderly r d [] .fresh s' ∧
      ∀ j, j ∈ s'.map (·.1) ↔ j ∈ s.map (·.1) ∨ ∃ k ∈ ids, j ∈ company r d k := by
  induction ids generalizing s with
  | nil => exact ⟨s, rfl, hs, by simp⟩
  | cons k ids ih =>
    obtain ⟨s', hrun, hs', hkeys⟩ := (huniform k List.mem_cons_self).run_of_ok
      (Prod.ext (hok k List.mem_cons_self) rfl : (opening r d k).run.run [] = (.ok (), _)) (by simp) hs
    obtain ⟨s'', hrest, hs'', hkeys'⟩ := ih (fun j hj => huniform j (List.mem_cons_of_mem _ hj))
      (fun j hj => hok j (List.mem_cons_of_mem _ hj)) hs'
    refine ⟨s'', ?_, hs'', fun j => ?_⟩
    · change (opening r d k >>= fun _ => ids.forM (opening r d)).run.run s = _
      rw [run_bind_of_ok hrun, hrest]
    · rw [hkeys', hkeys, or_assoc]
      simp only [List.mem_cons, exists_eq_or_imp]
      rfl

/-- Definitions that are all opened can each be opened first. -/
theorem opening_ok_of_forM (huniform : ∀ k ∈ ids, Uniform r d (fun _ => True) (opening r d k)) {s s' : Slots}
    (hs : Orderly r d [] .fresh s) (hrun : (ids.forM (opening r d)).run.run s = (.ok (), s')) :
    ∀ k ∈ ids, ((opening r d k).run.run []).1 = .ok () := by
  induction ids generalizing s with
  | nil => simp
  | cons k ids ih =>
    change (opening r d k >>= fun _ => ids.forM (opening r d)).run.run s = _ at hrun
    have hk := huniform k List.mem_cons_self
    have hnone : ∀ k ∈ ([] : List SchemaId), ¬ True := by simp
    rcases hfirst : (opening r d k).run.run s with ⟨e | a, s₁⟩
    · rw [run_bind_of_error hfirst] at hrun
      cases hrun
    · rw [run_bind_of_ok hfirst] at hrun
      have hres : Resolved ((opening r d k).run.run []).1 := by
        by_contra hcut
        rcases (hk.unresolved hcut hnone hs).2 with h | h
        · exact h rfl
        · exact h (by rw [hfirst]; trivial)
      obtain ⟨hanswer, hs₁, -⟩ := hk.resolved hres hnone hs
      rw [hfirst] at hanswer hs₁
      intro j hj
      rcases List.mem_cons.1 hj with rfl | hj
      · exact hanswer.symm
      · exact ih (fun i hi => huniform i (List.mem_cons_of_mem _ hi)) hs₁ hrun j hj

/-- Definitions that are opened in another order make the same graph in another order. -/
theorem forM_opening_perm (huniform : ∀ k ∈ ids, Uniform r d (fun _ => True) (opening r d k)) {ids' : List SchemaId}
    (hperm : ids'.Perm ids) (hok : ((ids.forM (opening r d)).run.run []).1 = .ok ()) :
    ((ids'.forM (opening r d)).run.run []).1 = .ok () ∧
      ((ids'.forM (opening r d)).run.run []).2.graph.definitions.Perm
        ((ids.forM (opening r d)).run.run []).2.graph.definitions := by
  have huniform' : ∀ k ∈ ids', Uniform r d (fun _ => True) (opening r d k) := fun k hk => huniform k (hperm.subset hk)
  have hall := opening_ok_of_forM huniform orderly_nil (Prod.ext hok rfl)
  obtain ⟨s, hrun, hs, hkeys⟩ := forM_opening_ok huniform hall orderly_nil
  obtain ⟨s', hrun', hs', hkeys'⟩ := forM_opening_ok huniform' (fun k hk => hall k (hperm.subset hk)) orderly_nil
  have hn := ((Uniform.forM ids huniform).walks.walk []).keys_nodup.1
  have hn' := ((Uniform.forM ids' huniform').walks.walk []).keys_nodup.1
  rw [hrun] at hn ⊢
  rw [hrun'] at hn' ⊢
  refine ⟨rfl, graph_perm hs hs' hn hn' fun k => ?_⟩
  rw [hkeys, hkeys']
  exact or_congr_right (exists_congr fun j => and_congr_left' hperm.mem_iff)

end Openings

/-! ## Main result -/

/-- Where the references between definitions do not loop, a definition means the same in whatever order the definitions
are reached.

* What is stored for a definition after any calls up to a first one that is cut short is what it has alone, and after
  that it is so for every definition that has content alone.
* A document with its component schemas in another order has the same graph in another order.
* Calls before the components are opened only add definitions. -/
theorem runAll_content (hr : r.Serves d.root) (hcalls : ∀ c ∈ calls, c.On d.root) (hacyclic : d.Acyclic calls) :
    (∀ k v, (runAll r d calls []).2.lookup k = some (some v) →
      ((∀ answer ∈ (runAll r d calls []).1.dropLast, Resolved answer) → alone r d k = some v) ∧
        ∀ w, alone r d k = some w → v = w) ∧
      (∀ d' r', d.Reorders d' → r'.Serves d'.root →
        (((components r' d').run.run []).1 = .ok () ↔ ((components r d).run.run []).1 = .ok ()) ∧
          (((components r d).run.run []).1 = .ok () →
            ((components r' d').run.run []).2.graph.definitions.Perm
              ((components r d).run.run []).2.graph.definitions)) ∧
      (((components r d).run.run []).1 = .ok () →
        ((components r d).run.run (runAll r d calls []).2).1 = .ok () ∧
          ∀ definition ∈ ((components r d).run.run []).2.graph.definitions,
            definition ∈ ((components r d).run.run (runAll r d calls []).2).2.graph.definitions) := by
  have hnone : ∀ k ∈ ([] : List SchemaId), ¬ True := by simp
  have hopening : ∀ k ∈ d.componentIds, Uniform r d (fun _ => True) (opening r d k) :=
    fun k hk => opening_uniform_of_opens hr hacyclic (.component hk)
  have hcomponents : Uniform r d (fun _ => True) (components r d) := components_eq hr ▸ Uniform.forM _ hopening
  have huniform : ∀ c ∈ calls, Uniform r d (fun _ => True) (c.interpret r d) :=
    fun c hc => Call.uniform hr hacyclic hc (hcalls c hc)
  have hworn : Orderly r d [] .worn (runAll r d calls []).2 := runAll_worn huniform orderly_nil
  have hfresh (hok : ((components r d).run.run []).1 = .ok ()) :
      Orderly r d [] .fresh ((components r d).run.run []).2 := hcomponents.orderly_of_ok (Prod.ext hok rfl)
  refine ⟨fun k v hv => ⟨fun hall => ?_, fun w hw => ?_⟩, fun d' r' hd hr' => ?_, fun hok => ?_⟩
  · exact ((runAll_fresh huniform orderly_nil).2 hall).alone_of_lookup List.not_mem_nil hv
  · have hlookup := (hworn.of_alone (lookup_isSome_iff.1 (by simp [hv])) List.not_mem_nil hw).1
    rw [hv] at hlookup
    cases hlookup
    rfl
  · have hperm := hd.componentIds.symm
    have hopening' : ∀ k ∈ d'.componentIds, Uniform r d (fun _ => True) (opening r d k) :=
      fun k hk => hopening k (hperm.subset hk)
    have hreordered : components r' d' = d'.componentIds.forM (opening r d) := by
      rw [components_eq hr', funext fun k => opening_shuffled hd hr hr' k]
    rw [hreordered, components_eq hr]
    refine ⟨⟨fun hok => ?_, fun hok => ?_⟩, fun hok => ?_⟩
    · exact (forM_opening_perm hopening' hperm.symm hok).1
    · exact (forM_opening_perm hopening hperm hok).1
    · exact (forM_opening_perm hopening hperm hok).2
  · obtain ⟨hanswer, horderly, hkeys⟩ := hcomponents.resolved (hok ▸ trivial) hnone hworn
    refine ⟨hanswer.trans hok, fun definition hmem => ?_⟩
    have hslot := Slots.mem_graph.1 hmem
    have hn := (hcomponents.walks.walk []).keys_nodup.1
    have hkey : definition.id ∈ ((components r d).run.run []).2.map (·.1) := List.mem_map_of_mem (f := (·.1)) hslot
    have halone := (hfresh hok).next.alone_of_lookup List.not_mem_nil (lookup_of_mem hn hslot)
    have hlookup := (horderly.of_alone ((hkeys _).2 (.inr hkey)) List.not_mem_nil halone).1
    exact Slots.mem_graph.2 (mem_of_lookup hlookup)

/-- A schema outside of the components: a tagged pet. -/
def taggedPet : Tree :=
  .mapping [(.text "allOf", .sequence [.mapping [(.text "$ref", .text "#/components/schemas/Pet")],
    .mapping [(.text "properties", .mapping [(.text "tag", .mapping [(.text "type", .text "string")])])]])]

/-- Components that refer to each other without a loop, and are composed of each other. -/
def petSchemas : Entries :=
  [(.text "Owner", .mapping [(.text "properties", .mapping [(.text "name", .mapping [(.text "type", .text "string")])])]),
    (.text "Named", .mapping [(.text "properties", .mapping [
      (.text "owner", .mapping [(.text "$ref", .text "#/components/schemas/Owner")])])]),
    (.text "Pet", .mapping [(.text "allOf", .sequence [.mapping [(.text "$ref", .text "#/components/schemas/Named")],
      .mapping [(.text "$ref", .text "#/components/schemas/Owner")]])])]

/-- A document with the components in a given order. -/
def petDocument (schemas : Entries) : Document :=
  ⟨⟨"", "", none⟩, .mapping [(.text "body", taggedPet),
    (.text "components", .mapping [(.text "schemas", .mapping schemas)])]⟩

theorem petDocument_reorders : (petDocument petSchemas).Reorders (petDocument petSchemas.reverse) :=
  @Tree.Reordered.under "components" ["schemas"] _ _ [(.text "body", taggedPet)] [] (by decide)
    (@Tree.Reordered.under "schemas" [] _ _ [] [] rfl (.here petSchemas.reverse_perm.symm (by decide)))

/-- The tagged pet comes first, and with it what it refers to: the other way round than the components are listed. -/
theorem runAll_content_petDocument :
    let d := petDocument petSchemas
    let r := Resolver.new d.root
    let calls : List Call := [.inline taggedPet ⟨"#/body"⟩, .components]
    (runAll r d calls []).2.map (·.1.pointer) =
        ["#/components/schemas/Pet", "#/components/schemas/Named", "#/components/schemas/Owner"] ∧
      (∀ k v, (runAll r d calls []).2.lookup k = some (some v) → alone r d k = some v) ∧
      ((components (.new (petDocument petSchemas.reverse).root) (petDocument petSchemas.reverse)).run.run
        []).2.graph.definitions.Perm ((components r d).run.run []).2.graph.definitions ∧
      ∀ definition ∈ ((components r d).run.run []).2.graph.definitions,
        definition ∈ ((components r d).run.run (runAll r d calls []).2).2.graph.definitions := by
  intro d r calls
  have hpart : taggedPet.PartOf d.root := .value List.mem_cons_self (.self taggedPet)
  have hcalls : ∀ c ∈ calls, c.On d.root := by simpa [calls, Call.On] using hpart
  have hacyclic : d.Acyclic calls := by
    refine Document.acyclic_of_rank (fun k =>
      if k.pointer == "#/components/schemas/Pet" then 2 else if k.pointer == "#/components/schemas/Named" then 1 else 0) ?_
    decide +kernel
  have hok : ((components r d).run.run []).1 = .ok () := rfl
  have h := runAll_content (Resolver.serves_new d.root) hcalls hacyclic
  refine ⟨by decide +kernel, fun k v hv => (h.1 k v hv).1 (by decide +kernel), ?_, (h.2.2 hok).2⟩
  exact (h.2.1 _ _ petDocument_reorders (Resolver.serves_new _)).2 hok

end Interpretation

end ContractBindings
