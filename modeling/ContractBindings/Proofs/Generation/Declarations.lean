import ContractBindings.Proofs.Generation.Stages
import ContractBindings.Proofs.Operation.Declarations

/-!
# What the operations of a document are declared with

The parameters of an extracted operation are those that its path and its entry declare, merged by name and location
(`extraction_parameters`). Its responses are those under the scalar keys of its entry, merged by status, and the
diagnostics about it are one warning for every key whose status was there before (`extraction_responses`).
-/

namespace ContractBindings.Generator

open Extraction

variable {g : Generator} {d : Document} {e : Extraction}

/-- Every operation is what an entry of `paths` declares. -/
theorem extraction_declares (h : g.extraction d = .ok e) : ∃ r, g.resolver d = .ok r ∧ ∀ o ∈ e.operations,
    ∃ entry ∈ d.entries, entry.Declares r g.config.operationNaming e.slots o
      (e.diagnostics.filter fun x => x.unit == o.id) := by
  obtain ⟨r, slots, hr, hslots, hrun⟩ := extraction_run h
  have hrooted : r.Rooted := (resolver_faithful hr).1.rooted
  have hstart : Recorded r g.config.operationNaming d { Extraction.empty with slots := slots } :=
    ⟨definitions_orderly hrooted hslots, by simp [Extraction.empty], by simp [Extraction.empty], by simp [Extraction.empty]⟩
  exact ⟨r, hr, ((document_records hrooted _ d _ hstart).answer hrun).operations⟩

/-- The parameters of an operation are those that its path and then its entry declare, merged by name and location, and
those in the path are required. -/
theorem extraction_parameters (h : g.extraction d = .ok e) : ∃ r, g.resolver d = .ok r ∧ ∀ o ∈ e.operations,
    ∃ entry ∈ d.entries, ∃ node, entry.tree.asMapping? = some node ∧ o.id = entry.id g.config.operationNaming ∧
      o.path = entry.path ∧ o.method = entry.method ∧
      (∃ declared, Gives e.slots (readParameters r o.id (entry.parameterPlaces node)) declared ∧
        Merges Parameter.key declared o.parameters) ∧
      ∀ p ∈ o.parameters, p.location = .path → p.required = true := by
  obtain ⟨r, hr, hall⟩ := extraction_declares h
  refine ⟨r, hr, fun o ho => ?_⟩
  obtain ⟨entry, hentry, node, record, parts, hholds, rfl, hdeclared⟩ := hall o ho
  exact ⟨entry, hentry, node, hholds.mapping, rfl, rfl, rfl, hdeclared.parameters, hdeclared.required⟩

/-- A document with an operation that declares parameters and responses again, its path and a component among them. -/
def repeatedDocument : Document :=
  ⟨⟨"", "", none⟩, .mapping [(.text "paths", .mapping [(.text "/p", .mapping [
    (.text "parameters", .sequence [
      .mapping [(.text "name", .text "id"), (.text "in", .text "path")],
      .mapping [(.text "name", .text "q"), (.text "in", .text "query"), (.text "description", .text "path")],
      .mapping [(.text "name", .text "q"), (.text "in", .text "header")],
      .mapping [(.text "$ref", .text "#/components/parameters/Q")]]),
    (.text "get", .mapping [
      (.text "parameters", .sequence [
        .mapping [(.text "name", .text "limit"), (.text "in", .text "query")],
        .mapping [(.text "name", .text "q"), (.text "in", .text "query"), (.text "description", .text "own")],
        .mapping [(.text "name", .text "id"), (.text "in", .text "path"), (.text "description", .text "own")]]),
      (.text "responses", .mapping [
        (.int 200, .mapping []),
        (.text " 4xx ", .mapping [(.text "description", .text "first")]),
        (.text "Default", .mapping []),
        (.text "200", .mapping [(.text "description", .text "second")]),
        (.null, .mapping []),
        (.text "4XX", .mapping [(.text "description", .text "second")]),
        (.text "4Xx", .mapping [(.text "description", .text "third")])])])])]),
    (.text "components", .mapping [(.text "parameters", .mapping [(.text "Q", .mapping [
      (.text "name", .text "q"), (.text "in", .text "query"), (.text "description", .text "component")])])])]⟩

/-- What is seen of the parameters of an operation, of its responses, and of the diagnostics about it. -/
structure DeclarationView where
  parameters : List (String × ParameterLocation × Bool × Option String)
  responses : List (String × Option String)
  messages : List String
  deriving DecidableEq

def declarationsOf (e : Extraction) (o : Operation) : DeclarationView where
  parameters := o.parameters.map fun p => (p.name, p.location, p.required, p.description)
  responses := o.responses.map fun q => (q.1, q.2.description)
  messages := (e.diagnostics.filter fun x => x.unit == o.id).map (·.message)

def repeatedRun : standard.Run repeatedDocument fun e _ => e.operations.map (declarationsOf e) where
  seen := [⟨
    [("id", .path, true, some "own"), ("q", .query, false, some "own"), ("q", .header, false, none),
      ("limit", .query, false, none)],
    [("200", some "second"), ("4XX", some "third"), ("default", none)],
    ["response `200` is declared more than once, the last declaration is used",
      "response `4XX` is declared more than once, the last declaration is used",
      "response `4XX` is declared more than once, the last declaration is used"]⟩]
  seen_eq := by decide +kernel

theorem extraction_parameters_repeatedDocument : ∃ e r, standard.extraction repeatedDocument = .ok e ∧
    e.operations.map (declarationsOf e) = repeatedRun.seen ∧ standard.resolver repeatedDocument = .ok r ∧
    ∀ o ∈ e.operations, ∃ entry ∈ repeatedDocument.entries, ∃ node, entry.tree.asMapping? = some node ∧
      o.id = entry.id .path ∧ o.path = entry.path ∧ o.method = entry.method ∧
      (∃ declared, Gives e.slots (readParameters r o.id (entry.parameterPlaces node)) declared ∧
        Merges Parameter.key declared o.parameters) ∧
      ∀ p ∈ o.parameters, p.location = .path → p.required = true := by
  obtain ⟨e, m, he, -, hseen⟩ := repeatedRun.spec
  obtain ⟨r, hr, hall⟩ := extraction_parameters he
  exact ⟨e, r, he, hseen, hr, hall⟩

/-- The responses of an operation are those that its entry declares under scalars, merged by status: the statuses stand in
the order of their first keys. For every other key there is one warning about the operation, and no other diagnostic. -/
theorem extraction_responses (h : g.extraction d = .ok e) : ∃ r, g.resolver d = .ok r ∧ ∀ o ∈ e.operations,
    ∃ entry ∈ d.entries, ∃ node, entry.tree.asMapping? = some node ∧ o.id = entry.id g.config.operationNaming ∧
      o.path = entry.path ∧ o.method = entry.method ∧
      (∃ declared, Gives e.slots (readResponses r o.id (entry.responsePlaces node)) declared ∧
        Merges Prod.fst declared o.responses) ∧
      o.responses.map Prod.fst = ((entry.responsePlaces node).map (·.1)).eraseDups ∧
      (e.diagnostics.filter fun x => x.unit == o.id) =
        (repeats [] ((entry.responsePlaces node).map (·.1))).map (repeatedResponse o.id) ∧
      (e.diagnostics.filter fun x => x.unit == o.id).length =
        (entry.responsePlaces node).length - (o.responses.map Prod.fst).length := by
  obtain ⟨r, hr, hall⟩ := extraction_declares h
  refine ⟨r, hr, fun o ho => ?_⟩
  obtain ⟨entry, hentry, node, record, parts, hholds, rfl, hdeclared⟩ := hall o ho
  obtain ⟨declared, hgives, hstatuses, hmerges⟩ := hdeclared.responses
  have horder : parts.responses.map Prod.fst = ((entry.responsePlaces node).map (·.1)).eraseDups := by
    rw [hmerges.order, hstatuses]
  refine ⟨entry, hentry, node, hholds.mapping, rfl, rfl, rfl, ⟨declared, hgives, hmerges⟩, horder, hdeclared.notes, ?_⟩
  have hcount := length_repeats ((entry.responsePlaces node).map (·.1)) []
  rw [hdeclared.notes, List.length_map]
  simp only [List.removeAll_nil, List.length_map] at hcount
  show _ = (entry.responsePlaces node).length - (parts.responses.map Prod.fst).length
  rw [horder]
  omega

theorem extraction_responses_repeatedDocument : ∃ e r, standard.extraction repeatedDocument = .ok e ∧
    e.operations.map (declarationsOf e) = repeatedRun.seen ∧ standard.resolver repeatedDocument = .ok r ∧
    ∀ o ∈ e.operations, ∃ entry ∈ repeatedDocument.entries, ∃ node, entry.tree.asMapping? = some node ∧
      o.id = entry.id .path ∧ o.path = entry.path ∧ o.method = entry.method ∧
      (∃ declared, Gives e.slots (readResponses r o.id (entry.responsePlaces node)) declared ∧
        Merges Prod.fst declared o.responses) ∧
      o.responses.map Prod.fst = ((entry.responsePlaces node).map (·.1)).eraseDups ∧
      (e.diagnostics.filter fun x => x.unit == o.id) =
        (repeats [] ((entry.responsePlaces node).map (·.1))).map (repeatedResponse o.id) ∧
      (e.diagnostics.filter fun x => x.unit == o.id).length =
        (entry.responsePlaces node).length - (o.responses.map Prod.fst).length := by
  obtain ⟨e, m, he, -, hseen⟩ := repeatedRun.spec
  obtain ⟨r, hr, hall⟩ := extraction_responses he
  exact ⟨e, r, he, hseen, hr, hall⟩

end ContractBindings.Generator
