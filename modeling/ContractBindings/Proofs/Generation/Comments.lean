import ContractBindings.Proofs.Generation.Imports
import ContractBindings.Proofs.Messages.Comments
import ContractBindings.Proofs.Unit.Standard

/-!
# Comments in the units of a model

Whatever a document says, the units for protobuf are clean but for the comments that quote it as it is: the banner, the
quotes in what is declared, and beside them the fields of responses, which are named after statuses (`model_comments`). A
description never leaves its comments. A title of two lines does (`title_leaves_comment`).
-/

namespace ContractBindings

open Naming Messages Lowering

namespace CodeUnit

/-- A text in the standard template is clean if the banner and the body are. -/
theorem clean_standardText_iff {info : Info} {package : String} {p : UnitParts} (hpackage : Dotted package)
    (himports : Clean p.imports) (hclosed : Closed p.doc) (hdoc : Clean p.doc) :
    Clean (standardText info package p) ↔ Kept (bannerComment info) ∧ Clean p.body := by
  have hfront : Closed (commentText (bannerComment info) ++ "\n" ++ "syntax = \"proto3\";" ++ "\n" ++ "\n" ++
      ("package " ++ package ++ ";") ++ "\n" ++ p.imports ++ "\n" ++ p.doc) := (closed_feed _).append hclosed
  rw [standardText, clean_append hfront, clean_feed, clean_feed, clean_feed, clean_closed, clean_feed, Kept]
  have hversion := OwnLine.version.clean
  have hpackage := (OwnLine.package hpackage).clean
  exact and_congr_left' ⟨fun h => h.1.1.1.1, fun h => ⟨⟨⟨⟨h, hversion⟩, hpackage⟩, himports⟩, hdoc⟩⟩

/-- Imports and descriptions add no lines that do not fit. -/
theorem clean_text_iff {info : Info} {config : Config} {kind : UnitKind} {name own body : String}
    {used : List TypeDescriptor} {doc : Option String} {u : CodeUnit} (hpackage : Dotted config.package)
    (hstandard : config.templates.lookup (Template.nameOf .protobuf kind) = none)
    (h : assemble .protobuf info config kind name (.ok ⟨importText (importedFiles own used), docText doc, body⟩) = .ok u) :
    Clean u.text ↔ Kept (bannerComment info) ∧ Clean body := by
  rw [text_of_assemble hstandard h]
  refine clean_standardText_iff hpackage ?_ ?_ ?_ <;> dsimp only
  · exact clean_importText (pathText_importedFiles own used)
  · exact closed_docText doc
  · exact clean_docText doc

end CodeUnit

namespace Generator

/-- The names in a model are words. -/
theorem model_words {g : Generator} {e : Extraction} {m : Model} (hm : g.model e = .ok m) :
    (∀ t ∈ m.types, Word t.name ∧ t.body.Worded) ∧ ∀ o ∈ m.operations, o.Worded :=
  model_eq hm ▸ ofGraph_words e.slots.graph e.operations g.target g.config

/-- In a model for protobuf, a unit of a type is clean if the banner and what it quotes is kept. So is a unit of an
operation, if besides the fields for its responses are clean. -/
theorem model_comments {g : Generator} {e : Extraction} {m : Model} (info : Info) (hm : g.model e = .ok m)
    (htarget : g.target = .protobuf) (hpackage : Dotted g.config.package)
    (htemplates : ∀ kind, g.config.templates.lookup (Template.nameOf .protobuf kind) = none) :
    (∀ t ∈ m.types, ∀ u, CodeUnit.ofType .protobuf info g.config t = .ok u →
      (Clean u.text ↔ Kept (CodeUnit.bannerComment info) ∧ ∀ c ∈ t.body.quotes, Kept c)) ∧
    ∀ o ∈ m.operations, ∀ u, CodeUnit.ofOperation .protobuf info g.config o = .ok u →
      (Clean u.text ↔ Kept (CodeUnit.bannerComment info) ∧ (∀ c ∈ o.quotes, Kept c) ∧
        ∀ f ∈ (responseMembers 1 o.responses).flatMap Member.contents, Clean f.text) := by
  obtain ⟨htypes, hoperations⟩ := model_words hm
  have heq := model_eq hm
  rw [htarget] at heq
  obtain ⟨htypesClaimed, hoperationsClaimed⟩ := heq ▸ ofGraph_claimed e.slots.graph e.operations .protobuf g.config
  constructor
  · intro t ht u hu
    refine (CodeUnit.clean_text_iff hpackage (htemplates .model) hu).trans (and_congr_right' ?_)
    exact clean_ofType_iff (htypes t ht).1 (htypes t ht).2 (htypesClaimed t ht)
  · intro o ho u hu
    refine (CodeUnit.clean_text_iff hpackage (htemplates .operation) hu).trans (and_congr_right' ?_)
    exact clean_ofOperation_iff (hoperations o ho) (hoperationsClaimed o ho)

/-- A contract with an enumeration and an operation, described in lines that would not fit. -/
def describedDocument : Document :=
  ⟨⟨"Pets", "1", none⟩, .mapping [
    (.text "paths", .mapping [(.text "/p", .mapping [(.text "get", .mapping [
      (.text "description", .text "A\n\x7d"),
      (.text "responses", .mapping [(.text "200", .mapping [(.text "description", .text "B\nC")])])])])]),
    (.text "components", .mapping [(.text "schemas", .mapping [
      (.text "Kind", .mapping [(.text "description", .text "message\nX"),
        (.text "enum", .sequence [.text "cat"])])])])]⟩

/-- The text of a unit is accepted. -/
def accepted (info : Info) (parts : Except UnitError UnitParts) : Bool :=
  parts.toOption.any fun p => (Messages.fault? (CodeUnit.standardText info "api" p)).isNone

def describedRun : messages.Run describedDocument fun _ m =>
    (m.types.map fun t => (t.body.quotes, accepted describedDocument.info (UnitParts.ofType t .protobuf)),
      m.operations.map fun o => (o.quotes, o.responses.map (·.ident))) where
  seen := ([([" cat"], true)], [([" 200", " GET /p"], ["status_200"])])
  seen_eq := by decide +kernel

theorem model_comments_describedDocument : ∃ e m, messages.extraction describedDocument = .ok e ∧
    messages.model e = .ok m ∧ m.types.map (·.body.quotes) = [[" cat"]] ∧
    (∀ t ∈ m.types, ∃ u, CodeUnit.ofType .protobuf describedDocument.info messages.config t = .ok u ∧ Clean u.text) ∧
    m.operations.map (·.quotes) = [[" 200", " GET /p"]] ∧
    ∀ o ∈ m.operations, ∀ u, CodeUnit.ofOperation .protobuf describedDocument.info messages.config o = .ok u →
      Clean u.text := by
  obtain ⟨e, m, he, hm, hseen⟩ := describedRun.spec
  obtain ⟨htypes, hoperations⟩ := model_comments describedDocument.info hm rfl ⟨["api"], by decide, by decide, rfl⟩
    fun kind => rfl
  obtain ⟨hseenTypes, hseenOperations⟩ := Prod.mk.inj hseen
  have hbanner : Kept (CodeUnit.bannerComment describedDocument.info) := kept_of_unbroken (by decide)
  refine ⟨e, m, he, hm, ?_, fun t ht => ?_, ?_, fun o ho u hu => ?_⟩
  · have hquotes := congrArg (List.map Prod.fst) hseenTypes
    rwa [List.map_map] at hquotes
  · have hmem : (t.body.quotes, accepted describedDocument.info (UnitParts.ofType t .protobuf)) ∈ [([" cat"], true)] :=
      hseenTypes ▸ List.mem_map_of_mem ht
    obtain ⟨hquotes, haccepted⟩ := Prod.mk.inj (List.mem_singleton.1 hmem)
    obtain ⟨p, hp, hfault⟩ := (Option.any_eq_true _ _).1 haccepted
    have hunit := @CodeUnit.assemble_standard describedDocument.info messages.config .model t.name p rfl
      (Option.isNone_iff_eq_none.1 hfault)
    rw [← ok_of_toOption hp] at hunit
    refine ⟨_, hunit, (htypes t ht _ hunit).2 ⟨hbanner, ?_⟩⟩
    rw [hquotes]
    exact fun c hc => kept_of_unbroken ((by decide : ∀ c ∈ [" cat"], Unbroken c) c hc)
  · have hquotes := congrArg (List.map Prod.fst) hseenOperations
    rwa [List.map_map] at hquotes
  · have hmem : (o.quotes, o.responses.map (·.ident)) ∈ [([" 200", " GET /p"], ["status_200"])] :=
      hseenOperations ▸ List.mem_map_of_mem ho
    obtain ⟨hquotes, hidents⟩ := Prod.mk.inj (List.mem_singleton.1 hmem)
    refine (hoperations o ho u hu).2 ⟨hbanner, ?_, ?_⟩
    · rw [hquotes]
      exact fun c hc => kept_of_unbroken ((by decide : ∀ c ∈ [" 200", " GET /p"], Unbroken c) c hc)
    · refine clean_responseFields ((model_words hm).2 o ho) fun r hr => ?_
      have hident : r.ident ∈ ["status_200"] := hidents ▸ List.mem_map_of_mem hr
      rw [List.mem_singleton.1 hident]
      decide

/-- The text of a contract with a title of two lines. -/
def splitTitleText : String :=
  "\x7b\"info\":\x7b\"title\":\"A\\nB\"\x7d,\"components\":\x7b\"schemas\":\x7b\"P\":\x7b\"properties\":\x7b\x7d\x7d\x7d\x7d\x7d"

/-- The second line of a title stands outside of comments, in a unit that is accepted. -/
theorem title_leaves_comment : ∃ d e m, Document.load splitTitleText .json = .ok d ∧ messages.extraction d = .ok e ∧
    messages.model e = .ok m ∧ ∃ t ∈ m.types, ∃ u, CodeUnit.ofType .protobuf d.info messages.config t = .ok u ∧
      "B. Do not edit." ∈ Text.lines u.text ∧ ¬ Fits "B. Do not edit." := by
  have hrun : (Document.load splitTitleText .json).toOption.bind (fun d => (messages.extraction d).toOption.bind fun e =>
      (messages.model e).toOption.map fun m => m.types.map fun t => (accepted d.info (UnitParts.ofType t .protobuf),
        (UnitParts.ofType t .protobuf).toOption.any fun p =>
          (Text.lines (CodeUnit.standardText d.info "api" p)).contains "B. Do not edit.")) = some [(true, true)] := by
    decide +kernel
  obtain ⟨d, hd, hrun⟩ := Option.bind_eq_some_iff.1 hrun
  obtain ⟨e, he, hrun⟩ := Option.bind_eq_some_iff.1 hrun
  obtain ⟨m, hm, htypes⟩ := Option.map_eq_some_iff.1 hrun
  obtain ⟨t, ht, hboth⟩ := List.map_eq_singleton_iff.1 htypes
  obtain ⟨haccepted, hline⟩ := Prod.mk.inj hboth
  obtain ⟨p, hp, hfault⟩ := (Option.any_eq_true _ _).1 haccepted
  rw [hp, Option.any_some, List.contains_iff_mem] at hline
  have hunit := @CodeUnit.assemble_standard d.info messages.config .model t.name p rfl
    (Option.isNone_iff_eq_none.1 hfault)
  rw [← ok_of_toOption hp] at hunit
  refine ⟨d, e, m, ok_of_toOption hd, ok_of_toOption he, ok_of_toOption hm, t, ht ▸ List.mem_singleton_self t, _, hunit,
    hline, fun hfits => ?_⟩
  rcases hfits.cases with h | h | h <;> revert h <;> decide

end Generator

end ContractBindings
