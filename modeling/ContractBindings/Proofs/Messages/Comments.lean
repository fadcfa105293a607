import ContractBindings.Proofs.Messages.Imports
import ContractBindings.Proofs.Messages.Lines
import ContractBindings.Proofs.Model.Words

/-!
# Comments in what a unit declares

Where names are words, the lines that a declaration is written in fit, and only its comments can have lines that do not.
Descriptions are cut into their lines, and what is said of fallbacks and of the places of parameters stands in one line. The
other comments quote the document as it is (`TypeBody.quotes`, `OperationDef.quotes`): a declaration is clean exactly if these
are kept (`clean_ofType_iff`, `clean_ofOperation_iff`). The identifiers of responses are no words in general, as statuses
are none.
-/

namespace ContractBindings

open Naming Messages

/-! ## Quotes -/

/-- The comments in the unit of a type that quote the document as it is: values of an enumeration, and what selects the
branches of a union. -/
def TypeBody.quotes : TypeBody → List String
  | .enumeration _ variants => variants.map fun v => remark v.value.text
  | .union variants discriminator =>
    discriminator.toList.map (fun d => remark ("Selected by `" ++ d ++ "`")) ++
      (variants.flatMap (·.tag.toList)).map remark
  | _ => []

/-- The comments in the unit of an operation that quote the document as it is: the media type of its body, the statuses of
its responses, and its path. -/
def OperationDef.quotes (o : OperationDef) : List String :=
  o.body.toList.map (fun b => remark ("Request body, sent as `" ++ b.mediaType ++ "`.")) ++
    o.responses.map (fun r => remark r.status) ++ [remark (o.method.capitalName ++ " " ++ o.path)]

namespace Messages

/-! ## Types and identifiers are words -/

theorem ValueType.worded_ofKind {kind : TypeKind} (h : ∀ n ∈ TypeDescriptor.namesOfKind kind, Word n) :
    (ValueType.ofKind kind).Worded := by
  cases kind with
  | scalar scalar => cases scalar <;> first | exact trivial | exact show Word _ by decide
  | named name recursive => exact h name (List.mem_singleton_self name)
  | list item => trivial
  | map value => trivial
  | opaqueValue => trivial
  | unit => trivial

theorem ValueType.worded_ofDescriptor {type : TypeDescriptor} (h : ∀ n ∈ type.names, Word n) :
    (ValueType.ofDescriptor type).Worded := by
  obtain ⟨kind, nullable⟩ := type
  cases kind with
  | list item =>
    obtain ⟨kind, nullable⟩ := item
    exact worded_ofKind h
  | map value =>
    obtain ⟨kind, nullable⟩ := value
    exact worded_ofKind h
  | scalar scalar => exact worded_ofKind h
  | named name recursive => exact worded_ofKind h
  | opaqueValue => exact worded_ofKind h
  | unit => exact worded_ofKind h

theorem partsAsked_words : ∀ (number : Nat) (parts : List Field), ∀ ident ∈ partsAsked .protobuf number parts, Word ident
  | _, [] => List.forall_mem_nil _
  | number, part :: rest => by
    refine List.forall_mem_cons.2 ⟨?_, partsAsked_words (number + 1) rest⟩
    unfold partAsked
    split
    · exact word_protobufIdent _
    · exact Word.append (by decide) (lettered_toString_nat number)

/-- The identifiers of the fields of a type are words. -/
theorem idents_words {b : TypeBody} (hclaimed : b.Claimed .protobuf) : ∀ ident ∈ b.idents, Word ident := by
  rw [hclaimed.idents]
  refine Registry.word_claimAll ?_
  cases b with
  | struct fields additional =>
    refine List.forall_mem_append.2 ⟨List.forall_mem_map.2 fun f _ => word_protobufIdent f.name, ?_⟩
    exact List.forall_mem_map.2 fun _ _ => by decide
  | composite parts => exact partsAsked_words 1 parts
  | _ => exact List.forall_mem_nil _

/-- The identifiers of what a request holds are words. -/
theorem requestIdents_words {o : OperationDef} (hclaimed : o.Claimed .protobuf) : ∀ ident ∈ o.idents, Word ident := by
  rw [hclaimed]
  refine Registry.word_claimAll (List.forall_mem_append.2 ⟨List.forall_mem_map.2 fun p _ => word_protobufIdent p.name, ?_⟩)
  exact List.forall_mem_map.2 fun _ _ => by decide

/-! ## Messages of words -/

theorem Member.mentions_eq (m : Member) : m.mentions = m.contents.map (·.type) := by
  cases m <;> simp [Member.mentions, Member.contents]

theorem Member.names_eq (m : Member) : m.names = m.group?.toList ++ m.contents.map (·.ident) := by
  cases m <;> simp [Member.names, Member.group?, Member.contents]

/-- A message whose names are words is clean if its comments are kept. -/
theorem Message.clean_text_iff_of_words {m : Message} (hname : Word m.name) (hnames : ∀ name ∈ m.names, Word name)
    (htypes : ∀ type ∈ m.mentions, type.Worded) : Clean m.text ↔ ∀ comment ∈ m.comments, Kept comment := by
  have hmember {member : Member} (hm : member ∈ m.members) : ∀ name ∈ member.names, Word name :=
    fun name hn => hnames name (List.mem_flatMap.2 ⟨member, hm, hn⟩)
  rw [Message.clean_text_iff hname fun member hm name hn => hmember hm name ?_]
  · refine and_iff_left fun f hf => ?_
    obtain ⟨member, hm, hf⟩ := List.mem_flatMap.1 hf
    have hident : Word f.ident := by
      refine hmember hm _ ?_
      rw [Member.names_eq]
      exact List.mem_append_right _ (List.mem_map_of_mem hf)
    have htype : f.type.Worded := by
      refine htypes _ (List.mem_flatMap.2 ⟨member, hm, ?_⟩)
      rw [Member.mentions_eq]
      exact List.mem_map_of_mem hf
    exact (OwnLine.field htype hident).clean
  · rw [Member.names_eq]
    exact List.mem_append_left _ (Option.mem_toList.2 hn)

/-! ## Comments of members -/

section Members

@[simp]
theorem comments_fieldMembers : ∀ (number : Nat) (fields : List Field),
    (fieldMembers number fields).flatMap Member.comments = fields.flatMap fun f => docComments f.doc
  | _, [] => rfl
  | number, f :: rest => by simp [fieldMembers, Member.comments, comments_fieldMembers (number + 1) rest]

@[simp]
theorem comments_additionalMembers (number : Nat) (additional : Option Field) :
    (additionalMembers number additional).flatMap Member.comments = [] := by
  cases additional with
  | none => rfl
  | some f => rfl

@[simp]
theorem comments_choices : ∀ (number : Nat) (variants : List UnionVariant),
    (choices number variants).flatMap (·.1.toList) = (variants.flatMap (·.tag.toList)).map remark
  | _, [] => rfl
  | number, v :: rest => by
    have htag : (v.tag.map remark).toList = v.tag.toList.map remark := by cases v.tag <;> rfl
    simp [choices, htag, comments_choices (number + 1) rest]

@[simp]
theorem comments_paramMembers : ∀ (number : Nat) (params : List ParamDef),
    (paramMembers number params).flatMap Member.comments =
      params.flatMap fun p => docComments p.doc ++ [remark ("Sent in the " ++ p.location.name ++ ".")]
  | _, [] => rfl
  | number, p :: rest => by simp [paramMembers, Member.comments, comments_paramMembers (number + 1) rest]

@[simp]
theorem comments_bodyMembers (number : Nat) (body : Option BodyDef) : (bodyMembers number body).flatMap Member.comments =
    body.toList.flatMap fun b => docComments b.doc ++ [remark ("Request body, sent as `" ++ b.mediaType ++ "`.")] := by
  cases body with
  | none => rfl
  | some b => simp [bodyMembers, Member.comments]

@[simp]
theorem comments_responseMembers : ∀ (number : Nat) (responses : List ResponseDef),
    (responseMembers number responses).flatMap Member.comments =
      responses.flatMap fun r => docComments r.doc ++ [remark r.status]
  | _, [] => rfl
  | number, r :: rest => by simp [responseMembers, Member.comments, comments_responseMembers (number + 1) rest]

theorem group?_responseMembers : ∀ (number : Nat) (responses : List ResponseDef),
    ∀ member ∈ responseMembers number responses, member.group? = none
  | _, [] => List.forall_mem_nil _
  | number, _ :: rest => List.forall_mem_cons.2 ⟨rfl, group?_responseMembers (number + 1) rest⟩

end Members

theorem kept_remark {text : String} (h : Unbroken text) : Kept (remark text) :=
  kept_of_unbroken (by simpa [Unbroken, remark, String.toList_append] using h)

/-- Behind descriptions, other comments decide. -/
theorem kept_described {α : Type} (doc : α → Option String) (comment : α → String) (as : List α) :
    (∀ c ∈ as.flatMap fun a => docComments (doc a) ++ [comment a], Kept c) ↔ ∀ c ∈ as.map comment, Kept c := by
  rw [List.forall_mem_flatMap, List.forall_mem_map]
  refine forall₂_congr fun a _ => ?_
  rw [List.forall_mem_append, List.forall_mem_singleton, and_iff_right (kept_docComments (doc a))]

/-- The places of parameters are named in one line. -/
theorem kept_places (params : List ParamDef) :
    ∀ c ∈ params.flatMap fun p => docComments p.doc ++ [remark ("Sent in the " ++ p.location.name ++ ".")], Kept c := by
  refine (kept_described (·.doc) (fun p => remark ("Sent in the " ++ p.location.name ++ ".")) params).2 ?_
  refine List.forall_mem_map.2 fun p _ => kept_remark ?_
  cases p.location <;> decide

/-! ## Names of enumerations -/

theorem word_behind {s t : String} (hs : Lettered s) (ht : Word t) : Word (s ++ t) :=
  ⟨fun h => ht.ne_empty (String.append_eq_empty_iff.1 h).2, hs.append ht.lettered⟩

theorem word_valueName (name value : String) :
    Word (screamingSnakeCase name ++ "_" ++ screamingSnakeCase value) :=
  (word_behind (lettered_screamingSnakeCase name) (by decide)).append (lettered_screamingSnakeCase value)

theorem word_zeroName (taken : List String) : ∀ (fuel : Nat) {name : String}, Word name → Word (zeroName taken fuel name)
  | 0, _, h => h
  | fuel + 1, name, h => by
    rw [zeroName]
    split
    · exact word_zeroName taken fuel (h.append (by decide))
    · exact h

/-! ## Declarations -/

/-- A message of fields whose identifiers and types are words. -/
theorem clean_fields {name : String} {fields : List Field} (additional : Option Field) (hname : Word name)
    (hidents : ∀ ident ∈ fields.map (·.ident) ++ additional.toList.map (·.ident), Word ident)
    (htypes : ∀ type ∈ fields.map (·.type) ++ additional.toList.map (·.type), ∀ n ∈ type.names, Word n) :
    Clean (Message.text ⟨name, fieldMembers 1 fields ++ additionalMembers (fields.length + 1) additional⟩) := by
  refine (Message.clean_text_iff_of_words hname ?_ ?_).2 ?_
  · rwa [Message.names, List.flatMap_append, names_fieldMembers, names_additionalMembers]
  · rw [Message.mentions, List.flatMap_append, mentions_fieldMembers, mentions_additionalMembers]
    refine List.forall_mem_append.2 ⟨List.forall_mem_map.2 fun f hf => ?_, List.forall_mem_map.2 fun f hf => ?_⟩
    · exact ValueType.worded_ofDescriptor (htypes _ (List.mem_append_left _ (List.mem_map_of_mem hf)))
    · exact ValueType.worded_ofDescriptor (htypes _ (List.mem_append_right _ (List.mem_map_of_mem hf)))
  · rw [Message.comments, List.flatMap_append, comments_fieldMembers, comments_additionalMembers, List.append_nil]
    exact List.forall_mem_flatMap.2 fun f _ => kept_docComments f.doc

/-- A message of one field for a value. -/
theorem clean_value {name : String} {remarks : List String} {f : MessageField} (hname : Word name)
    (hremarks : ∀ comment ∈ remarks, Kept comment) (htype : f.type.Worded) (hident : Word f.ident) :
    Clean (Message.text ⟨name, remarks.map .remark ++ [.field [] f]⟩) := by
  refine (Message.clean_text_iff_of_words hname ?_ ?_).2 ?_
  · simpa [Message.names, List.flatMap_map, Member.names] using hident
  · simpa [Message.mentions, List.flatMap_map, Member.mentions] using htype
  · simpa [Message.comments, List.flatMap_map, Member.comments] using hremarks

/-- A message for the branches of a union is clean if what selects them is kept. -/
theorem clean_union_iff {name : String} {variants : List UnionVariant} (discriminator : Option String) (hname : Word name)
    (htypes : ∀ v ∈ variants, ∀ n ∈ v.type.names, Word n) :
    Clean (Message.text ⟨name, (discriminator.map fun d => Member.remark (remark ("Selected by `" ++ d ++ "`"))).toList ++
        [.oneOf "value" (choices 1 variants)]⟩) ↔
      ∀ c ∈ (TypeBody.union variants discriminator).quotes, Kept c := by
  have hremarks : ∀ member ∈ (discriminator.map fun d => Member.remark (remark ("Selected by `" ++ d ++ "`"))).toList,
      member.names = [] := by
    intro member hmember
    obtain ⟨d, -, rfl⟩ := Option.map_eq_some_iff.1 (Option.mem_toList.1 hmember)
    rfl
  have hmentions : ∀ type ∈ (choices 1 variants).map (·.2.type), type.Worded := by
    rw [types_choices]
    refine List.forall_mem_map.2 fun v hv => ValueType.worded_ofKind ?_
    have hv := htypes v hv
    obtain ⟨name, ⟨kind, nullable⟩, tag⟩ := v
    exact hv
  refine (Message.clean_text_iff_of_words hname ?_ ?_).trans ?_
  · rw [names_union name hremarks]
    exact List.forall_mem_cons.2 ⟨by decide, List.forall_mem_map.2 fun v _ => word_protobufIdent v.name⟩
  · cases discriminator <;> simpa [Message.mentions, Member.mentions] using hmentions
  · cases discriminator <;> simp [Message.comments, Member.comments, TypeBody.quotes]

/-- The unit of a type with words for names declares nothing but clean lines if what it quotes is kept. -/
theorem clean_ofType_iff {t : TypeDef} (hname : Word t.name) (hbody : t.body.Worded) (hclaimed : t.body.Claimed .protobuf) :
    Clean (Declaration.ofType t).text ↔ ∀ c ∈ t.body.quotes, Kept c := by
  obtain ⟨name, source, doc, body⟩ := t
  have hidents := idents_words hclaimed
  have htypes : ∀ type ∈ body.descriptors, ∀ n ∈ type.names, Word n := fun type htype n hn =>
    hbody.uses n (List.mem_flatMap.2 ⟨type, htype, hn⟩)
  cases body with
  | struct fields additional => exact iff_of_true (clean_fields additional hname hidents htypes) (List.forall_mem_nil _)
  | enumeration repr variants =>
    refine (Enumeration.clean_text_iff hname ?_ ?_).trans ?_
    · exact word_zeroName _ _ (word_behind (lettered_screamingSnakeCase name) (by decide))
    · exact List.forall_mem_map.2 fun v _ => word_valueName name v.name
    · exact List.forall_mem_map.trans List.forall_mem_map.symm
  | union variants discriminator =>
    exact clean_union_iff discriminator hname fun v hv => htypes v.type (List.mem_map_of_mem hv)
  | fallback alternatives =>
    have hremark : Kept (remark ("Holds one of: " ++ ", ".intercalate alternatives)) :=
      kept_remark (unbroken_append (by decide) (unbroken_intercalate (by decide) hbody.alternatives))
    have hclean := @clean_value name [remark ("Holds one of: " ++ ", ".intercalate alternatives)]
      ⟨.single, .anything, "value", 1⟩ hname (List.forall_mem_singleton.2 hremark) trivial (by decide)
    exact iff_of_true hclean (List.forall_mem_nil _)
  | composite parts =>
    have hclean := @clean_fields name parts none hname (by simpa [TypeBody.idents] using hidents)
      (by simpa [TypeBody.descriptors] using htypes)
    rw [additionalMembers, List.append_nil] at hclean
    exact iff_of_true hclean (List.forall_mem_nil _)
  | «alias» type =>
    have htype := ValueType.worded_ofDescriptor (htypes type (List.mem_singleton_self type))
    have hclean := @clean_value name [] (.ofType type "value" 1 false) hname (List.forall_mem_nil _)
      (by rwa [MessageField.type_ofType]) (by rw [MessageField.ident_ofType]; decide)
    exact iff_of_true hclean (List.forall_mem_nil _)

/-- A message for a request is clean if what is said of its body is kept. -/
theorem clean_request_iff {o : OperationDef} (h : o.Worded) (hclaimed : o.Claimed .protobuf) :
    Clean (Message.text ⟨o.request, paramMembers 1 o.params ++ bodyMembers (o.params.length + 1) o.body⟩) ↔
      ∀ c ∈ o.body.toList.map fun b => remark ("Request body, sent as `" ++ b.mediaType ++ "`."), Kept c := by
  have hdescriptor : ∀ type ∈ o.descriptors, (ValueType.ofDescriptor type).Worded := fun type htype =>
    ValueType.worded_ofDescriptor fun n hn => h.uses n (List.mem_flatMap.2 ⟨type, htype, hn⟩)
  refine (Message.clean_text_iff_of_words h.request ?_ ?_).trans ?_
  · rw [Message.names, List.flatMap_append, names_paramMembers, names_bodyMembers]
    exact requestIdents_words hclaimed
  · rw [Message.mentions, List.flatMap_append, mentions_paramMembers, mentions_bodyMembers]
    refine List.forall_mem_append.2 ⟨List.forall_mem_map.2 fun p hp => ?_, List.forall_mem_map.2 fun b hb => ?_⟩
    · exact hdescriptor _ (List.mem_append_left _ (List.mem_append_left _ (List.mem_map_of_mem hp)))
    · exact hdescriptor _ (List.mem_append_left _ (List.mem_append_right _ (List.mem_map_of_mem hb)))
  · rw [Message.comments, List.flatMap_append, comments_paramMembers, comments_bodyMembers, List.forall_mem_append,
      and_iff_right (kept_places o.params)]
    exact kept_described (·.doc) _ o.body.toList

/-- A message for responses is clean if their statuses are kept and their fields are clean. -/
theorem clean_response_iff {name : String} {responses : List ResponseDef} (hname : Word name) :
    Clean (Message.text ⟨name, responseMembers 1 responses⟩) ↔ (∀ c ∈ responses.map fun r => remark r.status, Kept c) ∧
      ∀ f ∈ (responseMembers 1 responses).flatMap Member.contents, Clean f.text := by
  refine (Message.clean_text_iff hname fun member hmember group hgroup => ?_).trans (and_congr_left' ?_)
  · rw [group?_responseMembers 1 responses member hmember] at hgroup
    cases hgroup
  · rw [Message.comments, comments_responseMembers]
    exact kept_described (·.doc) _ responses

/-- The unit of an operation with words for names declares nothing but clean lines if what it quotes is kept and the fields
for its responses are clean. -/
theorem clean_ofOperation_iff {o : OperationDef} (h : o.Worded) (hclaimed : o.Claimed .protobuf) :
    Clean (Declaration.ofOperation o).text ↔ (∀ c ∈ o.quotes, Kept c) ∧
      ∀ f ∈ (responseMembers 1 o.responses).flatMap Member.contents, Clean f.text := by
  have hservice := Service.clean_text_iff (s := ⟨o.service, remark (o.method.capitalName ++ " " ++ o.path),
    pascalCaseOr o.id "Operation", o.request, o.response, o.deprecated⟩) h.service (word_pascalCaseOr o.id (by decide))
    h.request h.response
  rw [Declaration.ofOperation, Declaration.text, clean_feed, clean_feed, clean_request_iff h hclaimed,
    clean_response_iff h.response, hservice, OperationDef.quotes, List.forall_mem_append, List.forall_mem_append,
    List.forall_mem_singleton]
  constructor
  · rintro ⟨⟨hrequest, hresponse, hfields⟩, hpath⟩
    exact ⟨⟨⟨hrequest, hresponse⟩, hpath⟩, hfields⟩
  · rintro ⟨⟨⟨hrequest, hresponse⟩, hpath⟩, hfields⟩
    exact ⟨⟨hrequest, hresponse, hfields⟩, hpath⟩

/-- Where statuses are words, so are the identifiers of responses, and their fields are clean. -/
theorem clean_responseFields {o : OperationDef} (h : o.Worded) (hidents : ∀ r ∈ o.responses, Word r.ident) :
    ∀ f ∈ (responseMembers 1 o.responses).flatMap Member.contents, Clean f.text := by
  intro f hf
  have hmentions := mentions_responseMembers 1 o.responses
  have hnames := names_responseMembers 1 o.responses
  obtain ⟨member, hmember, hf⟩ := List.mem_flatMap.1 hf
  have hident : f.ident ∈ o.responses.map (·.ident) := by
    rw [← hnames, List.mem_flatMap]
    exact ⟨member, hmember, by rw [Member.names_eq]; exact List.mem_append_right _ (List.mem_map_of_mem hf)⟩
  have htype : f.type ∈ o.responses.map fun r => ValueType.ofDescriptor r.type := by
    rw [← hmentions, List.mem_flatMap]
    exact ⟨member, hmember, by rw [Member.mentions_eq]; exact List.mem_map_of_mem hf⟩
  obtain ⟨r, hr, hident⟩ := List.mem_map.1 hident
  obtain ⟨r', hr', htype⟩ := List.mem_map.1 htype
  refine (OwnLine.field ?_ (hident ▸ hidents r hr)).clean
  rw [← htype]
  refine ValueType.worded_ofDescriptor fun n hn => h.uses n (List.mem_flatMap.2 ⟨r'.type, ?_, hn⟩)
  exact List.mem_append_right _ (List.mem_map_of_mem hr')

/-! ## Imports and descriptions -/

mutual

theorem pathText_wellKnown : ∀ type : TypeDescriptor, ∀ file ∈ wellKnown type, PathText file
  | .mk kind _ => pathText_wellKnownOfKind kind

theorem pathText_wellKnownOfKind : ∀ kind : TypeKind, ∀ file ∈ wellKnownOfKind kind, PathText file
  | .list item => pathText_wellKnown item
  | .map value => pathText_wellKnown value
  | .scalar scalar => by cases scalar <;> decide
  | .opaqueValue => by decide
  | .unit => by decide
  | .named _ _ => List.forall_mem_nil _

end

theorem PathText.append {s t : String} (hs : PathText s) (ht : PathText t) : PathText (s ++ t) := by
  intro c hc
  rw [String.toList_append, List.mem_append] at hc
  exact hc.elim (hs c) (ht c)

theorem pathText_importedFiles (own : String) (used : List TypeDescriptor) :
    ∀ file ∈ importedFiles own used, PathText file := by
  intro file hfile
  rw [importedFiles, mem_sortedNames] at hfile
  obtain ⟨type, -, hfile⟩ := List.mem_flatMap.1 hfile
  rcases List.mem_append.1 hfile with hfile | hfile
  · exact pathText_wellKnown type file hfile
  · obtain ⟨name, -, rfl⟩ := List.mem_map.1 hfile
    have hname : PathText (snakeCase name) := fun c hc => .inl ((smallLettered_snakeCase name).lettered c hc)
    exact ((PathText.append (by decide) hname).append (by decide)).append (by decide)

theorem clean_importText {files : List String} (h : ∀ file ∈ files, PathText file) : Clean (importText files) := by
  have htext : importText files = String.join (files.map fun file => importLine file ++ "\n") := by
    refine congrArg String.join (List.map_congr_left fun file _ => ?_)
    rw [importLine, ← String.toList_inj]
    simp [String.toList_append]
  rw [htext, clean_join (List.forall_mem_map.2 fun file _ => closed_feed _)]
  exact List.forall_mem_map.2 fun file hfile => (clean_closed _).2 (OwnLine.imported (h file hfile)).clean

theorem closed_docText (doc : Option String) : Closed (docText doc) :=
  closed_join (List.forall_mem_map.2 fun _ _ => closed_feed _)

theorem clean_docText (doc : Option String) : Clean (docText doc) := by
  rw [docText, clean_join (List.forall_mem_map.2 fun _ _ => closed_feed _)]
  exact List.forall_mem_map.2 fun comment h => (clean_closed _).2 (kept_docComments doc comment h)

end Messages

end ContractBindings
