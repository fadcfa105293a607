import ContractBindings.Proofs.Messages.Cycles
import ContractBindings.Proofs.Messages.Scopes
import ContractBindings.Proofs.Naming.Lettered

/-!
# Lines of units

Every line of a unit should be blank, a comment, or one of the lines that declarations are written in (`Fits`). A text of
such lines is *clean*, which can be told of its parts: two texts with a line feed between them are clean exactly if both are
(`clean_feed`), and indenting the lines of a text changes nothing (`clean_indented`). What a unit declares is clean exactly
if its comments and fields are (`Message.clean_text_iff`, `Enumeration.clean_text_iff`, `Service.clean_text_iff`).
-/

namespace ContractBindings.Messages

open Naming

/-! ## Lines that fit -/

/-- The type is written in one word, or it is a well-known type. -/
def ValueType.Worded : ValueType → Prop
  | .scalar name => Word name
  | .declared name => Word name
  | _ => True

/-- What a path of words is made of. -/
def PathChar (c : Char) : Prop := WordChar c ∨ c = '.' ∨ c = '/'

instance (c : Char) : Decidable (PathChar c) := inferInstanceAs (Decidable (_ ∨ _))

/-- A text of words with dots and slashes between them. -/
def PathText (file : String) : Prop := ∀ c ∈ file.toList, PathChar c

instance (file : String) : Decidable (PathText file) := List.decidableBAll PathChar file.toList

/-- Words with dots between them. -/
def Dotted (name : String) : Prop := ∃ words, words ≠ [] ∧ (∀ word ∈ words, Word word) ∧ name = ".".intercalate words

/-- The lines that declarations are written in. -/
inductive OwnLine : String → Prop
  | version : OwnLine "syntax = \"proto3\";"
  | package {name : String} : Dotted name → OwnLine ("package " ++ name ++ ";")
  | imported {file : String} : PathText file → OwnLine (importLine file)
  | opened {keyword name : String} : keyword ∈ ["message", "enum", "oneof", "service"] → Word name →
      OwnLine (keyword ++ " " ++ name ++ " \x7b")
  | field {f : MessageField} : f.type.Worded → Word f.ident → OwnLine f.text
  | value {name : String} (number : Nat) : Word name → OwnLine (name ++ " = " ++ toString number ++ ";")
  | procedure {name request response last : String} : Word name → Word request → Word response →
      last ∈ [";", " \x7b"] → OwnLine ("rpc " ++ name ++ "(" ++ request ++ ") returns (" ++ response ++ ")" ++ last)
  | deprecated : OwnLine "option deprecated = true;"
  | closed : OwnLine "\x7d"

/-- The line is blank, a comment, or one that declarations are written in, whatever blanks stand around it. -/
def Fits (line : String) : Prop :=
  Text.trim line = "" ∨ (∃ comment, Text.trim line = commentText comment) ∨ OwnLine (Text.trim line)

/-- All lines of a text fit. -/
def Clean (text : String) : Prop := ∀ line ∈ Text.lines text, Fits line

theorem fits_of_trim_eq {line line' : String} (h : Text.trim line = Text.trim line') : Fits line ↔ Fits line' := by
  rw [Fits, h, Fits]

theorem fits_indent (line : String) : Fits ("  " ++ line) ↔ Fits line := fits_of_trim_eq (Text.trim_indent line)

theorem fits_comment (comment : String) : Fits (commentText comment) := by
  refine .inr (.inl ⟨Text.trimEnd comment, ?_⟩)
  have hslash : Text.isBlank '/' = false := by decide
  rw [Text.trim, Text.trimEnd, commentText, commentText, ← String.toList_inj]
  simp [String.toList_append, Text.dropBlankEnd_cons, hslash]

theorem flush_of_word {name : String} (h : Word name) : Text.Flush name := by
  cases hname : name.toList with
  | nil => exact absurd (String.toList_eq_nil_iff.1 hname) h.ne_empty
  | cons c cs => simp [Text.Flush, hname, (h.lettered c (hname ▸ List.mem_cons_self)).not_isBlank]

theorem ValueType.Worded.flush {type : ValueType} (h : type.Worded) : Text.Flush type.text := by
  cases type with
  | scalar name => exact flush_of_word h
  | declared name => exact flush_of_word h
  | timestamp => decide
  | anything => decide
  | empty => decide

theorem MessageField.trim_text {f : MessageField} (h : f.type.Worded) : Text.trim f.text = f.text := by
  refine Text.trim_of_flush ((((Text.Flush.append ?_ _).append _).append _).append _) (by decide)
  cases f.multiplicity with
  | single => exact h.flush
  | optional => exact Text.Flush.append (by decide) _
  | repeated => exact Text.Flush.append (by decide) _
  | keyed => exact (Text.Flush.append (by decide) _).append _

/-- No blanks stand around the lines that declarations are written in. -/
theorem OwnLine.trim_eq {line : String} (h : OwnLine line) : Text.trim line = line := by
  cases h with
  | version => decide
  | package _ => exact Text.trim_of_flush (Text.Flush.append (by decide) _) (by decide)
  | imported _ => exact Text.trim_of_flush (Text.Flush.append (by decide) _) (by decide)
  | @opened keyword name hkeyword _ =>
    have hflush : ∀ keyword ∈ ["message", "enum", "oneof", "service"], Text.Flush keyword := by decide
    exact Text.trim_of_flush (((hflush keyword hkeyword).append _).append _) (by decide)
  | field htype _ => exact MessageField.trim_text htype
  | value number hname => exact Text.trim_of_flush (((flush_of_word hname).append _).append _) (by decide)
  | @procedure name request response last _ _ _ hlast =>
    have hend : ∀ last ∈ [";", " \x7b"], last.toList.getLast?.any (fun c => !Text.isBlank c) = true := by decide
    refine Text.trim_of_flush ?_ (hend last hlast)
    exact ((((((Text.Flush.append (by decide) _).append _).append _).append _).append _).append _)
  | deprecated => decide
  | closed => decide

theorem OwnLine.fits {line : String} (h : OwnLine line) : Fits line := .inr (.inr (h.trim_eq.symm ▸ h))

/-- The text ends with a semicolon or a brace. -/
def Ended (text : String) : Prop := text.toList.getLast?.any (fun c => c == ';' || c == '\x7b' || c == '\x7d') = true

instance (text : String) : Decidable (Ended text) := inferInstanceAs (Decidable (_ = true))

theorem Ended.behind {last : String} (h : Ended last) (text : String) : Ended (text ++ last) := by
  obtain ⟨c, hlast, hc⟩ := (Option.any_eq_true _ _).1 h
  exact (Option.any_eq_true _ _).2 ⟨c, by simp [String.toList_append, List.getLast?_append, hlast], hc⟩

theorem OwnLine.ended {line : String} (h : OwnLine line) : Ended line := by
  cases h with
  | version => decide
  | package _ => exact Ended.behind (by decide) _
  | imported _ => exact Ended.behind (by decide) _
  | opened _ _ => exact Ended.behind (by decide) _
  | field _ _ => exact Ended.behind (by decide) _
  | value _ _ => exact Ended.behind (by decide) _
  | @procedure name request response last _ _ _ hlast =>
    have hended : ∀ last ∈ [";", " \x7b"], Ended last := by decide
    exact (hended last hlast).behind _
  | deprecated => decide
  | closed => decide

/-- A line that fits is blank, begins with slashes, or ends with a semicolon or a brace. -/
theorem Fits.cases {line : String} (h : Fits line) :
    Text.trim line = "" ∨ ['/', '/'] <+: (Text.trim line).toList ∨ Ended (Text.trim line) := by
  rcases h with h | ⟨comment, h⟩ | h
  · exact .inl h
  · exact .inr (.inl ⟨comment.toList, by rw [h, commentText, String.toList_append]; rfl⟩)
  · exact .inr (.inr h.ended)

/-! ## Clean texts -/

/-- The text has no line feed. -/
def Unbroken (text : String) : Prop := '\n' ∉ text.toList

instance (text : String) : Decidable (Unbroken text) := inferInstanceAs (Decidable ('\n' ∉ text.toList))

theorem clean_iff {text : String} : Clean text ↔ ∀ line ∈ Text.lineChars text.toList, Fits (String.ofList line) :=
  List.forall_mem_map

theorem clean_empty : Clean "" := List.forall_mem_nil _

theorem clean_of_unbroken {text : String} (h : Unbroken text) : Clean text ↔ Fits text := by
  by_cases hempty : text.toList = []
  · obtain rfl : text = "" := String.toList_eq_nil_iff.1 hempty
    exact iff_of_true clean_empty (.inl rfl)
  · rw [clean_iff, Text.lineChars_of_unbroken h hempty, List.forall_mem_singleton, String.ofList_toList]

theorem clean_line_feed {line : String} (h : Unbroken line) (text : String) :
    Clean (line ++ "\n" ++ text) ↔ Fits line ∧ Clean text := by
  have hchars : (line ++ "\n" ++ text).toList = line.toList ++ '\n' :: text.toList := by simp [String.toList_append]
  rw [clean_iff, hchars, Text.lineChars_append_feed _ h, List.forall_mem_cons, ← clean_iff,
    fits_of_trim_eq (Text.trim_dropReturn line.toList), String.ofList_toList]

/-- What holds of texts without line feeds, and with a text holds of the text with a line in front, holds of all texts. -/
theorem linesInduction {P : String → Prop} (hline : ∀ line, Unbroken line → P line)
    (hfeed : ∀ line text, Unbroken line → P text → P (line ++ "\n" ++ text)) (text : String) : P text := by
  have hchars : P (String.ofList text.toList) := by
    induction text.toList using Text.feedInduction with
    | hline cs h => exact hline _ (by rwa [Unbroken, String.toList_ofList])
    | hfeed cs rest h ih =>
      have hsplit : String.ofList (cs ++ '\n' :: rest) = String.ofList cs ++ "\n" ++ String.ofList rest := by
        rw [← String.toList_inj]
        simp [String.toList_append]
      rw [hsplit]
      exact hfeed _ _ (by rwa [Unbroken, String.toList_ofList]) ih
  rwa [String.ofList_toList] at hchars

/-- Two texts with a line feed between them. -/
theorem clean_feed (text text' : String) : Clean (text ++ "\n" ++ text') ↔ Clean text ∧ Clean text' := by
  induction text using linesInduction with
  | hline line h => rw [clean_line_feed h, clean_of_unbroken h]
  | hfeed line text h ih =>
    have hsplit : line ++ "\n" ++ text ++ "\n" ++ text' = line ++ "\n" ++ (text ++ "\n" ++ text') := by
      simp only [String.append_assoc]
    rw [hsplit, clean_line_feed h, ih, clean_line_feed h, and_assoc]

theorem clean_indent (text : String) : Clean ("  " ++ text) ↔ Clean text := by
  have hindent {line : String} (h : Unbroken line) : Unbroken ("  " ++ line) := by
    simpa [Unbroken, String.toList_append] using h
  induction text using linesInduction with
  | hline line h => rw [clean_of_unbroken (hindent h), clean_of_unbroken h, fits_indent]
  | hfeed line text h ih =>
    rw [← String.append_assoc, ← String.append_assoc, clean_line_feed (hindent h), clean_line_feed h, fits_indent]

/-- A text that ends with its last line. -/
def Closed (text : String) : Prop := text = "" ∨ ∃ front, text = front ++ "\n"

theorem closed_feed (text : String) : Closed (text ++ "\n") := .inr ⟨text, rfl⟩

theorem Closed.append {text text' : String} (h : Closed text) (h' : Closed text') : Closed (text ++ text') := by
  rcases h' with rfl | ⟨front, rfl⟩
  · rwa [String.append_empty]
  · exact .inr ⟨text ++ front, String.append_assoc.symm⟩

theorem clean_closed (text : String) : Clean (text ++ "\n") ↔ Clean text := by
  have h := clean_feed text ""
  rw [String.append_empty] at h
  rw [h, and_iff_left clean_empty]

theorem clean_append {text text' : String} (h : Closed text) : Clean (text ++ text') ↔ Clean text ∧ Clean text' := by
  rcases h with rfl | ⟨front, rfl⟩
  · rw [String.empty_append, and_iff_right clean_empty]
  · rw [clean_feed, clean_closed]

theorem closed_join {texts : List String} (h : ∀ text ∈ texts, Closed text) : Closed (String.join texts) := by
  induction texts with
  | nil => exact .inl rfl
  | cons text texts ih =>
    rw [String.join_cons]
    exact (h text List.mem_cons_self).append (ih fun text htext => h text (List.mem_cons_of_mem _ htext))

theorem clean_join {texts : List String} (h : ∀ text ∈ texts, Closed text) :
    Clean (String.join texts) ↔ ∀ text ∈ texts, Clean text := by
  induction texts with
  | nil => exact iff_of_true clean_empty (List.forall_mem_nil _)
  | cons text texts ih =>
    obtain ⟨htext, htexts⟩ := List.forall_mem_cons.1 h
    rw [String.join_cons, clean_append htext, ih htexts, List.forall_mem_cons]

theorem clean_intercalate : ∀ texts : List String, Clean ("\n".intercalate texts) ↔ ∀ text ∈ texts, Clean text
  | [] => iff_of_true clean_empty (List.forall_mem_nil _)
  | [text] => by rw [String.intercalate_singleton, List.forall_mem_singleton]
  | text :: text' :: texts => by
    rw [String.intercalate_cons_cons, clean_feed, clean_intercalate (text' :: texts), ← List.forall_mem_cons]

theorem closed_indented (text : String) : Closed (indented text) := by
  refine closed_join fun line hline => ?_
  obtain ⟨line, -, rfl⟩ := List.mem_map.1 hline
  exact closed_feed _

theorem clean_indented (text : String) : Clean (indented text) ↔ Clean text := by
  have hclosed : ∀ line ∈ (Text.lines text).map fun line => "  " ++ line ++ "\n", Closed line := by
    intro line hline
    obtain ⟨line, -, rfl⟩ := List.mem_map.1 hline
    exact closed_feed _
  rw [indented, clean_join hclosed, List.forall_mem_map, Clean]
  refine forall₂_congr fun line hline => ?_
  obtain ⟨cs, hcs, rfl⟩ := List.mem_map.1 hline
  have hline : Unbroken (String.ofList cs) := by
    rw [Unbroken, String.toList_ofList]
    exact Text.unbroken_of_mem_lineChars hcs
  rw [clean_closed, clean_indent, clean_of_unbroken hline]

/-! ## Own lines and comments -/

theorem unbroken_append {s t : String} (hs : Unbroken s) (ht : Unbroken t) : Unbroken (s ++ t) := by
  rw [Unbroken, String.toList_append, List.mem_append, not_or]
  exact ⟨hs, ht⟩

theorem unbroken_intercalate {sep : String} (hsep : Unbroken sep) : ∀ {texts : List String},
    (∀ text ∈ texts, Unbroken text) → Unbroken (sep.intercalate texts)
  | [], _ => fun h => by cases h
  | [text], h => by simpa using h
  | text :: text' :: texts, h => by
    obtain ⟨htext, hrest⟩ := List.forall_mem_cons.1 h
    rw [String.intercalate_cons_cons]
    exact unbroken_append (unbroken_append htext hsep) (unbroken_intercalate hsep hrest)

theorem unbroken_of_word {name : String} (h : Word name) : Unbroken name := h.lettered.not_mem (by decide)

theorem unbroken_toString_nat (n : Nat) : Unbroken (toString n) := (lettered_toString_nat n).not_mem (by decide)

theorem Dotted.unbroken {name : String} (h : Dotted name) : Unbroken name := by
  obtain ⟨words, -, hwords, rfl⟩ := h
  exact unbroken_intercalate (by decide) fun word hword => unbroken_of_word (hwords word hword)

theorem ValueType.Worded.unbroken {type : ValueType} (h : type.Worded) : Unbroken type.text := by
  cases type with
  | scalar name => exact unbroken_of_word h
  | declared name => exact unbroken_of_word h
  | timestamp => decide
  | anything => decide
  | empty => decide

theorem MessageField.unbroken_text {f : MessageField} (htype : f.type.Worded) (hident : Word f.ident) : Unbroken f.text := by
  have htype := htype.unbroken
  have hident := unbroken_of_word hident
  have hnumber := unbroken_toString_nat f.number
  unfold MessageField.text
  cases f.multiplicity <;> simp_all [Unbroken, String.toList_append]

theorem OwnLine.unbroken {line : String} (h : OwnLine line) : Unbroken line := by
  cases h with
  | version => decide
  | package h =>
    have hname := h.unbroken
    simpa [Unbroken, String.toList_append] using hname
  | @imported file h =>
    have hfile : Unbroken file := fun hc => absurd (h _ hc) (by decide)
    simpa [Unbroken, importLine, String.toList_append] using hfile
  | opened hkeyword hname =>
    have hname := unbroken_of_word hname
    simp only [List.mem_cons, List.not_mem_nil, or_false] at hkeyword
    rcases hkeyword with rfl | rfl | rfl | rfl <;> simpa [Unbroken, String.toList_append] using hname
  | field htype hident => exact MessageField.unbroken_text htype hident
  | value number hname =>
    have hname := unbroken_of_word hname
    have hnumber := unbroken_toString_nat number
    simp_all [Unbroken, String.toList_append]
  | procedure hname hrequest hresponse hlast =>
    have hname := unbroken_of_word hname
    have hrequest := unbroken_of_word hrequest
    have hresponse := unbroken_of_word hresponse
    simp only [List.mem_cons, List.not_mem_nil, or_false] at hlast
    rcases hlast with rfl | rfl <;> simp_all [Unbroken, String.toList_append]
  | deprecated => decide
  | closed => decide

theorem OwnLine.clean {line : String} (h : OwnLine line) : Clean line := (clean_of_unbroken h.unbroken).2 h.fits

/-- The text of a comment is clean. -/
def Kept (comment : String) : Prop := Clean (commentText comment)

theorem kept_of_unbroken {comment : String} (h : Unbroken comment) : Kept comment := by
  refine (clean_of_unbroken ?_).2 (fits_comment comment)
  simpa [Unbroken, commentText, String.toList_append] using h

/-- A description is cut into its lines, so none of its comments has a line feed. -/
theorem unbroken_docComments (doc : Option String) : ∀ comment ∈ docComments doc, Unbroken comment := by
  intro comment hcomment
  obtain ⟨line, hline, rfl⟩ := List.mem_map.1 hcomment
  have hline : Unbroken line := by
    cases doc with
    | none => cases hline
    | some doc =>
      obtain ⟨whole, hwhole, rfl⟩ := List.mem_map.1 hline
      obtain ⟨cs, hcs, rfl⟩ := List.mem_map.1 hwhole
      intro hfeed
      rw [Text.trimEnd, String.toList_ofList, String.toList_ofList] at hfeed
      exact Text.unbroken_of_mem_lineChars hcs (Text.mem_of_mem_dropBlankEnd hfeed)
  split
  · decide
  · simpa [Unbroken, remark, String.toList_append] using hline

theorem kept_docComments (doc : Option String) : ∀ comment ∈ docComments doc, Kept comment :=
  fun comment h => kept_of_unbroken (unbroken_docComments doc comment h)

/-! ## Messages -/

/-- The comments of a member. -/
def Member.comments : Member → List String
  | .remark comment => [comment]
  | .field comments _ => comments
  | .oneOf _ choices => choices.flatMap (·.1.toList)

/-- The fields of a member. -/
def Member.contents : Member → List MessageField
  | .remark _ => []
  | .field _ content => [content]
  | .oneOf _ choices => choices.map (·.2)

/-- The name for the fields of which one is set. -/
def Member.group? : Member → Option String
  | .oneOf name _ => some name
  | _ => none

theorem clean_fieldText {comments : List String} {content : String} :
    Clean ("\n".intercalate (comments ++ [content])) ↔ (∀ comment ∈ comments, Clean comment) ∧ Clean content := by
  rw [clean_intercalate, List.forall_mem_append, List.forall_mem_singleton]

theorem Member.clean_texts_iff {m : Member} (h : ∀ name ∈ m.group?, Word name) :
    (∀ text ∈ m.texts, Clean text) ↔ (∀ comment ∈ m.comments, Kept comment) ∧ ∀ f ∈ m.contents, Clean f.text := by
  cases m with
  | remark comment => simp [Member.texts, Member.comments, Member.contents, Kept]
  | field comments content =>
    rw [Member.texts, List.forall_mem_singleton, clean_fieldText, List.forall_mem_map, Member.comments, Member.contents,
      List.forall_mem_singleton]
    rfl
  | oneOf name choices =>
    have hopened : Clean ("oneof " ++ name ++ " \x7b") := (@OwnLine.opened "oneof" _ (by decide) (h name rfl)).clean
    have hchoice (choice : Option String × MessageField) :
        Clean ("\n".intercalate (choice.1.toList.map (fun c => "  " ++ commentText c) ++ ["  " ++ choice.2.text])) ↔
          (∀ comment ∈ choice.1.toList, Kept comment) ∧ Clean choice.2.text := by
      rw [clean_fieldText, List.forall_mem_map, clean_indent]
      exact and_congr_left' (forall₂_congr fun comment _ => clean_indent _)
    rw [Member.texts, List.forall_mem_append, List.forall_mem_append, List.forall_mem_singleton, List.forall_mem_singleton,
      and_iff_right hopened, and_iff_left OwnLine.closed.clean, List.forall_mem_map, Member.comments, Member.contents,
      List.forall_mem_flatMap, List.forall_mem_map]
    exact (forall₂_congr fun choice _ => hchoice choice).trans forall₂_and

/-- The comments of a message. -/
def Message.comments (m : Message) : List String := m.members.flatMap Member.comments

/-- The fields of a message. -/
def Message.contents (m : Message) : List MessageField := m.members.flatMap Member.contents

/-- A message is clean if its comments and fields are. -/
theorem Message.clean_text_iff {m : Message} (hname : Word m.name)
    (hgroups : ∀ member ∈ m.members, ∀ name ∈ member.group?, Word name) :
    Clean m.text ↔ (∀ comment ∈ m.comments, Kept comment) ∧ ∀ f ∈ m.contents, Clean f.text := by
  have hopened : Clean ("message " ++ m.name ++ " \x7b") := (@OwnLine.opened "message" _ (by decide) hname).clean
  have hclosed : ∀ text ∈ (m.members.flatMap Member.texts).map indented, Closed text :=
    List.forall_mem_map.2 fun text _ => closed_indented text
  have htext : m.text = "message " ++ m.name ++ " \x7b" ++ "\n" ++
      (String.join ((m.members.flatMap Member.texts).map indented) ++ ("\x7d" ++ "\n")) := by
    rw [Message.text, ← String.toList_inj]
    simp [String.toList_append]
  rw [htext, clean_feed, and_iff_right hopened, clean_append (closed_join hclosed), clean_closed,
    and_iff_left OwnLine.closed.clean, clean_join hclosed, List.forall_mem_map, Message.comments, Message.contents,
    List.forall_mem_flatMap, List.forall_mem_flatMap]
  simp only [clean_indented]
  rw [List.forall_mem_flatMap]
  exact (forall₂_congr fun member hmember => Member.clean_texts_iff (hgroups member hmember)).trans forall₂_and

/-! ## Enumerations and services -/

theorem closed_valueTexts : ∀ (number : Nat) (values : List (String × String)), Closed (valueTexts number values)
  | _, [] => .inl rfl
  | number, (comment, name) :: rest => by
    rw [valueTexts]
    refine Closed.append (.inr ⟨"  " ++ commentText comment ++ "\n  " ++ name ++ " = " ++ toString number ++ ";", ?_⟩)
      (closed_valueTexts (number + 1) rest)
    rw [← String.toList_inj]
    simp [String.toList_append]

theorem clean_valueTexts : ∀ (number : Nat) {values : List (String × String)}, (∀ p ∈ values, Word p.2) →
    (Clean (valueTexts number values) ↔ ∀ p ∈ values, Kept p.1)
  | _, [], _ => iff_of_true clean_empty (List.forall_mem_nil _)
  | number, (comment, name) :: rest, h => by
    obtain ⟨hname, hrest⟩ := List.forall_mem_cons.1 h
    have htext : valueTexts number ((comment, name) :: rest) = "  " ++ commentText comment ++ "\n" ++
        ("  " ++ (name ++ " = " ++ toString number ++ ";") ++ "\n" ++ valueTexts (number + 1) rest) := by
      rw [valueTexts, ← String.toList_inj]
      simp [String.toList_append]
    rw [htext, clean_feed, clean_feed, clean_indent, clean_indent, and_iff_right (OwnLine.value number hname).clean,
      clean_valueTexts (number + 1) hrest, List.forall_mem_cons, Kept]

/-- An enumeration is clean if the comments of its values are. -/
theorem Enumeration.clean_text_iff {e : Enumeration} (hname : Word e.name) (hzero : Word e.zero)
    (hvalues : ∀ p ∈ e.values, Word p.2) : Clean e.text ↔ ∀ p ∈ e.values, Kept p.1 := by
  have hopened : Clean ("enum " ++ e.name ++ " \x7b") := (@OwnLine.opened "enum" _ (by decide) hname).clean
  have htext : e.text = "enum " ++ e.name ++ " \x7b" ++ "\n" ++ ("  " ++ (e.zero ++ " = " ++ toString 0 ++ ";") ++ "\n" ++
      (valueTexts 1 e.values ++ ("\x7d" ++ "\n"))) := by
    rw [Enumeration.text, ← String.toList_inj]
    simp [String.toList_append]
  rw [htext, clean_feed, and_iff_right hopened, clean_feed, clean_indent, and_iff_right (OwnLine.value 0 hzero).clean,
    clean_append (closed_valueTexts 1 e.values), clean_closed, and_iff_left OwnLine.closed.clean, clean_valueTexts 1 hvalues]

/-- The text of a service with its parts in place, whatever stands behind the call. -/
theorem service_lines (name comment call ending : String) :
    "service " ++ name ++ " \x7b\n  " ++ comment ++ "\n  rpc " ++ call ++ ending ++ "\n\x7d\n" =
      "service " ++ name ++ " \x7b" ++ "\n" ++ ("  " ++ comment ++ "\n" ++
        ("  " ++ ("rpc " ++ call ++ ending ++ "\n" ++ ("\x7d" ++ "\n")))) := by
  rw [← String.toList_inj]
  simp [String.toList_append]

/-- The lines behind the call of a deprecated procedure. -/
theorem option_lines (call text : String) : call ++ " \x7b\n    option deprecated = true;\n  \x7d" ++ "\n" ++ text =
    call ++ " \x7b" ++ "\n" ++ ("  " ++ ("  " ++ "option deprecated = true;") ++ "\n" ++
      ("  " ++ "\x7d" ++ "\n" ++ text)) := by
  rw [← String.toList_inj]
  simp [String.toList_append]

/-- A service is clean if its comment is. -/
theorem Service.clean_text_iff {s : Service} (hname : Word s.name) (hprocedure : Word s.procedure)
    (hrequest : Word s.request) (hresponse : Word s.response) : Clean s.text ↔ Kept s.comment := by
  have hopened : Clean ("service " ++ s.name ++ " \x7b") := (@OwnLine.opened "service" _ (by decide) hname).clean
  have hcall {last : String} (h : last ∈ [";", " \x7b"]) := (OwnLine.procedure hprocedure hrequest hresponse h).clean
  have hclosed : Clean ("\x7d" ++ "\n") := (clean_closed _).2 OwnLine.closed.clean
  have htext : s.text = "service " ++ s.name ++ " \x7b\n  " ++ commentText s.comment ++ "\n  rpc " ++
      (s.procedure ++ "(" ++ s.request ++ ") returns (" ++ s.response ++ ")") ++
      (if s.deprecated then " \x7b\n    option deprecated = true;\n  \x7d" else ";") ++ "\n\x7d\n" := by
    unfold Service.text
    generalize (if s.deprecated = true then " \x7b\n    option deprecated = true;\n  \x7d" else ";") = ending
    simp only [String.append_assoc]
  have hshape : "rpc " ++ (s.procedure ++ "(" ++ s.request ++ ") returns (" ++ s.response ++ ")") =
      "rpc " ++ s.procedure ++ "(" ++ s.request ++ ") returns (" ++ s.response ++ ")" := by
    simp only [String.append_assoc]
  rw [htext, service_lines, clean_feed, and_iff_right hopened, clean_feed, clean_indent, clean_indent, hshape, Kept]
  refine and_iff_left ?_
  split
  · rw [option_lines, clean_feed, clean_feed, clean_feed, clean_indent, clean_indent, clean_indent]
    exact ⟨hcall (by decide), OwnLine.deprecated.clean, OwnLine.closed.clean, hclosed⟩
  · exact (clean_feed _ _).2 ⟨hcall (by decide), hclosed⟩

end ContractBindings.Messages
