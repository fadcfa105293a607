import Mathlib
import ContractBindings.Proofs.Unit.Outcomes

/-!
# Units without templates of their own

Where a configuration replaces no template, a protobuf unit is the text of `standardText`: a comment that names the contract
(`bannerComment`), the version of the language and the package, the imports, and what the unit declares behind its
description (`text_of_assemble`, `assemble_standard`).
-/

namespace ContractBindings

namespace Template

/-- A variable without filters. -/
def variableExpr (name : String) : Expr := .mk false (.variable name) []

/-- The pieces of the template that protobuf units have without configuration. -/
def standardPieces : List Piece :=
  [.text "// Generated by apigen",
    .choice [(variableExpr "title", [.text " from ", .value (variableExpr "title"),
      .choice [(variableExpr "version", [.text " ", .value (variableExpr "version")])] []])] [],
    .text ". Do not edit.\nsyntax = \"proto3\";\n\npackage ", .value (variableExpr "package"), .text ";\n",
    .value (variableExpr "imports"), .text "\n", .value (variableExpr "doc"), .value (variableExpr "body")]

theorem read_standard : read? (standard .protobuf) = some standardPieces := by cbv

/-- The text, unless the value is empty. -/
def given (value text : String) : String := if value = "" then "" else text

section Variable

variable {scope : Scope} {name : String} {value : Value}

/-- A name without members that has a value. -/
structure Scope.Gives (scope : Scope) (name : String) (value : Value) : Prop where
  plain : '[' ∉ name.toList ∧ '.' ∉ name.toList
  lookup : scope.lookup name = some value

theorem Scope.Gives.value_eq (h : scope.Gives name value) : scope.value name = .ok value := by
  obtain ⟨hindex, hmember⟩ := h.plain
  simp [Scope.value, Scope.value?, String.contains_char_eq, hindex, hmember, h.lookup]

theorem value_variableExpr (h : scope.Gives name value) : (variableExpr name).value scope = .ok value := by
  rw [variableExpr, Expr.value, Operand.value, h.value_eq]
  rfl

theorem holds_variableExpr (h : scope.Gives name value) : (variableExpr name).holds scope = .ok value.isTruthy := by
  rw [variableExpr, Expr.holds, Operand.value, h.value_eq]
  rfl

section Pieces

variable {written more inner : String} {scope' : Scope} {rest body : List Piece}

theorem renderAll_text (written : String) (h : Piece.renderAll scope rest = .ok (more, scope')) :
    Piece.renderAll scope (.text written :: rest) = .ok (written ++ more, scope') := by
  rw [Piece.renderAll, Piece.render]
  dsimp only [bind, Except.bind]
  rw [h]
  rfl

theorem renderAll_value (hv : scope.Gives name (.text written)) (h : Piece.renderAll scope rest = .ok (more, scope')) :
    Piece.renderAll scope (.value (variableExpr name) :: rest) = .ok (written ++ more, scope') := by
  rw [Piece.renderAll, Piece.render, value_variableExpr hv]
  dsimp only [bind, Except.bind, pure, Except.pure]
  rw [h]
  rfl

theorem renderCases_variable (hv : scope.Gives name (.text written))
    (hbody : Piece.renderAll scope body = .ok (inner, scope)) :
    Piece.renderCases scope [(variableExpr name, body)] = .ok (if written = "" then none else some (inner, scope)) := by
  rw [Piece.renderCases, holds_variableExpr hv]
  by_cases hempty : written = ""
  · have hfalse : (Value.text written).isTruthy = false := by simp [Value.isTruthy, hempty]
    rw [hfalse, if_pos hempty, Piece.renderCases]
    rfl
  · have htrue : (Value.text written).isTruthy = true := by simp [Value.isTruthy, hempty]
    rw [htrue, if_neg hempty, hbody]
    rfl

/-- Pieces under the condition that a variable is not empty. -/
theorem renderAll_choice (hv : scope.Gives name (.text written)) (hbody : Piece.renderAll scope body = .ok (inner, scope))
    (h : Piece.renderAll scope rest = .ok (more, scope')) :
    Piece.renderAll scope (.choice [(variableExpr name, body)] [] :: rest) =
      .ok (given written inner ++ more, scope') := by
  rw [Piece.renderAll, Piece.render, renderCases_variable hv hbody, given]
  by_cases hempty : written = ""
  · rw [if_pos hempty, if_pos hempty, Piece.renderAll]
    dsimp only [bind, Except.bind]
    rw [h]
    rfl
  · rw [if_neg hempty, if_neg hempty]
    dsimp only [bind, Except.bind, pure, Except.pure]
    rw [h]

end Pieces

end Variable

end Template

namespace CodeUnit

/-- What the banner of a unit says of the contract. -/
def bannerComment (info : Info) : String :=
  " Generated by apigen" ++ Template.given info.title (" from " ++ info.title ++
    Template.given info.version (" " ++ info.version)) ++ ". Do not edit."

/-- The text of a protobuf unit that no template of a configuration changes. -/
def standardText (info : Info) (package : String) (parts : UnitParts) : String :=
  Messages.commentText (bannerComment info) ++ "\n" ++ "syntax = \"proto3\";" ++ "\n" ++ "\n" ++
    ("package " ++ package ++ ";") ++ "\n" ++ parts.imports ++ "\n" ++ parts.doc ++ parts.body

open Template in
theorem substitute_standard (name : String) (info : Info) (config : Config) (parts : UnitParts) :
    substitute (standard .protobuf) (templateValues name info config parts) =
      .ok (standardText info config.package parts) := by
  rw [substitute, read_standard]
  dsimp only
  generalize hscope : List.map _ (templateValues name info config parts) = scope
  have htitle : Scope.Gives scope "title" (.text info.title) := ⟨by decide, hscope ▸ rfl⟩
  have hversion : Scope.Gives scope "version" (.text info.version) := ⟨by decide, hscope ▸ rfl⟩
  have hpackage : Scope.Gives scope "package" (.text config.package) := ⟨by decide, hscope ▸ rfl⟩
  have himports : Scope.Gives scope "imports" (.text parts.imports) := ⟨by decide, hscope ▸ rfl⟩
  have hdoc : Scope.Gives scope "doc" (.text parts.doc) := ⟨by decide, hscope ▸ rfl⟩
  have hbody : Scope.Gives scope "body" (.text parts.body) := ⟨by decide, hscope ▸ rfl⟩
  have hnone : Piece.renderAll scope [] = .ok ("", scope) := by rw [Piece.renderAll]
  have hafter := renderAll_choice hversion (renderAll_text " " (renderAll_value hversion hnone)) hnone
  have hfrom := renderAll_text " from " (renderAll_value htitle hafter)
  have hdeclared := renderAll_value himports (renderAll_text "\n" (renderAll_value hdoc
    (renderAll_value hbody hnone)))
  have hrest := renderAll_text ". Do not edit.\nsyntax = \"proto3\";\n\npackage "
    (renderAll_value hpackage (renderAll_text ";\n" hdeclared))
  have hall := renderAll_text "// Generated by apigen" (renderAll_choice htitle hfrom hrest)
  refine (congrArg (Except.map (·.1)) hall).trans (congrArg Except.ok ?_)
  dsimp only
  unfold standardText bannerComment Messages.commentText
  simp only [String.append_assoc, String.append_empty]
  generalize given info.title _ = named
  rw [← String.toList_inj]
  simp [String.toList_append]

section Assemble

variable {info : Info} {config : Config} {kind : UnitKind} {name : String} {p : UnitParts}

theorem render_standard (hstandard : config.templates.lookup (Template.nameOf .protobuf kind) = none) :
    Template.render .protobuf config.templates (Template.nameOf .protobuf kind) (templateValues name info config p) =
      .ok (standardText info config.package p) := by
  have hselect : Template.select? .protobuf config.templates (Template.nameOf .protobuf kind) =
      some (Template.standard .protobuf) := by
    rw [Template.select?, hstandard, if_pos (by cases kind <;> decide), Option.getD_none]
  rw [Template.render, hselect]
  dsimp only
  rw [Template.renderText, substitute_standard]
  rfl

/-- The text of a protobuf unit, where a configuration replaces no template. -/
theorem text_of_assemble {u : CodeUnit} (hstandard : config.templates.lookup (Template.nameOf .protobuf kind) = none)
    (h : assemble .protobuf info config kind name (.ok p) = .ok u) : u.text = standardText info config.package p := by
  obtain ⟨p', hparts, htext, -, -⟩ := ok_of_assemble h
  rw [render_standard hstandard] at htext
  rw [← Except.ok.inj htext, Except.ok.inj hparts]

/-- A text without fault is the text of a unit. -/
theorem assemble_standard (hstandard : config.templates.lookup (Template.nameOf .protobuf kind) = none)
    (hfault : Messages.fault? (standardText info config.package p) = none) :
    assemble .protobuf info config kind name (.ok p) =
      .ok ⟨name, kind, kind.path name .protobuf, standardText info config.package p⟩ := by
  rw [assemble]
  dsimp only [bind, Except.bind]
  rw [render_standard hstandard]
  dsimp only [fault?]
  rw [hfault]
  rfl

end Assemble

end CodeUnit
end ContractBindings
