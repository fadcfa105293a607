import ContractBindings.Items.Phrase.Attribute

/-!
# Calls of macros

A call is a path, an exclamation mark and tokens in brackets. The definition of a macro by rules has a layout of its
own.
-/

namespace ContractBindings.Items

open Layout

/-- A call of a macro. -/
structure MacroPhrase where
  doc : List Doc
  bracket : Bracket

/-- Tokens of a macro between gaps. -/
def macroBody (pattern : Bool) (gap : Gap) (content : List Tree) : List Doc :=
  if content.isEmpty then []
  else nested (outdented (.gap gap :: aligned (macroTrees pattern .start true content) ++ [.gap gap]))

/-- The rules of a macro, one after the other. -/
def macroRules : Nat → List Tree → List Doc
  | 0, _ => []
  | fuel + 1, trees =>
    match trees with
    | .group bracket pattern :: .mark '=' _ :: .mark '>' _ :: .group _ content :: rest =>
      let rest := match rest with
        | .mark ';' _ :: rest => rest
        | rest => rest
      [.text bracket.opening] ++ macroBody true .zero pattern ++ [.text (bracket.closing ++ " => \x7b"), .gap .closed]
        ++ macroBody false .hard content ++ [.text "\x7d;", .gap .hard] ++ macroRules fuel rest
    | _ => []

/-- The layout of a call with a name behind the exclamation mark, if there is one. -/
def macroDoc (path : PathPhrase) (name : Option String) (bracket : Bracket) (content : List Tree) : List Doc :=
  match path.name, name with
  | some "macro_rules", some name =>
    [.text ("macro_rules! " ++ name ++ " \x7b")] ++ nested (body .hard (macroRules (content.length + 1) content))
      ++ [.text "\x7d"]
  | _, _ =>
    let opening := if bracket = .curly then " \x7b" else bracket.opening
    path.doc ++ [.text "!"] ++ (name.elim [] fun name => [.text (" " ++ name)]) ++ [.text opening]
      ++ macroBody false (if bracket = .curly then .hard else .zero) content ++ [.text bracket.closing]

/-- The call of a macro after its path and the exclamation mark. -/
def macroCall (path : PathPhrase) : Reader MacroPhrase := do
  let (bracket, content) ← Reader.anyGroup
  return ⟨macroDoc path none bracket content, bracket⟩

/-- The call of a macro as an item, where a name may follow the exclamation mark. -/
def macroItem : Reader MacroPhrase := do
  let path ← plainPath
  Reader.mark "!"
  let name ← Reader.readIf (fun trees => atIdent trees || atWord "try" trees) Reader.anyWord
  let (bracket, content) ← Reader.anyGroup
  return ⟨macroDoc path name bracket content, bracket⟩

end ContractBindings.Items
