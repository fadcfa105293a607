import ContractBindings.Items.Phrase.Item
import ContractBindings.Items.Spelling
import ContractBindings.Items.Token.Reader
import ContractBindings.Unit.Basic

/-!
# The text of items

The tokens of all items are read as a source file, which is laid out: attributes of the file and its items. Items follow
each other without empty lines; every attribute, field, variant and member stands on lines of its own.
-/

namespace ContractBindings.Items

open Layout

/-! ## Files -/

/-- The readers whose calls of others are read by some readers. -/
def Readers.calling (r : Readers) : Readers where
  type := readType r
  bound := readBound r
  operand := readOperand r
  operations := readOperations r
  leading := readLeading r
  pattern := readPattern r
  statements := readStatements r
  item := readItem r

/-- The readers that read nothing. -/
def Readers.none : Readers where
  type _ := failure
  bound _ _ := failure
  operand _ _ := failure
  operations _ _ _ := failure
  leading _ := failure
  pattern := failure
  statements := failure
  item _ := failure

/-- The readers that call each other up to some depth, above given ones. -/
def Readers.nestedIn (r : Readers) : Nat → Readers
  | 0 => r
  | depth + 1 => r.calling.nestedIn depth

/-- The readers for some trees. A call takes at least one tree before it calls deeper than a few times. -/
def Readers.ofTrees (trees : List Tree) : Readers := Readers.none.nestedIn (8 * Tree.sizeOfAll trees + 64)

/-- The layout of a file with some trees, if they are one. -/
def file? (trees : List Tree) : Option (List Doc) :=
  let r := Readers.ofTrees trees
  Reader.wholly? (do
    let attributes ← innerAttributes r
    let items ← Reader.itemsUntil List.isEmpty do r.item (← outerAttributes r)
    return attributes ++ items.flatten) trees

/-- The text without the line that names an interpreter; an attribute begins alike. -/
def dropInterpreterLine (cs : List Char) : List Char :=
  match cs with
  | '#' :: '!' :: rest =>
    if (skipBetween (rest.length + 1) rest).head? == some '[' then cs else rest.dropWhile (· != '\n')
  | _ => cs

/-- The fault of a unit's text. -/
def fault? (text : String) : Option SourceFault :=
  let source := String.ofList (dropInterpreterLine (dropByteOrder text.toList))
  if ((trees? source).bind file?).isSome then .none else some .notSource

/-! ## Items -/

/-- The text of items. Names that do not fit where they stand leave no file to be laid out. -/
def text (items : List Item) : Except UnitError String := do
  let trees ← items.mapM Item.trees
  match file? trees.flatten with
  | some doc => return Layout.render doc
  | none => throw .invalidToken

/-- The text of a description in front of an item. -/
def docText (doc : Option String) : String :=
  String.join ((docLines doc).map fun line => "///" ++ (if line == "" then "" else " " ++ line) ++ "\n")

end ContractBindings.Items
