/-!
# Layout of generated code

Text with possible line breaks, and the choice of the breaks. A group that fits on the rest of its line, together with
the text up to the next possible break after it, is written on one line. Of a group that does not fit, a consistent one
breaks at all its own breaks, another one only where the text up to its next break does not fit.

A line is 89 bytes wide, but no line has less than 60 bytes to hold, however deep it is indented.
-/

namespace ContractBindings.Layout

/-- A place where a line may end. -/
structure Gap where
  /-- The blanks written where the line goes on. -/
  blanks : Nat
  /-- How much further the next line is indented than its group. -/
  offset : Int
  /-- Text written at the end of the line. -/
  ending : String
  /-- Text written at the start of the next line. -/
  opening : String
  /-- Text written where the line goes on. -/
  unbroken : String
  /-- The line goes on in any case. -/
  never : Bool
  deriving Repr, DecidableEq, Inhabited

/-- Text with possible line breaks. -/
inductive Doc where
  | text (text : String)
  | gap (gap : Gap)
  /-- Nothing, but no line can hold it. -/
  | endless
  /-- The indentation is relative to the group around it. -/
  | group (indent : Int) (consistent : Bool) (content : List Doc)
  deriving Repr, Inhabited

namespace Gap

/-- A gap that writes nothing. -/
def zero : Gap := ⟨0, 0, "", "", "", false⟩

/-- A gap that is a blank where the line goes on. -/
def space : Gap := { zero with blanks := 1 }

/-- The blanks that fit on no line. -/
def endless : Nat := 0xffff

/-- A gap at which the line ends in any case. -/
def hard : Gap := { zero with blanks := endless }

/-- A gap at which the line never ends. -/
def closed : Gap := { zero with never := true }

/-- The gap after the last item of a list, with a comma where the line ends. -/
def lastComma : Gap := { zero with ending := "," }

/-- The gap after the last item of a list in spaced brackets, with a comma where the line ends. -/
def lastCommaSpace : Gap := { space with ending := "," }

/-- The gap with another offset. -/
def shifted (g : Gap) (offset : Int) : Gap := { g with offset := g.offset + offset }

end Gap

/-- How much further a group is indented than the one around it. -/
def indent : Int := 4

/-- The bytes of a line. -/
def margin : Int := 89

/-- The bytes that any line can hold. -/
def leastSpace : Int := 60

mutual

/-- The length of a document on one line. -/
def Doc.length : Doc → Nat
  | .text s => s.utf8ByteSize
  | .gap g => g.blanks
  | .endless => Gap.endless
  | .group _ _ content => lengthOf content

/-- The length of documents on one line. -/
def lengthOf : List Doc → Nat
  | [] => 0
  | d :: rest => d.length + lengthOf rest

end

/-- The length of the text up to the next gap of the same group; behind the group's end stand another `after` bytes up
to a gap. -/
def lengthToGap (after : Nat) : List Doc → Nat
  | [] => after
  | .gap _ :: _ => 0
  | d :: rest => d.length + lengthToGap after rest

/-- A page as far as it is written: its text, the room on the last line, and the blanks that the next text begins
with. -/
structure Page where
  text : String
  room : Int
  pending : Nat
  deriving Repr

namespace Page

/-- The empty page. -/
def empty : Page := ⟨"", margin, 0⟩

/-- Writes a text after the pending blanks. -/
def write (p : Page) (s : String) : Page :=
  ⟨p.text ++ String.ofList (List.replicate p.pending ' ') ++ s, p.room - s.utf8ByteSize, 0⟩

/-- Goes on with the line at a gap. -/
def goOn (p : Page) (g : Gap) : Page :=
  ⟨p.text ++ g.unbroken, p.room - g.blanks - g.unbroken.utf8ByteSize, p.pending + g.blanks⟩

/-- Ends the line at a gap of a group with an indentation. -/
def endLine (p : Page) (indent : Int) (g : Gap) : Page :=
  let ended := if g.ending == "" then p else p.write g.ending
  let column := indent + g.offset
  let next : Page := ⟨ended.text ++ "\n", max (margin - column) leastSpace, column.toNat⟩
  if g.opening == "" then next else next.write g.opening

end Page

/-- How the gaps of the group around are taken. -/
inductive Style where
  /-- The group is on one line. -/
  | flat
  | consistent
  | filled
  deriving Repr, DecidableEq

/-- The style of a group by whether it fits. -/
def Style.ofGroup (fits consistent : Bool) : Style :=
  if fits then .flat else if consistent then .consistent else .filled

mutual

/-- Writes a document; `after` bytes follow up to the next gap. -/
def Doc.put (style : Style) (column : Int) (after : Nat) (p : Page) : Doc → Page
  | .text s => p.write s
  | .endless => p
  | .gap g =>
    let goesOn := g.never || match style with
      | .flat => true
      | .consistent => false
      | .filled => ((g.blanks + after : Nat) : Int) ≤ p.room
    if goesOn then p.goOn g else p.endLine column g
  | .group offset consistent content =>
    if ((lengthOf content + after : Nat) : Int) ≤ p.room then putAll .flat column after p content
    else putAll (.ofGroup false consistent) (column + offset) after p content

/-- Writes documents in order; `after` bytes follow the last one up to the next gap. -/
def putAll (style : Style) (column : Int) (after : Nat) (p : Page) : List Doc → Page
  | [] => p
  | d :: rest => putAll style column after (d.put style column (lengthToGap after rest) p) rest

end

/-- The text of a document whose lines end where they have to. -/
def render (content : List Doc) : String := ((Doc.group 0 true content).put .filled 0 0 .empty).text

/-! ## Frequent documents -/

/-- A group, unless a single gap is all that it holds. -/
def box (offset : Int) (consistent : Bool) (content : List Doc) : List Doc :=
  match content with
  | [.gap _] => []
  | _ => [.group offset consistent content]

/-- A group that breaks at all its gaps or at none, indented by one step. -/
def nested (content : List Doc) : List Doc := box indent true content

/-- A group that breaks only where it has to, with the indentation around it. -/
def aligned (content : List Doc) : List Doc := box 0 false content

/-- The documents with the gap that ends them, if one does, one step further out. -/
def outdented : List Doc → List Doc
  | [] => []
  | [.gap g] => [.gap (g.shifted (-indent))]
  | d :: rest => d :: outdented rest

/-- Items with commas between them, and a gap after the last one. -/
def separated (last : Gap) : List (List Doc) → List Doc
  | [] => []
  | [item] => item ++ [.gap last]
  | item :: rest => item ++ [.text ",", .gap .space] ++ separated last rest

/-- What stands between the ends of a group, after a gap and before one that returns to the outer indentation. Nothing
takes no gap. -/
def body (first : Gap) (content : List Doc) : List Doc :=
  if content.isEmpty then [] else outdented (.gap first :: content)

/-- Items between two marks, on one line or each on its own. -/
def listed (opening closing : String) (items : List (List Doc)) : List Doc :=
  [.text opening] ++ nested (outdented (.gap .zero :: separated .lastComma items)) ++ [.text closing]

end ContractBindings.Layout
