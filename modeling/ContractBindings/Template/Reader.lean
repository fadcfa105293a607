import ContractBindings.Template.Expression
import ContractBindings.Text.Blank

/-!
# Reading templates

A template text is first cut into segments: text, values and tags. A hyphen inside the border of a tag cuts the blanks
of the text on that side. Comments leave nothing, and the text of a raw section is text. Then the segments between `if`
and `endif` are put under their conditions.
-/

namespace ContractBindings.Template

/-- A segment of a template text. -/
inductive Segment where
  | text (text : String)
  | value (e : Expr)
  | assign (name : String) (e : Expr)
  /-- The tags of a choice: its first condition, each further condition, what stands for all others, and its end. -/
  | first (e : Expr)
  | further (e : Expr)
  | otherwise
  | last
  deriving Repr

/-- The kinds of marks that end literal text. -/
inductive Mark where
  | value
  | tag
  | comment
  deriving Repr, DecidableEq

/-- The mark that two characters are. -/
def mark? : Char → Char → Option Mark
  | '{', '{' => some .value
  | '{', '%' => some .tag
  | '{', '#' => some .comment
  | _, _ => none

/-- The literal text in front of the first mark, and the characters after the mark. -/
def literal : List Char → List Char × Option (Mark × List Char)
  | c :: d :: rest =>
    match mark? c d with
    | some mark => ([], some (mark, rest))
    | none =>
      let (text, found) := literal (d :: rest)
      (c :: text, found)
  | cs => (cs, none)

/-- Takes off the hyphen in front of the inside of a tag. -/
def hyphen : List Char → Bool × List Char
  | '-' :: rest => (true, rest)
  | cs => (false, cs)

/-- A text segment with the blanks cut where that is asked for; nothing if nothing is left. -/
def textSegment (cutStart cutEnd : Bool) (text : List Char) : List Segment :=
  let text := if cutStart then text.dropWhile Text.isBlank else text
  let text := if cutEnd then Text.dropBlankEnd text else text
  if text.isEmpty then [] else [.text (String.ofList text)]

/-- The end of a tag, which is `close` and a brace, possibly after a hyphen and after blanks. -/
def tagEnd? (close : Char) (cs : List Char) : Option (Bool × List Char) :=
  match skipGap cs with
  | '-' :: c :: '}' :: rest => if c == close then some (true, rest) else none
  | c :: '}' :: rest => if c == close then some (false, rest) else none
  | _ => none

/-- The end of a comment. -/
def commentEnd? : List Char → Option (Bool × List Char)
  | '-' :: '#' :: '}' :: rest => some (true, rest)
  | '#' :: '}' :: rest => some (false, rest)
  | _ => none

/-- What follows a comment, with its hyphen. -/
def afterComment : List Char → Option (Bool × List Char)
  | [] => none
  | c :: rest =>
    match commentEnd? (c :: rest) with
    | some found => some found
    | none => afterComment rest

/-- What follows the inside of a comment, which is not empty. -/
def afterFullComment (cs : List Char) : Option (Bool × List Char) :=
  if (commentEnd? cs).isSome then none else afterComment cs

/-- A tag that is a word alone. -/
def wordTag? (word : List Char) (cs : List Char) : Option (Bool × List Char) :=
  (afterWord word (skipGap cs)).bind (tagEnd? '%')

/-- The expression of a tag up to its end. -/
def expressionTag? (close : Char) (cs : List Char) : Option ((Expr × Bool) × List Char) := do
  let (e, rest) ← Expr.at? (skipGap cs)
  let (cut, rest) ← tagEnd? close rest
  return ((e, cut), rest)

/-- A tag other than that of a raw section, with its hyphen and what follows. -/
def tag? (cs : List Char) : Option ((Segment × Bool) × List Char) :=
  let cs := skipGap cs
  let word (text : String) (segment : Segment) : Option ((Segment × Bool) × List Char) :=
    (wordTag? text.toList cs).map fun (cut, rest) => ((segment, cut), rest)
  let expression (text : String) (segment : Expr → Segment) : Option ((Segment × Bool) × List Char) :=
    ((afterWordAndGap text.toList cs).bind (expressionTag? '%')).map fun ((e, cut), rest) => ((segment e, cut), rest)
  let assignment : Option ((Segment × Bool) × List Char) := do
    let (name, rest) ← name? (skipGap (← afterWordAndGap "set".toList cs))
    let ((e, cut), rest) ← expressionTag? '%' (← afterMark '=' rest)
    return ((.assign (String.ofList name) e, cut), rest)
  assignment.orElse fun _ => (expression "if" .first).orElse fun _ => (expression "elif" .further).orElse fun _ =>
    (word "else" .otherwise).orElse fun _ => word "endif" .last

/-- The border that ends a raw section, from its first brace: with the hyphens and what follows. -/
def rawEnd? : List Char → Option ((Bool × Bool) × List Char)
  | '{' :: '%' :: rest =>
    let (before, rest) := hyphen rest
    (wordTag? "endraw".toList rest).map fun (after, rest) => ((before, after), rest)
  | _ => none

/-- The text of a raw section, with the hyphens of the border after it and what follows. -/
def rawSection : List Char → Option ((List Char × Bool × Bool) × List Char)
  | [] => none
  | c :: cs =>
    match rawEnd? (c :: cs) with
    | some (hyphens, rest) => some (([], hyphens), rest)
    | none => (rawSection cs).map fun ((text, hyphens), rest) => ((c :: text, hyphens), rest)

/-- The segments of a template text; `cut` says that blanks are cut at its start. -/
def segmentsFrom : Nat → Bool → List Char → Option (List Segment)
  | 0, _, _ => none
  | fuel + 1, cut, cs =>
    match literal cs with
    | (text, none) => some (textSegment cut false text)
    | (text, some (mark, rest)) => do
      let (cutBefore, rest) := hyphen rest
      let before := textSegment cut cutBefore text
      match mark with
      | .comment =>
        let (cutAfter, rest) ← afterFullComment rest
        return before ++ (← segmentsFrom fuel cutAfter rest)
      | .value =>
        let ((e, cutAfter), rest) ← expressionTag? '}' rest
        return before ++ .value e :: (← segmentsFrom fuel cutAfter rest)
      | .tag =>
        match wordTag? "raw".toList rest with
        | some (cutStart, rest) =>
          let ((text, cutEnd, cutAfter), rest) ← rawSection rest
          return before ++ textSegment cutStart cutEnd text ++ (← segmentsFrom fuel cutAfter rest)
        | none =>
          let ((segment, cutAfter), rest) ← tag? rest
          return before ++ segment :: (← segmentsFrom fuel cutAfter rest)

/-- The text without the comments in front of all else, whose hyphens cut nothing. -/
def dropFirstComments : Nat → List Char → List Char
  | 0, cs => cs
  | fuel + 1, cs =>
    match cs with
    | '{' :: '#' :: rest =>
      match afterFullComment (hyphen rest).2 with
      | some (_, rest) => dropFirstComments fuel rest
      | none => cs
    | _ => cs

/-- The segments of a template text. -/
def segments (cs : List Char) : Option (List Segment) :=
  segmentsFrom (cs.length + 1) false (dropFirstComments cs.length cs)

mutual

/-- Pieces up to a tag that belongs to the choice around them, or to the end. -/
def pieces : Nat → List Segment → Option (List Piece × List Segment)
  | 0, _ => none
  | fuel + 1, segments =>
    match segments with
    | .text text :: rest => do
      let (more, rest) ← pieces fuel rest
      return (.text text :: more, rest)
    | .value e :: rest => do
      let (more, rest) ← pieces fuel rest
      return (.value e :: more, rest)
    | .assign name e :: rest => do
      let (more, rest) ← pieces fuel rest
      return (.assign name e :: more, rest)
    | .first e :: rest => do
      let (cases, otherwise, rest) ← cases fuel e rest
      let (more, rest) ← pieces fuel rest
      return (.choice cases otherwise :: more, rest)
    | _ => some ([], segments)
  termination_by structural fuel => fuel

/-- The cases of a choice from the one with the given condition on, and the pieces where none holds. -/
def cases : Nat → Expr → List Segment → Option (List (Expr × List Piece) × List Piece × List Segment)
  | 0, _, _ => none
  | fuel + 1, e, segments => do
    let (body, rest) ← pieces fuel segments
    match rest with
    | .last :: rest => return ([(e, body)], [], rest)
    | .otherwise :: rest => do
      let (otherwise, rest) ← pieces fuel rest
      match rest with
      | .last :: rest => return ([(e, body)], otherwise, rest)
      | _ => none
    | .further e' :: rest => do
      let (more, otherwise, rest) ← cases fuel e' rest
      return ((e, body) :: more, otherwise, rest)
    | _ => none
  termination_by structural fuel => fuel

end

/-- The template that a text is. -/
def read? (text : String) : Option (List Piece) := do
  let segments ← segments text.toList
  match ← pieces (2 * segments.length + 2) segments with
  | (pieces, []) => return pieces
  | _ => none

end ContractBindings.Template
