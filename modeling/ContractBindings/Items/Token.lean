/-!
# Tokens of Rust

What the text of names and files is made of: words, marks and literals, and trees of them between brackets. Comments are
no tokens, but documentation comments stand for attributes.
-/

namespace ContractBindings.Items

/-- The brackets that come in pairs. -/
inductive Bracket where
  | round
  | square
  | curly
  deriving Repr, DecidableEq, Inhabited

/-- The bracket that a character opens. -/
def Bracket.opened? : Char → Option Bracket
  | '(' => some .round
  | '[' => some .square
  | '{' => some .curly
  | _ => none

/-- The bracket that a character closes. -/
def Bracket.closed? : Char → Option Bracket
  | ')' => some .round
  | ']' => some .square
  | '}' => some .curly
  | _ => none

/-- The opening text of a bracket. -/
def Bracket.opening : Bracket → String
  | .round => "("
  | .square => "["
  | .curly => "\x7b"

/-- The closing text of a bracket. -/
def Bracket.closing : Bracket → String
  | .round => ")"
  | .square => "]"
  | .curly => "\x7d"

/-- A token as it is read. -/
inductive Token where
  /-- A word, also a keyword, an underscore, or a word after `r#`, which is no keyword. -/
  | word (text : String)
  /-- The name of a lifetime, without its quote. -/
  | lifetime (name : String)
  | literal (text : String)
  /-- A mark of one character; a joint one has another mark right behind it. -/
  | mark (c : Char) (joint : Bool)
  | opening (bracket : Bracket)
  | closing (bracket : Bracket)
  deriving Repr, DecidableEq, Inhabited

/-- A token, or tokens in brackets. -/
inductive Tree where
  | word (text : String)
  | lifetime (name : String)
  | literal (text : String)
  | mark (c : Char) (joint : Bool)
  | group (bracket : Bracket) (content : List Tree)
  deriving Repr, Inhabited

namespace Tree

/-- Puts tokens into trees. `outer` holds what stands before the brackets that are open, and `before` what was read
since the last of them, both backwards. -/
def ofTokens? (outer : List (Bracket × List Tree)) (before : List Tree) : List Token → Option (List Tree)
  | [] => if outer.isEmpty then some before.reverse else none
  | .opening b :: rest => ofTokens? ((b, before) :: outer) [] rest
  | .closing b :: rest =>
    match outer with
    | (opened, around) :: outer =>
      if opened == b then ofTokens? outer (.group b before.reverse :: around) rest else none
    | [] => none
  | .word text :: rest => ofTokens? outer (.word text :: before) rest
  | .lifetime name :: rest => ofTokens? outer (.lifetime name :: before) rest
  | .literal text :: rest => ofTokens? outer (.literal text :: before) rest
  | .mark c joint :: rest => ofTokens? outer (.mark c joint :: before) rest

mutual

/-- The number of tokens in a tree, brackets counted once. -/
def size : Tree → Nat
  | .group _ content => 1 + sizeOfAll content
  | _ => 1

/-- The number of tokens in trees. -/
def sizeOfAll : List Tree → Nat
  | [] => 0
  | tree :: rest => tree.size + sizeOfAll rest

end

end Tree

end ContractBindings.Items
