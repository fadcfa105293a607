/-!
# Words of a name

A name from a contract is any text. Its *words* are the runs of ASCII letters and digits in it, cut once more before a
capital that follows a small letter or a digit; every other character separates. The snake form writes the words in
small letters with one underscore between two of them, the Pascal form writes the runs with a capital first.

The snake form decides whether two names clash, so its normal form matters: it is empty or a sequence of non-empty words
joined by single underscores.
-/

namespace ContractBindings.Naming

/-- A new word begins between two adjacent letters or digits: at a capital after something that is no capital. -/
def startsWord (before c : Char) : Bool := !before.isUpper && c.isUpper

/-- Puts a character in front of the first word. -/
def consWord (c : Char) : List (List Char) → List (List Char)
  | [] => [[c]]
  | word :: words => (c :: word) :: words

/-- The words of a character sequence, in small letters. -/
def words : List Char → List (List Char)
  | [] => []
  | c :: cs =>
    if c.isAlphanum then
      match cs with
      | d :: _ =>
        if d.isAlphanum && !startsWord c d then consWord c.toLower (words cs) else [c.toLower] :: words cs
      | [] => [[c.toLower]]
    else words cs

/-- Words with one underscore between two of them. -/
def joinWords : List (List Char) → List Char
  | [] => []
  | [word] => word
  | word :: rest => word ++ '_' :: joinWords rest

/-- The snake form: `PetOwner` is `pet_owner`, `hello-world` is `hello_world`. -/
def snakeCase (s : String) : String := String.ofList (joinWords (words s.toList))

/-- The letters and digits of a character sequence, with a capital at the start of each run. -/
def pascalChars (atStart : Bool) : List Char → List Char
  | [] => []
  | c :: cs =>
    if c.isAlphanum then (if atStart then c.toUpper else c) :: pascalChars false cs else pascalChars true cs

/-- The Pascal form: `pet owner` is `PetOwner`. The rest of each run is kept, so `petId` is `PetId`. -/
def pascalCase (s : String) : String := String.ofList (pascalChars true s.toList)

/-- The Pascal form, with `lead` in front where it would not begin with a letter. -/
def pascalCaseOr (s lead : String) : String :=
  match (pascalCase s).toList with
  | c :: _ => if c.isAlpha then pascalCase s else lead ++ pascalCase s
  | [] => lead

/-- The snake form in capitals: `InvalidCharacters` is `INVALID_CHARACTERS`. -/
def screamingSnakeCase (s : String) : String := String.ofList ((snakeCase s).toList.map Char.toUpper)

end ContractBindings.Naming
