import ContractBindings.Naming.Words

/-!
# Registry of names

Names are handed out in the order they are claimed. Two names clash when their snake forms agree, since those become
file names; of a clashing name the first free one of `name_2`, `name_3`, … is handed out.
-/

namespace ContractBindings.Naming

/-- The snake forms of the names handed out so far, the latest first. -/
structure Registry where
  taken : List String
  deriving Repr, DecidableEq, Inhabited

namespace Registry

/-- No name is taken. -/
def empty : Registry := ⟨[]⟩

/-- The given names are taken before any is claimed. -/
def reserving (names : List String) : Registry := ⟨names.map snakeCase⟩

/-- A name can be handed out as it stands: no name with its snake form is taken. -/
def isFree (r : Registry) (name : String) : Bool := !r.taken.contains (snakeCase name)

/-- The name with a number after it. -/
def numbered (base : String) (k : Nat) : String := base ++ "_" ++ toString k

/-- The least number from two on that makes the name free. Numbered names differ in their snake forms, so among one more
of them than there are taken names one is free. -/
def freeNumber (r : Registry) (base : String) : Nat :=
  ((List.range' 2 (r.taken.length + 1)).find? fun k => r.isFree (numbered base k)).getD (r.taken.length + 2)

/-- The name that a claim is given. -/
def nameFor (r : Registry) (base : String) : String :=
  if r.isFree base then base else numbered base (r.freeNumber base)

/-- The name that a claim is given, and the registry in which it is taken. -/
def claim (r : Registry) (base : String) : String × Registry :=
  (r.nameFor base, ⟨snakeCase (r.nameFor base) :: r.taken⟩)

/-- The names that a sequence of claims is given, and the registry after them. -/
def claimAll (r : Registry) : List String → List String × Registry
  | [] => ([], r)
  | base :: bases =>
    let (name, r) := r.claim base
    let (names, r) := r.claimAll bases
    (name :: names, r)

end Registry

end ContractBindings.Naming
