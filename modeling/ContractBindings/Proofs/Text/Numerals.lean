import ContractBindings.Number.Notation
import ContractBindings.Proofs.Naming.Capital

/-!
# Characters of written numbers

An integer and the decimal of a finite double are written with digits, a minus sign and a point (`Numeral`), so no letter
stands in them (`Numeral.not_mem`).
-/

namespace ContractBindings.Number

open Naming (isUpper_iff isLower_iff isDigit_iff)

/-- A digit, a minus sign or a point. -/
def NumeralChar (c : Char) : Prop := c.isDigit = true ∨ c = '-' ∨ c = '.'

/-- A text of digits, minus signs and points. -/
def Numeral (s : String) : Prop := ∀ c ∈ s.toList, NumeralChar c

instance (c : Char) : Decidable (NumeralChar c) := inferInstanceAs (Decidable (_ ∨ _))

instance (s : String) : Decidable (Numeral s) := List.decidableBAll NumeralChar s.toList

variable {s t : String}

theorem Numeral.append (hs : Numeral s) (ht : Numeral t) : Numeral (s ++ t) := by
  intro c hc
  rw [String.toList_append, List.mem_append] at hc
  exact hc.elim (hs c) (ht c)

theorem numeral_ofList {cs : List Char} (h : ∀ c ∈ cs, NumeralChar c) : Numeral (String.ofList cs) := by
  intro c hc
  rw [String.toList_ofList] at hc
  exact h c hc

theorem NumeralChar.isAlpha_eq_false {c : Char} (h : NumeralChar c) : c.isAlpha = false := by
  rcases h with hdigit | rfl | rfl
  · rw [isDigit_iff] at hdigit
    delta Char.isAlpha
    rw [Bool.or_eq_false_iff, ← Bool.not_eq_true, ← Bool.not_eq_true, isUpper_iff, isLower_iff]
    omega
  · decide
  · decide

/-- A letter stands in no such text. -/
theorem Numeral.not_mem (h : Numeral s) {c : Char} (hc : c.isAlpha = true) : c ∉ s.toList := by
  intro hmem
  rw [(h c hmem).isAlpha_eq_false] at hc
  cases hc

/-! ## Integers and decimals -/

theorem numeralChar_of_mem_digits {n : Nat} {c : Char} (h : c ∈ Nat.toDigits 10 n) : NumeralChar c :=
  .inl (Nat.isDigit_of_mem_toDigits (by decide) (by decide) h)

theorem numeral_digits (n : Nat) : Numeral (String.ofList (Nat.toDigits 10 n)) :=
  numeral_ofList fun _ => numeralChar_of_mem_digits

theorem numeral_toString (i : Int) : Numeral (toString i) := by
  cases i with
  | ofNat n => exact numeral_digits n
  | negSucc n => exact (show Numeral "-" by decide).append (numeral_digits (n + 1))

theorem numeral_zeros (n : Nat) : Numeral (zeros n) := by
  refine numeral_ofList fun c hc => ?_
  rw [List.eq_of_mem_replicate hc]
  decide

theorem numeral_signText (negative : Bool) : Numeral (signText negative) := by
  cases negative <;> decide

theorem numeral_positional (d : Decimal) : Numeral d.positional := by
  have hdigits := numeral_digits d.digits
  unfold Decimal.positional
  dsimp only
  split
  · exact hdigits.append (numeral_zeros _)
  · split
    · have hwhole (n : Nat) : Numeral (String.ofList ((Nat.toDigits 10 d.digits).take n)) :=
        numeral_ofList fun _ hc => numeralChar_of_mem_digits (List.mem_of_mem_take hc)
      have hrest (n : Nat) : Numeral (String.ofList ((Nat.toDigits 10 d.digits).drop n)) :=
        numeral_ofList fun _ hc => numeralChar_of_mem_digits (List.mem_of_mem_drop hc)
      exact ((hwhole _).append (show Numeral "." by decide)).append (hrest _)
    · exact ((show Numeral "0." by decide).append (numeral_zeros _)).append hdigits

/-- The plain form of a finite double has no letters. -/
theorem numeral_plain {x : Binary64} (h : x.isFinite = true) : Numeral x.plain := by
  cases x with
  | finite negative m e =>
    unfold Binary64.plain
    split
    · exact (numeral_signText _).append (show Numeral "0" by decide)
    · exact (numeral_signText _).append (numeral_positional _)
    all_goals contradiction
  | infinite negative => cases h
  | notANumber => cases h

end ContractBindings.Number
