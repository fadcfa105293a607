/-!
# Text from bytes

Any byte sequence is shown as text. Where the bytes are no UTF-8, every run of bytes that begins like a character and is
not finished like one is shown as one replacement character.
-/

namespace ContractBindings.Text

/-- The character in place of bytes that are none. -/
def replacement : Char := Char.ofNat 0xFFFD

/-- A character that is begun: its bits so far, how many bytes are missing, and the least and greatest value of the next
byte. -/
structure Begun where
  bits : Nat
  missing : Nat
  least : Nat
  greatest : Nat

/-- What a byte is at the start of a character. -/
inductive LeadByte where
  | character (c : Char)
  | begins (begun : Begun)
  | invalid

/-- What a byte is at the start of a character. The bounds of the second byte keep out overlong forms, surrogates and
values past the last code point. -/
def leadByte (b : UInt8) : LeadByte :=
  let n := b.toNat
  if n < 0x80 then .character (Char.ofNat n)
  else if n < 0xC2 then .invalid
  else if n < 0xE0 then .begins ⟨n - 0xC0, 1, 0x80, 0xBF⟩
  else if n < 0xF0 then .begins ⟨n - 0xE0, 2, if n == 0xE0 then 0xA0 else 0x80, if n == 0xED then 0x9F else 0xBF⟩
  else if n < 0xF5 then .begins ⟨n - 0xF0, 3, if n == 0xF0 then 0x90 else 0x80, if n == 0xF4 then 0x8F else 0xBF⟩
  else .invalid

/-- The characters of bytes after those of a character that may be begun. -/
def decodeFrom : Option Begun → List UInt8 → List Char
  | none, [] => []
  | some _, [] => [replacement]
  | begun, b :: rest =>
    let fresh (_ : Unit) : List Char :=
      match leadByte b with
      | .character c => c :: decodeFrom none rest
      | .begins begun => decodeFrom (some begun) rest
      | .invalid => replacement :: decodeFrom none rest
    match begun with
    | none => fresh ()
    | some begun =>
      if begun.least ≤ b.toNat && b.toNat ≤ begun.greatest then
        let bits := begun.bits * 64 + (b.toNat - 0x80)
        if begun.missing ≤ 1 then Char.ofNat bits :: decodeFrom none rest
        else decodeFrom (some ⟨bits, begun.missing - 1, 0x80, 0xBF⟩) rest
      else replacement :: fresh ()

/-- The text that bytes are shown as. -/
def ofBytes (bytes : ByteArray) : String :=
  match String.fromUTF8? bytes with
  | some text => text
  | none => String.ofList (decodeFrom none bytes.data.toList)

end ContractBindings.Text
