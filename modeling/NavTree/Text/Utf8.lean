/-! # Reading bytes as text

Bytes are read as UTF-8. The lossy reading puts a replacement character for every maximal piece of a
character that is never finished, and for every byte that starts none.
-/
namespace NavTree.Utf8

def replacement : Char := Char.ofNat 0xFFFD

/-- A character whose first bytes were read: the bits so far, how many bytes are left, and the
range of the next one. -/
structure Unfinished where
  bits : Nat
  left : Nat
  low : Nat
  high : Nat

inductive Lead where
  | char (c : Char)
  | unfinished (u : Unfinished)
  | none

def lead (b : Nat) : Lead :=
  if b < 0x80 then .char (Char.ofNat b)
  else if 0xC2 ≤ b ∧ b ≤ 0xDF then .unfinished ⟨b % 0x20, 1, 0x80, 0xBF⟩
  else if b = 0xE0 then .unfinished ⟨0, 2, 0xA0, 0xBF⟩
  else if b = 0xED then .unfinished ⟨b % 0x10, 2, 0x80, 0x9F⟩
  else if 0xE1 ≤ b ∧ b ≤ 0xEF then .unfinished ⟨b % 0x10, 2, 0x80, 0xBF⟩
  else if b = 0xF0 then .unfinished ⟨0, 3, 0x90, 0xBF⟩
  else if 0xF1 ≤ b ∧ b ≤ 0xF3 then .unfinished ⟨b % 0x08, 3, 0x80, 0xBF⟩
  else if b = 0xF4 then .unfinished ⟨4, 3, 0x80, 0x8F⟩
  else .none

/-- The characters of the bytes behind an unfinished character, if there is one. -/
def lossyChars : Option Unfinished → List UInt8 → List Char
  | none, [] => []
  | some _, [] => [replacement]
  | pending, b :: rest =>
    let fresh := fun (_ : Unit) =>
      match lead b.toNat with
      | .char c => c :: lossyChars none rest
      | .unfinished u => lossyChars (some u) rest
      | .none => replacement :: lossyChars none rest
    match pending with
    | none => fresh ()
    | some u =>
      if u.low ≤ b.toNat ∧ b.toNat ≤ u.high then
        let bits := 0x40 * u.bits + b.toNat % 0x40
        if u.left = 1 then Char.ofNat bits :: lossyChars none rest
        else lossyChars (some ⟨bits, u.left - 1, 0x80, 0xBF⟩) rest
      else replacement :: fresh ()

def lossyText (bytes : ByteArray) : String :=
  match String.fromUTF8? bytes with
  | some s => s
  | none => String.ofList (lossyChars none bytes.toList)

end NavTree.Utf8
