/-! Encodings with their decoders. -/
namespace FastapiTurbo.Lib

structure Codec (α β : Type) where
  encode : α → β
  decode : β → Option α
  decode_encode : ∀ value, decode (encode value) = some value

attribute [simp] Codec.decode_encode

namespace Codec

def decimal : Codec Nat (List Char) where
  encode := fun number => Nat.toDigits 10 number
  decode := fun chars =>
    if chars ≠ [] ∧ chars.all Char.isDigit then some (Nat.ofDigitChars 10 chars 0) else none
  decode_encode := fun number => by
    have hdigits : (Nat.toDigits 10 number).all Char.isDigit = true :=
      List.all_eq_true.2 fun _ => Nat.isDigit_of_mem_toDigits (by decide) (by decide)
    rw [if_pos ⟨Nat.toDigits_ne_nil, hdigits⟩, Nat.ofDigitChars_toDigits (by decide) (by decide)]

theorem not_mem_decimal {char : Char} (hc : char.isDigit = false) (number : Nat) :
    char ∉ decimal.encode number := fun hmem => by
  have hd := Nat.isDigit_of_mem_toDigits (by decide) (by decide) hmem
  rw [hc] at hd
  cases hd

end Codec

end FastapiTurbo.Lib
