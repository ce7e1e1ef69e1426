import Specimen.Digest.Sha256

/-! The characters of written numbers and of digests. -/
namespace Specimen.Text

/-- A decimal digit of the first block. -/
def IsDecimal (c : CodePoint) : Prop := 0x30 ≤ c ∧ c ≤ 0x39

instance (c : CodePoint) : Decidable (IsDecimal c) := inferInstanceAs (Decidable (_ ∧ _))

/-- A small letter that stands for a hexadecimal digit. -/
def IsHexLetter (c : CodePoint) : Prop := 0x61 ≤ c ∧ c ≤ 0x66

instance (c : CodePoint) : Decidable (IsHexLetter c) := inferInstanceAs (Decidable (_ ∧ _))

theorem ofNat_ne_nil (n : Nat) : ofNat n ≠ [] := by
  simp [ofNat, Nat.toDigits_ne_nil]

theorem isDecimal_of_mem_ofNat {n : Nat} {c : CodePoint} (h : c ∈ ofNat n) : IsDecimal c := by
  obtain ⟨digit, hd, rfl⟩ := List.mem_map.mp h
  have := Nat.isDigit_of_mem_toDigits (by decide) (by decide) hd
  simpa [Char.isDigit, UInt32.le_iff_toNat_le, IsDecimal] using this

theorem ofNat_injective {m n : Nat} (h : ofNat m = ofNat n) : m = n := by
  have hdigits : Nat.toDigits 10 m = Nat.toDigits 10 n :=
    (List.map_inj_right fun _ _ hc => Char.toNat_inj.mp hc).mp h
  have := congrArg (fun digits => Nat.ofDigitChars 10 digits 0) hdigits
  simpa [Nat.ofDigitChars_toDigits] using this

end Specimen.Text

namespace Specimen.Sha256
open Text (IsDecimal IsHexLetter)

private theorem isHex_digitChar {d : Nat} (h : d < 16) :
    IsDecimal d.digitChar.toNat ∨ IsHexLetter d.digitChar.toNat := by
  revert d
  decide

private theorem isHex_of_mem_toDigits (n : Nat) :
    ∀ c ∈ Nat.toDigits 16 n, IsDecimal c.toNat ∨ IsHexLetter c.toNat := by
  induction n using Nat.strongRecOn with
  | ind n ih =>
    intro c hc
    rw [Nat.toDigits_eq_if (by decide)] at hc
    split at hc
    · rename_i hlt
      rw [List.mem_singleton.mp hc]
      exact isHex_digitChar hlt
    · rcases List.mem_append.mp hc with hc | hc
      · exact ih (n / 16) (by omega) c hc
      · rw [List.mem_singleton.mp hc]
        exact isHex_digitChar (Nat.mod_lt _ (by decide))

/-- Digests are written in decimal digits and the small letters from a to f. -/
theorem isHex_of_mem_digest {bytes : List Nat} {c : CodePoint} (h : c ∈ digest bytes) :
    IsDecimal c ∨ IsHexLetter c := by
  obtain ⟨word, _, hc⟩ := List.mem_flatMap.mp h
  rcases List.mem_append.mp hc with hc | hc
  · rw [List.eq_of_mem_replicate hc]
    exact .inl (by decide)
  · obtain ⟨digit, hd, rfl⟩ := List.mem_map.mp hc
    exact isHex_of_mem_toDigits _ digit hd

end Specimen.Sha256
