import Correlator.Text.Utf8

/-!
# The bytes of a character

A character is written in one to four bytes. The first one tells how many there are, and each
other one adds six bits. Not all of them may follow any first byte, since a character is written in
as few bytes as can be and surrogates are no characters.

* `Utf8.IsTail`, `Utf8.tailBits`: a byte that is not the first one, and its bits.
* `Utf8.Stands`: the bytes that stand for the number of a character.
* **`Utf8.encode_eq_iff`**: they are the bytes of the character.
* `Utf8.Stands.of_singleton`: a byte that is a character by itself begins no other one.
-/

namespace Correlator.Utf8

/-- A byte that is not the first one of a character. -/
def IsTail (b : UInt8) : Prop := 0x80 ≤ b.toNat ∧ b.toNat ≤ 0xBF

instance (b : UInt8) : Decidable (IsTail b) := inferInstanceAs (Decidable (_ ∧ _))

/-- The bits that such a byte adds. -/
def tailBits (b : UInt8) : Nat := b.toNat - 0x80

/-- The bytes that stand for the number of a character. -/
inductive Stands (n : Nat) : Octets → Prop
  | one {b : UInt8} (hb : b.toNat < 0x80) (hn : n = b.toNat) : Stands n [b]
  | two {b b₁ : UInt8} (hb : 0xC2 ≤ b.toNat ∧ b.toNat < 0xE0) (hb₁ : IsTail b₁)
    (hn : n = 64 * (b.toNat - 0xC0) + tailBits b₁) : Stands n [b, b₁]
  | three {b b₁ b₂ : UInt8} (hb : 0xE0 ≤ b.toNat ∧ b.toNat < 0xF0) (hb₁ : IsTail b₁)
    (hb₂ : IsTail b₂) (hlow : b.toNat = 0xE0 → 0xA0 ≤ b₁.toNat)
    (hhigh : b.toNat = 0xED → b₁.toNat ≤ 0x9F)
    (hn : n = 64 * (64 * (b.toNat - 0xE0) + tailBits b₁) + tailBits b₂) :
    Stands n [b, b₁, b₂]
  | four {b b₁ b₂ b₃ : UInt8} (hb : 0xF0 ≤ b.toNat ∧ b.toNat ≤ 0xF4) (hb₁ : IsTail b₁)
    (hb₂ : IsTail b₂) (hb₃ : IsTail b₃) (hlow : b.toNat = 0xF0 → 0x90 ≤ b₁.toNat)
    (hhigh : b.toNat = 0xF4 → b₁.toNat ≤ 0x8F)
    (hn : n = 64 * (64 * (64 * (b.toNat - 0xF0) + tailBits b₁) + tailBits b₂) +
      tailBits b₃) : Stands n [b, b₁, b₂, b₃]

theorem Stands.isValidChar {n : Nat} {bs : Octets} (h : Stands n bs) : n.isValidChar := by
  unfold Nat.isValidChar
  cases h with
  | one hb hn => omega
  | two hb hb₁ hn =>
    unfold IsTail at hb₁
    unfold tailBits at hn
    omega
  | three hb hb₁ hb₂ hlow hhigh hn =>
    unfold IsTail at hb₁ hb₂
    unfold tailBits at hn
    omega
  | four hb hb₁ hb₂ hb₃ hlow hhigh hn =>
    unfold IsTail at hb₁ hb₂ hb₃
    unfold tailBits at hn
    omega

/-- The bytes that stand for the number of a character are those of the character. -/
theorem Stands.encode_eq {c : Char} {bs : Octets} (h : Stands c.toNat bs) :
    String.utf8EncodeChar c = bs := by
  simp only [String.utf8EncodeChar, Char.toNat_val]
  generalize c.toNat = n at h
  cases h with
  | one hb hn =>
    rw [if_pos (by omega), hn, UInt8.ofNat_toNat]
  | two hb hb₁ hn =>
    unfold IsTail at hb₁
    unfold tailBits at hn
    rw [if_neg (by omega), if_pos (by omega)]
    simp only [List.cons.injEq, and_true, ← UInt8.toNat_inj, UInt8.toNat_ofNat']
    omega
  | three hb hb₁ hb₂ hlow hhigh hn =>
    unfold IsTail at hb₁ hb₂
    unfold tailBits at hn
    rw [if_neg (by omega), if_neg (by omega), if_pos (by omega)]
    simp only [List.cons.injEq, and_true, ← UInt8.toNat_inj, UInt8.toNat_ofNat']
    omega
  | four hb hb₁ hb₂ hb₃ hlow hhigh hn =>
    unfold IsTail at hb₁ hb₂ hb₃
    unfold tailBits at hn
    rw [if_neg (by omega), if_neg (by omega), if_neg (by omega)]
    simp only [List.cons.injEq, and_true, ← UInt8.toNat_inj, UInt8.toNat_ofNat']
    omega

theorem isTail_ofNat (n : Nat) : IsTail (UInt8.ofNat (n % 64 + 128)) := by
  unfold IsTail
  rw [UInt8.toNat_ofNat']
  omega

theorem tailBits_ofNat (n : Nat) : tailBits (UInt8.ofNat (n % 64 + 128)) = n % 64 := by
  unfold tailBits
  rw [UInt8.toNat_ofNat']
  omega

/-- The bytes of a character stand for its number. -/
theorem stands_encode (c : Char) : Stands c.toNat (String.utf8EncodeChar c) := by
  have hvalid : c.toNat.isValidChar := c.valid
  unfold Nat.isValidChar at hvalid
  simp only [String.utf8EncodeChar, Char.toNat_val]
  generalize c.toNat = n at hvalid
  by_cases h₁ : n ≤ 0x7F
  · rw [if_pos h₁]
    refine .one ?_ ?_ <;> rw [UInt8.toNat_ofNat'] <;> omega
  rw [if_neg h₁]
  by_cases h₂ : n ≤ 0x7FF
  · rw [if_pos h₂]
    refine .two ?_ (isTail_ofNat n) ?_ <;>
      simp only [tailBits_ofNat, UInt8.toNat_ofNat'] <;> omega
  rw [if_neg h₂]
  by_cases h₃ : n ≤ 0xFFFF
  · rw [if_pos h₃]
    refine .three ?_ (isTail_ofNat _) (isTail_ofNat n) ?_ ?_ ?_ <;>
      simp only [tailBits_ofNat, UInt8.toNat_ofNat'] <;> omega
  · rw [if_neg h₃]
    refine .four ?_ (isTail_ofNat _) (isTail_ofNat _) (isTail_ofNat n) ?_ ?_ ?_ <;>
      simp only [tailBits_ofNat, UInt8.toNat_ofNat'] <;> omega

/-- A byte that is a character by itself begins no other one. -/
theorem Stands.of_singleton {n m : Nat} {b : UInt8} {rest : Octets} (h : Stands n [b])
    (h' : Stands m (b :: rest)) : m = n ∧ rest = [] := by
  cases h with
  | one hb hn =>
    cases h' with
    | one hb' hm => exact ⟨hm.trans hn.symm, rfl⟩
    | two hb' => omega
    | three hb' => omega
    | four hb' => omega

theorem toNat_ofNat {n : Nat} (h : n.isValidChar) : (Char.ofNat n).toNat = n := by
  rw [Char.ofNat, dif_pos h]
  rfl

/-- A byte string is that of a character just when it stands for its number. -/
theorem encode_eq_iff (c : Char) (bs : Octets) :
    String.utf8EncodeChar c = bs ↔ ∃ n, Stands n bs ∧ c = Char.ofNat n := by
  constructor
  · rintro rfl
    exact ⟨c.toNat, stands_encode c, (Char.ofNat_toNat c).symm⟩
  · rintro ⟨n, hn, rfl⟩
    apply Stands.encode_eq
    rwa [toNat_ofNat hn.isValidChar]

end Correlator.Utf8
