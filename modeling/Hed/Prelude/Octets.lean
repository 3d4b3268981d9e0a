import Mathlib.Data.Nat.Bitwise
import Mathlib.Tactic.Common

/-!
# Bits of octets

A string of octets, given as a function `o` of the position, has bits: in network order the
bit at the position `i` is counted from the most significant bit of the first octet on.  That
the bits of a part of the string are zero is here said of its octets, as divisibility by
powers of two.
-/

namespace Octets

/-- The bit of a string of octets at a position in network order. -/
def bit (o : ℕ → ℕ) (i : ℕ) : Bool := (o (i / 8)).testBit (7 - i % 8)

/-- The lowest bits of a number are zero exactly if a power of two divides it. -/
theorem two_pow_dvd_iff {m a : ℕ} :
  2 ^ m ∣ a ↔ ∀ j < m, a.testBit j = false
  := by
  rw [Nat.dvd_iff_mod_eq_zero]
  constructor
  · intro h j hj
    have hbit := Nat.testBit_mod_two_pow a m j
    rw [h, Nat.zero_testBit] at hbit
    simpa [hj] using hbit.symm
  · intro h
    apply Nat.zero_of_testBit_eq_false
    intro j
    rw [Nat.testBit_mod_two_pow]
    by_cases hj : j < m
    · simp [h j hj]
    · simp [hj]

/-- An octet whose eight bits are zero is zero. -/
theorem dvd_octet_iff {a : ℕ} (ha : a < 256) :
  2 ^ 8 ∣ a ↔ a = 0
  := by
  constructor
  · intro h
    apply Nat.eq_zero_of_dvd_of_lt h ha
  · rintro rfl
    apply Nat.dvd_zero

variable {o : ℕ → ℕ} {n p : ℕ}

/-- The bits of an octet, by their positions in the string. -/
theorem bit_octet {k j : ℕ} (hj : j < 8) :
  bit o (8 * k + (7 - j)) = (o k).testBit j
  := by
  have hdiv : (8 * k + (7 - j)) / 8 = k := by omega
  have hmod : 7 - (8 * k + (7 - j)) % 8 = j := by omega
  rw [bit, hdiv, hmod]

/-- The bits of the first `n` octets are zero from the position `p` on, exactly if in the
octet of this position the bits from there are zero, and the octets after it. -/
theorem bits_eq_false_iff (ho : ∀ k, o k < 256) (hp : p < 8 * n) :
  (∀ i < 8 * n, p ≤ i → bit o i = false)
    ↔ 2 ^ (8 - p % 8) ∣ o (p / 8) ∧ ∀ k, p / 8 < k → k < n → o k = 0
  := by
  constructor
  · intro h
    constructor
    · apply two_pow_dvd_iff.mpr
      intro j hj
      rw [← bit_octet (by omega)]
      apply h
      · omega
      · omega
    · intro k hk hkn
      apply (dvd_octet_iff (ho k)).mp
      apply two_pow_dvd_iff.mpr
      intro j hj
      rw [← bit_octet hj]
      apply h
      · omega
      · omega
  · rintro ⟨hoctet, hafter⟩ i hin hpi
    rw [bit]
    rcases (show p / 8 ≤ i / 8 by omega).eq_or_lt with heq | hlt
    · rw [← heq]
      apply two_pow_dvd_iff.mp hoctet
      omega
    · rw [hafter (i / 8) hlt (by omega)]
      apply Nat.zero_testBit

/-! ### The number of octets -/

/-- The number whose octets these are, the least significant one first. -/
theorem two_pow_dvd_add_iff {a b : ℕ} (ha : a < 256) :
  2 ^ p ∣ a + 256 * b
    ↔ if p < 8 then 2 ^ p ∣ a else a = 0 ∧ 2 ^ (p - 8) ∣ b
  := by
  split_ifs with hp
  · have hdvd : 2 ^ p ∣ 256 * b := Dvd.dvd.mul_right (pow_dvd_pow 2 (by omega : p ≤ 8)) b
    apply (Nat.dvd_add_iff_left hdvd).symm
  · have hpow : 2 ^ p = 256 * 2 ^ (p - 8) := by
      rw [show (256 : ℕ) = 2 ^ 8 from rfl, ← pow_add]
      congr 1
      omega
    rw [hpow]
    constructor
    · intro h
      have h256 : 256 ∣ a := by
        have h' : 256 ∣ a + 256 * b := dvd_trans (Dvd.intro _ rfl) h
        apply (Nat.dvd_add_iff_left (Dvd.intro _ rfl)).mpr h'
      obtain rfl : a = 0 := Nat.eq_zero_of_dvd_of_lt h256 ha
      use rfl
      rw [zero_add] at h
      apply Nat.dvd_of_mul_dvd_mul_left (by omega) h
    · rintro ⟨rfl, h⟩
      rw [zero_add]
      apply Nat.mul_dvd_mul_left 256 h

end Octets
