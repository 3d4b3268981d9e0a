import Mathlib.Algebra.Order.Ring.Nat
import Mathlib.Data.Fin.Basic
import Mathlib.Tactic.Common
import Mathlib.Tactic.Ring

/-!
# MessagePack

The forms that MessagePack has for the unsigned integers, for the headers of arrays and for
binaries, how long they are, and that reading what was written gives the value back, with the
octets that follow it.
-/

namespace MsgPack

/-- A string of octets. -/
abbrev Octets := List (Fin 256)

/-! ### Octets of a number -/

/-- The lowest octets of a number, the most significant one first. -/
def bigEndian : ℕ → ℕ → Octets
  | 0, _ => []
  | k + 1, n => ⟨n / 256 ^ k % 256, Nat.mod_lt _ (by decide)⟩ :: bigEndian k n

/-- The number of some octets, that come after those of another number. -/
def ofBigEndian : ℕ → Octets → ℕ
  | n, [] => n
  | n, o :: rest => ofBigEndian (256 * n + o.val) rest

@[simp]
theorem length_bigEndian (k n : ℕ) :
  (bigEndian k n).length = k
  := by
  induction k with
  | zero => rfl
  | succ k ih => rw [bigEndian, List.length_cons, ih]

/-- Reading the octets of a number appends them to the octets before. -/
theorem ofBigEndian_bigEndian (m k n : ℕ) :
  ofBigEndian m (bigEndian k n) = 256 ^ k * m + n % 256 ^ k
  := by
  induction k generalizing m with
  | zero => rw [bigEndian, ofBigEndian, pow_zero, Nat.mod_one, one_mul, add_zero]
  | succ k ih =>
      rw [bigEndian, ofBigEndian, ih, pow_succ, Nat.mod_mul]
      ring

/-- Read a number of some octets. -/
def readOctets (k : ℕ) (b : Octets) : Option (ℕ × Octets) :=
  if k ≤ b.length then some (ofBigEndian 0 (b.take k), b.drop k) else none

theorem readOctets_bigEndian {k n : ℕ} (h : n < 256 ^ k) (rest : Octets) :
  readOctets k (bigEndian k n ++ rest) = some (n, rest)
  := by
  have hlength : k ≤ (bigEndian k n ++ rest).length := by simp
  have htake : (bigEndian k n ++ rest).take k = bigEndian k n := by
    rw [List.take_left' (length_bigEndian k n)]
  have hdrop : (bigEndian k n ++ rest).drop k = rest := by
    rw [List.drop_left' (length_bigEndian k n)]
  rw [readOctets, if_pos hlength, htake, hdrop, ofBigEndian_bigEndian, mul_zero, zero_add,
    Nat.mod_eq_of_lt h]

/-! ### Unsigned integers -/

/-- The shortest form of an unsigned integer. -/
def uint (n : ℕ) : Octets :=
  if n < 128 then bigEndian 1 n
  else if n < 256 then 0xcc :: bigEndian 1 n
  else if n < 256 ^ 2 then 0xcd :: bigEndian 2 n
  else if n < 256 ^ 4 then 0xce :: bigEndian 4 n
  else 0xcf :: bigEndian 8 n

/-- Read an unsigned integer. -/
def readUint : Octets → Option (ℕ × Octets)
  | [] => none
  | o :: rest =>
      if o.val < 128 then some (o.val, rest)
      else if o = 0xcc then readOctets 1 rest
      else if o = 0xcd then readOctets 2 rest
      else if o = 0xce then readOctets 4 rest
      else if o = 0xcf then readOctets 8 rest
      else none

theorem readUint_uint {n : ℕ} (h : n < 256 ^ 8) (rest : Octets) :
  readUint (uint n ++ rest) = some (n, rest)
  := by
  rw [uint]
  split_ifs with h7 h8 h16 h32
  · have hoctet : n / 256 ^ 0 % 256 = n := by omega
    rw [bigEndian, List.cons_append, readUint]
    simp only [hoctet, h7, if_true]
    rfl
  · exact readOctets_bigEndian (k := 1) h8 rest
  · exact readOctets_bigEndian h16 rest
  · exact readOctets_bigEndian h32 rest
  · exact readOctets_bigEndian h rest

/-- How many octets the form of an unsigned integer takes. -/
theorem length_uint (n : ℕ) :
  (uint n).length
    = if n < 128 then 1 else if n < 256 then 2 else if n < 256 ^ 2 then 3
      else if n < 256 ^ 4 then 5 else 9
  := by
  rw [uint]
  split_ifs with h7 h8 h16 h32
  · apply length_bigEndian
  · rw [List.length_cons, length_bigEndian]
  · rw [List.length_cons, length_bigEndian]
  · rw [List.length_cons, length_bigEndian]
  · rw [List.length_cons, length_bigEndian]

/-! ### Signed integers -/

/-- The shortest form of an integer of 32 bits. -/
def int (n : ℤ) : Octets :=
  if 0 ≤ n then uint n.toNat
  else if -32 ≤ n then bigEndian 1 (256 + n).toNat
  else if -128 ≤ n then 0xd0 :: bigEndian 1 (256 + n).toNat
  else if -32768 ≤ n then 0xd1 :: bigEndian 2 (256 ^ 2 + n).toNat
  else 0xd2 :: bigEndian 4 (256 ^ 4 + n).toNat

/-- The integer that some octets are in two's complement. -/
def signed (k n : ℕ) : ℤ := if 2 * n < 256 ^ k then n else n - 256 ^ k

/-- Read a signed integer of some octets. -/
def readSigned (k : ℕ) (b : Octets) : Option (ℤ × Octets) :=
  (readOctets k b).map (fun r => (signed k r.1, r.2))

/-- Read an integer. -/
def readInt : Octets → Option (ℤ × Octets)
  | [] => none
  | o :: rest =>
      if 0xe0 ≤ o.val then some (signed 1 o.val, rest)
      else if o = 0xd0 then readSigned 1 rest
      else if o = 0xd1 then readSigned 2 rest
      else if o = 0xd2 then readSigned 4 rest
      else (readUint (o :: rest)).map (fun r => (r.1, r.2))

theorem readSigned_bigEndian {k : ℕ} {n : ℤ} (hlow : -256 ^ k ≤ 2 * n) (hneg : n < 0)
    (rest : Octets) :
  readSigned k (bigEndian k (256 ^ k + n).toNat ++ rest) = some (n, rest)
  := by
  have hpow : ((256 ^ k : ℕ) : ℤ) = 256 ^ k := by simp
  have hlt : (256 ^ k + n).toNat < 256 ^ k := by omega
  have hsigned : signed k (256 ^ k + n).toNat = n := by
    rw [signed, if_neg (by omega)]
    omega
  rw [readSigned, readOctets_bigEndian hlt, Option.map_some, hsigned]

/-- What begins an unsigned integer does not begin a negative one. -/
theorem readInt_of_readUint {b rest : Octets} {n : ℕ} (h : readUint b = some (n, rest)) :
  readInt b = some ((n : ℤ), rest)
  := by
  cases b with
  | nil => cases h
  | cons o b =>
      have hhead : o.val < 128 ∨ o = 0xcc ∨ o = 0xcd ∨ o = 0xce ∨ o = 0xcf := by
        by_contra hnone
        push Not at hnone
        obtain ⟨hlt, hcc, hcd, hce, hcf⟩ := hnone
        rw [readUint, if_neg (not_lt.mpr hlt), if_neg hcc, if_neg hcd, if_neg hce, if_neg hcf] at h
        cases h
      have hmap : (readUint (o :: b)).map (fun r => ((r.1 : ℤ), r.2)) = some ((n : ℤ), rest) := by
        rw [h]
        rfl
      rw [readInt, hmap]
      rcases hhead with hlt | rfl | rfl | rfl | rfl
      · have hd0 : o ≠ 0xd0 ∧ o ≠ 0xd1 ∧ o ≠ 0xd2 := by
          refine ⟨?_, ?_, ?_⟩
          all_goals
            rintro rfl
            revert hlt
            decide
        rw [if_neg (by omega), if_neg hd0.1, if_neg hd0.2.1, if_neg hd0.2.2]
      · rfl
      · rfl
      · rfl
      · rfl

theorem readInt_int {n : ℤ} (hlow : -2 ^ 31 ≤ n) (hhigh : n < 2 ^ 64) (rest : Octets) :
  readInt (int n ++ rest) = some (n, rest)
  := by
  rw [int]
  split_ifs with hnonneg h5 h8 h16
  · have hread : readUint (uint n.toNat ++ rest) = some (n.toNat, rest) :=
      readUint_uint (by omega) rest
    rw [readInt_of_readUint hread, Int.toNat_of_nonneg hnonneg]
  · have hoctet : (256 + n).toNat / 256 ^ 0 % 256 = (256 + n).toNat := by omega
    have hsigned : signed 1 (256 + n).toNat = n := by
      rw [signed, if_neg (by omega)]
      omega
    rw [bigEndian, List.cons_append, readInt]
    simp only [hoctet]
    rw [if_pos (by omega), hsigned]
    rfl
  · apply readSigned_bigEndian (k := 1) (by omega) (by omega)
  · apply readSigned_bigEndian (k := 2) (by omega) (by omega)
  · apply readSigned_bigEndian (k := 4) (by omega) (by omega)

/-! ### Arrays -/

/-- The header of an array. -/
def array (n : ℕ) : Octets :=
  if n < 16 then bigEndian 1 (0x90 + n)
  else if n < 256 ^ 2 then 0xdc :: bigEndian 2 n
  else 0xdd :: bigEndian 4 n

/-- Read the header of an array. -/
def readArray : Octets → Option (ℕ × Octets)
  | [] => none
  | o :: rest =>
      if 0x90 ≤ o.val ∧ o.val < 0xa0 then some (o.val - 0x90, rest)
      else if o = 0xdc then readOctets 2 rest
      else if o = 0xdd then readOctets 4 rest
      else none

theorem readArray_array {n : ℕ} (h : n < 256 ^ 4) (rest : Octets) :
  readArray (array n ++ rest) = some (n, rest)
  := by
  rw [array]
  split_ifs with h4 h16
  · have hoctet : (0x90 + n) / 256 ^ 0 % 256 = 0x90 + n := by omega
    have hrange : 0x90 ≤ 0x90 + n ∧ 0x90 + n < 0xa0 := by omega
    rw [bigEndian, List.cons_append, readArray]
    simp only [hoctet, hrange, and_self, if_true, Nat.add_sub_cancel_left]
    rfl
  · exact readOctets_bigEndian h16 rest
  · exact readOctets_bigEndian h rest

/-! ### Strings -/

/-- The header of a string. -/
def str (n : ℕ) : Octets :=
  if n < 32 then bigEndian 1 (0xa0 + n)
  else if n < 256 then 0xd9 :: bigEndian 1 n
  else if n < 256 ^ 2 then 0xda :: bigEndian 2 n
  else 0xdb :: bigEndian 4 n

/-- Read the header of a string. -/
def readStr : Octets → Option (ℕ × Octets)
  | [] => none
  | o :: rest =>
      if 0xa0 ≤ o.val ∧ o.val < 0xc0 then some (o.val - 0xa0, rest)
      else if o = 0xd9 then readOctets 1 rest
      else if o = 0xda then readOctets 2 rest
      else if o = 0xdb then readOctets 4 rest
      else none

theorem readStr_str {n : ℕ} (h : n < 256 ^ 4) (rest : Octets) :
  readStr (str n ++ rest) = some (n, rest)
  := by
  rw [str]
  split_ifs with h5 h8 h16
  · have hoctet : (0xa0 + n) / 256 ^ 0 % 256 = 0xa0 + n := by omega
    have hrange : 0xa0 ≤ 0xa0 + n ∧ 0xa0 + n < 0xc0 := by omega
    rw [bigEndian, List.cons_append, readStr]
    simp only [hoctet, hrange, and_self, if_true, Nat.add_sub_cancel_left]
    rfl
  · exact readOctets_bigEndian (k := 1) h8 rest
  · exact readOctets_bigEndian h16 rest
  · exact readOctets_bigEndian h rest

end MsgPack
