import Hed.Inet.Code
import Hed.Prelude.Octets

/-!
# What the checks of the networks test

The part of an address after its prefix is to be zero.  `hed_in_net_check_addr_prefix` masks
the address as an integer of the host, and so tests other bits; the loop of
`hed_in6_net_check_addr_prefix` goes through the octets in their order, but takes the wrong
bits of the one that the prefix ends in.
-/

namespace Hed

/-! ### Octets of an address -/

/-- An octet of an address, and zero after its last one. -/
def octet (b : Bytes) (k : ℕ) : ℕ := (b.getD k 0).val

theorem octet_lt (b : Bytes) (k : ℕ) :
  octet b k < 256
  := (b.getD k 0).isLt

@[simp]
theorem octet_nil (k : ℕ) :
  octet [] k = 0
  := rfl

@[simp]
theorem octet_cons_zero (a : Byte) (b : Bytes) :
  octet (a :: b) 0 = a.val
  := rfl

@[simp]
theorem octet_cons_succ (a : Byte) (b : Bytes) (k : ℕ) :
  octet (a :: b) (k + 1) = octet b k
  := rfl

theorem octet_of_le {b : Bytes} {k : ℕ} (h : b.length ≤ k) :
  octet b k = 0
  := by
  rw [octet, List.getD_eq_default _ _ h]
  rfl

/-- Every bit of an address after the first `p` bits is zero. -/
def HostEmpty (b : Bytes) (p : ℕ) : Prop :=
  ∀ i < 8 * b.length, p ≤ i → Octets.bit (octet b) i = false

/-- Every octet after a position is zero. -/
def ZeroAfter (b : Bytes) (k : ℕ) : Prop := ∀ j, k < j → octet b j = 0

/-- Every octet before a position is zero. -/
def ZeroBefore (b : Bytes) (k : ℕ) : Prop := ∀ j < k, octet b j = 0

/-- The host part is empty if the octets after the one that the prefix ends in are zero, and
the bits of that one that come after the prefix. -/
theorem hostEmpty_iff {b : Bytes} {p : ℕ} :
  HostEmpty b p ↔ 2 ^ (8 - p % 8) ∣ octet b (p / 8) ∧ ZeroAfter b (p / 8)
  := by
  rcases lt_or_ge p (8 * b.length) with hp | hp
  · rw [HostEmpty, Octets.bits_eq_false_iff (octet_lt b) hp]
    apply and_congr_right
    intro _
    constructor
    · intro h j hj
      rcases lt_or_ge j b.length with hlt | hle
      · apply h j hj hlt
      · apply octet_of_le hle
    · intro h j hj _
      apply h j hj
  · have hend : octet b (p / 8) = 0 := octet_of_le (by omega)
    constructor
    · intro _
      rw [hend]
      use Nat.dvd_zero _
      intro j hj
      apply octet_of_le (by omega)
    · intro _ i hi hpi
      omega

theorem zeroAfter_cons (a : Byte) (b : Bytes) (k : ℕ) :
  ZeroAfter (a :: b) (k + 1) ↔ ZeroAfter b k
  := by
  constructor
  · intro h j hj
    apply h (j + 1) (by omega)
  · intro h j hj
    obtain ⟨i, rfl⟩ : ∃ i, j = i + 1 := ⟨j - 1, by omega⟩
    apply h i (by omega)

/-- All octets but the first are zero. -/
theorem zeroAfter_zero_cons (a : Byte) (b : Bytes) :
  ZeroAfter (a :: b) 0 ↔ octet b 0 = 0 ∧ ZeroAfter b 0
  := by
  constructor
  · intro h
    use h 1 (by omega)
    intro j hj
    apply h (j + 1) (by omega)
  · rintro ⟨hzero, h⟩ j hj
    obtain ⟨i, rfl⟩ : ∃ i, j = i + 1 := ⟨j - 1, by omega⟩
    rcases Nat.eq_zero_or_pos i with rfl | hi
    · apply hzero
    · apply h i hi

theorem zeroBefore_cons (a : Byte) (b : Bytes) (k : ℕ) :
  ZeroBefore (a :: b) (k + 1) ↔ a.val = 0 ∧ ZeroBefore b k
  := by
  constructor
  · intro h
    use h 0 (by omega)
    intro j hj
    apply h (j + 1) (by omega)
  · rintro ⟨hzero, h⟩ j hj
    rcases j with _ | j
    · apply hzero
    · apply h j (by omega)

/-- What it says of the octets of a number that a power of two divides it. -/
theorem two_pow_dvd_ofLeBytes {b : Bytes} {p : ℕ} :
  2 ^ p ∣ ofLeBytes b ↔ ZeroBefore b (p / 8) ∧ 2 ^ (p % 8) ∣ octet b (p / 8)
  := by
  induction b generalizing p with
  | nil => simp [ofLeBytes, ZeroBefore]
  | cons a b ih =>
      rw [ofLeBytes, Octets.two_pow_dvd_add_iff a.isLt]
      split_ifs with hp
      · have hdiv : p / 8 = 0 := by omega
        have hmod : p % 8 = p := by omega
        rw [hdiv, hmod, octet_cons_zero]
        constructor
        · intro h
          use by rintro j ⟨⟩
        · apply And.right
      · have hdiv : p / 8 = (p - 8) / 8 + 1 := by omega
        have hmod : p % 8 = (p - 8) % 8 := by omega
        rw [ih, hdiv, hmod, zeroBefore_cons, octet_cons_succ, and_assoc]

/-! ### IPv4 -/

@[simp]
theorem InAddr.ofLeBytes_octets (addr : InAddr) :
  ofLeBytes addr.octets = addr.sAddr.toNat
  := by
  rw [octets, ofLeBytes_leBytes]
  apply Nat.mod_eq_of_lt addr.sAddr.toNat_lt

/-- The bit that the mask is made of is a power of two. -/
theorem toNat_one_shiftLeft {p : ℕ} (hp : p < 32) :
  (1 <<< UInt32.ofNat p : UInt32).toNat = 2 ^ p
  := by
  have hlt : p < 2 ^ 32 := by omega
  have hpow : 2 ^ p < 2 ^ 32 := Nat.pow_lt_pow_right (by omega) hp
  rw [UInt32.toNat_shiftLeft, UInt32.toNat_ofNat_of_lt' hlt, Nat.mod_eq_of_lt hp,
    UInt32.toNat_one, Nat.one_shiftLeft, Nat.mod_eq_of_lt hpow]

theorem toNat_mask {p : ℕ} (hp : p < 32) :
  ((1 <<< UInt32.ofNat p : UInt32) - 1).toUInt64.toNat = 2 ^ p - 1
  := by
  have hle : (1 : UInt32) ≤ 1 <<< UInt32.ofNat p := by
    rw [UInt32.le_iff_toNat_le, toNat_one_shiftLeft hp]
    apply Nat.one_le_two_pow
  rw [UInt32.toNat_toUInt64, UInt32.toNat_sub_of_le _ _ hle, toNat_one_shiftLeft hp]
  rfl

/-- The mask takes the lowest bits of the address as an integer. -/
theorem and_mask_eq_zero_iff {p : ℕ} (a : UInt32) (hp : p < 32) :
  a.toUInt64 &&& ((1 <<< UInt32.ofNat p : UInt32) - 1).toUInt64 = 0 ↔ 2 ^ p ∣ a.toNat
  := by
  rw [← UInt64.toNat_inj, UInt64.toNat_and, toNat_mask hp, UInt32.toNat_toUInt64,
    Nat.and_two_pow_sub_one_eq_mod, UInt64.toNat_zero, Nat.dvd_iff_mod_eq_zero]

theorem hedInNetCheckAddrPrefix_eq (net : InNet) :
  hedInNetCheckAddrPrefix net
    = if net.pfx.val < 32 then some (if 2 ^ net.pfx.val ∣ net.addr.sAddr.toNat then 0 else 1)
      else none
  := by
  rw [hedInNetCheckAddrPrefix, shiftLeft32]
  split_ifs with hp hdvd
  · have hmask := (and_mask_eq_zero_iff net.addr.sAddr hp).mpr hdvd
    simp only [Option.map_some, hmask, ne_eq, not_true, if_false]
  · have hmask := mt (and_mask_eq_zero_iff net.addr.sAddr hp).mp hdvd
    simp only [Option.map_some, hmask, ne_eq, not_false_eq_true, if_true]
  · rfl

/-- The check returns zero if the octets before the one that the prefix ends in are zero, and
the lowest bits of that one. -/
theorem hedInNetCheckAddrPrefix_eq_zero_iff {net : InNet} :
  hedInNetCheckAddrPrefix net = some 0
    ↔ net.pfx.val < 32 ∧ ZeroBefore net.addr.octets (net.pfx.val / 8)
      ∧ 2 ^ (net.pfx.val % 8) ∣ octet net.addr.octets (net.pfx.val / 8)
  := by
  rw [hedInNetCheckAddrPrefix_eq, ← two_pow_dvd_ofLeBytes, InAddr.ofLeBytes_octets]
  split_ifs with hp hdvd
  · simp [hp, hdvd]
  · simp [hdvd]
  · simp [hp]

/-- A check of a network does what it is for: it has a result, which is zero exactly if the
part of the address after the prefix is. -/
def ChecksHost (check : Option ℤ) (b : Bytes) (p : ℕ) : Prop :=
  ∃ ret, check = some ret ∧ (ret = 0 ↔ HostEmpty b p)

theorem checksHost_iff {check : Option ℤ} {b : Bytes} {p : ℕ} (h : check ≠ none) :
  ChecksHost check b p ↔ (check = some 0 ↔ HostEmpty b p)
  := by
  obtain ⟨ret, rfl⟩ := Option.ne_none_iff_exists'.mp h
  rw [Option.some_inj]
  constructor
  · rintro ⟨_, ⟨⟩, h⟩
    apply h
  · intro h
    use ret

/-- No bit is set that the host part has, and none that the mask has: the octets other than
the one that the prefix ends in are zero, and so are enough of the lowest bits of that one. -/
def Quiet (b : Bytes) (p : ℕ) : Prop :=
  ZeroBefore b (p / 8) ∧ ZeroAfter b (p / 8) ∧ 2 ^ max (p % 8) (8 - p % 8) ∣ octet b (p / 8)

/-- A bit is set that the host part has, and one that the mask has. -/
def Busy (b : Bytes) (p : ℕ) : Prop :=
  (¬ ZeroBefore b (p / 8) ∨ ¬ 2 ^ (p % 8) ∣ octet b (p / 8))
    ∧ (¬ ZeroAfter b (p / 8) ∨ ¬ 2 ^ (8 - p % 8) ∣ octet b (p / 8))

/-- Both of two powers divide a number if the greater one does. -/
theorem two_pow_max_dvd_iff {m n a : ℕ} :
  2 ^ max m n ∣ a ↔ 2 ^ m ∣ a ∧ 2 ^ n ∣ a
  := by
  constructor
  · intro h
    constructor
    · apply dvd_trans (pow_dvd_pow 2 (le_max_left m n)) h
    · apply dvd_trans (pow_dvd_pow 2 (le_max_right m n)) h
  · rintro ⟨hm, hn⟩
    rcases le_total m n with hle | hle
    · rw [max_eq_right hle]
      apply hn
    · rw [max_eq_left hle]
      apply hm

/-- The mask and the host part are different parts of the address, so that the check is right
about an address exactly if they are both zero or both not, and the shift is in range. -/
theorem in_net_check_iff (net : InNet) :
  ChecksHost (hedInNetCheckAddrPrefix net) net.addr.octets net.pfx.val
    ↔ net.pfx.val < 32
      ∧ (Quiet net.addr.octets net.pfx.val ∨ Busy net.addr.octets net.pfx.val)
  := by
  rcases lt_or_ge net.pfx.val 32 with hp | hp
  · have hcheck : hedInNetCheckAddrPrefix net ≠ none := by
      rw [hedInNetCheckAddrPrefix_eq, if_pos hp]
      apply Option.some_ne_none
    rw [checksHost_iff hcheck, hedInNetCheckAddrPrefix_eq_zero_iff, hostEmpty_iff, Quiet, Busy,
      two_pow_max_dvd_iff]
    tauto
  · have hcheck : hedInNetCheckAddrPrefix net = none := by
      rw [hedInNetCheckAddrPrefix_eq, if_neg (by omega)]
    constructor
    · rintro ⟨ret, hret, _⟩
      rw [hcheck] at hret
      contradiction
    · rintro ⟨hlt, _⟩
      omega

/-- The network 192.168.1.0/24 has an empty host part, and is refused. -/
theorem in_net_check_refuses_network :
  ¬ ChecksHost (hedInNetCheckAddrPrefix ⟨⟨0x0001A8C0⟩, 24⟩) (InAddr.octets ⟨0x0001A8C0⟩) 24
  := by
  have hcheck : hedInNetCheckAddrPrefix ⟨⟨0x0001A8C0⟩, 24⟩ = some 1 := by decide
  rw [checksHost_iff (by simp [hcheck]), hcheck, HostEmpty]
  decide

/-! ### IPv6 -/

/-- How many of the lowest bits of the octet that a prefix ends in the loop tests. -/
def testedBits (p : ℕ) : ℕ := if p % 8 = 0 then 8 else p % 8

/-- The lowest `m` bits, taken by a mask. -/
theorem and_low_eq_zero_iff {a m : ℕ} :
  a &&& ((1 <<< m) - 1) = 0 ↔ 2 ^ m ∣ a
  := by
  rw [Nat.one_shiftLeft, Nat.and_two_pow_sub_one_eq_mod, Nat.dvd_iff_mod_eq_zero]

/-- What one step of the loop tests: nothing while the prefix goes on. -/
theorem in6Mask_and_eq_zero_iff (a : Byte) (p : ℕ) :
  a.val &&& (in6Mask p).1 = 0 ↔ (p < 8 → 2 ^ testedBits p ∣ a.val)
  := by
  rw [in6Mask]
  split_ifs with h0 h7
  · subst h0
    apply Iff.trans (and_low_eq_zero_iff (m := 8))
    simp [testedBits]
  · have htested : testedBits p = p := by
      rw [testedBits]
      split_ifs
      · omega
      · omega
    rw [htested, and_low_eq_zero_iff]
    constructor
    · intro h _
      apply h
    · intro h
      apply h (by omega)
  · simp [show ¬ p < 8 by omega]

theorem in6Mask_snd (p : ℕ) :
  (in6Mask p).2 = p - 8
  := by
  rw [in6Mask]
  split_ifs with h0 h7
  · simp [h0]
  · simp [show p - 8 = 0 by omega]
  · rfl

/-- The loop finds nothing if the octets after the one that the prefix ends in are zero, and
the bits of that one that it tests. -/
theorem in6CheckLoop_eq_zero_iff {b : Bytes} {p ret : ℕ} :
  in6CheckLoop b p ret = 0
    ↔ ret = 0 ∧ 2 ^ testedBits p ∣ octet b (p / 8) ∧ ZeroAfter b (p / 8)
  := by
  induction b generalizing p ret with
  | nil => simp [in6CheckLoop, ZeroAfter]
  | cons a b ih =>
      rw [in6CheckLoop, ih, Nat.or_eq_zero_iff, in6Mask_and_eq_zero_iff, in6Mask_snd, and_assoc]
      apply and_congr_right
      intro _
      rcases lt_or_ge p 8 with hp | hp
      · have hdiv : p / 8 = 0 := by omega
        have hsub : p - 8 = 0 := by omega
        have hdvd : 2 ^ testedBits 0 ∣ octet b 0 ↔ octet b 0 = 0 :=
          Octets.dvd_octet_iff (octet_lt b 0)
        rw [hsub, hdiv, octet_cons_zero, zeroAfter_zero_cons, Nat.zero_div, hdvd]
        simp [hp]
      · have hdiv : p / 8 = (p - 8) / 8 + 1 := by omega
        have htested : testedBits (p - 8) = testedBits p := by
          rw [testedBits, testedBits, show (p - 8) % 8 = p % 8 by omega]
        rw [hdiv, htested, octet_cons_succ, zeroAfter_cons]
        simp [show ¬ p < 8 by omega]

theorem hedIn6NetCheckAddrPrefix_eq_zero_iff {net : In6Net} :
  hedIn6NetCheckAddrPrefix net = some 0
    ↔ 2 ^ testedBits net.pfx.val ∣ octet net.addr.s6Addr (net.pfx.val / 8)
      ∧ ZeroAfter net.addr.s6Addr (net.pfx.val / 8)
  := by
  rw [hedIn6NetCheckAddrPrefix, Option.some_inj, ite_not, ite_eq_left_iff]
  simp [in6CheckLoop_eq_zero_iff]

/-- Where the octet that the prefix ends in does not tell its lowest bits from the bits after
the prefix. -/
def SameBits (b : Bytes) (p : ℕ) : Prop :=
  p % 8 = 0 ∨ ¬ ZeroAfter b (p / 8) ∨ ¬ 2 ^ min (p % 8) (8 - p % 8) ∣ octet b (p / 8)
    ∨ 2 ^ max (p % 8) (8 - p % 8) ∣ octet b (p / 8)

/-- Of an octet that the prefix ends in, the check tests as many of the lowest bits as the
prefix has in it, and not those that it leaves. -/
theorem in6_net_check_iff (net : In6Net) :
  ChecksHost (hedIn6NetCheckAddrPrefix net) net.addr.s6Addr net.pfx.val
    ↔ SameBits net.addr.s6Addr net.pfx.val
  := by
  have hcheck : hedIn6NetCheckAddrPrefix net ≠ none := Option.some_ne_none _
  rw [checksHost_iff hcheck, hedIn6NetCheckAddrPrefix_eq_zero_iff, hostEmpty_iff, SameBits,
    testedBits]
  split_ifs with hzero
  · simp [hzero]
  · rcases le_total (net.pfx.val % 8) (8 - net.pfx.val % 8) with hle | hle
    · have hdvd := dvd_trans (c := octet net.addr.s6Addr (net.pfx.val / 8)) (pow_dvd_pow 2 hle)
      rw [min_eq_left hle, max_eq_right hle]
      tauto
    · have hdvd := dvd_trans (c := octet net.addr.s6Addr (net.pfx.val / 8)) (pow_dvd_pow 2 hle)
      rw [min_eq_right hle, max_eq_left hle]
      tauto

/-- The address 1000::/3 has a bit set after its prefix, and is accepted. -/
theorem in6_net_check_accepts_address :
  ¬ ChecksHost (hedIn6NetCheckAddrPrefix ⟨.ofBytes [0x10], 3⟩) (In6Addr.ofBytes [0x10]).s6Addr 3
  := by
  have hcheck : hedIn6NetCheckAddrPrefix ⟨.ofBytes [0x10], 3⟩ = some 0 := by decide
  rw [checksHost_iff (by simp [hcheck]), hcheck, HostEmpty]
  decide

end Hed
