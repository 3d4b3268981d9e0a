import Mathlib.Data.List.TakeWhile
import Hed.Inet.Networks

/-!
# The texts of addresses

Addresses are written as groups of digits with separators between them.  What is written is read
back, as the digits of a number are read back to the number and no separator is a digit.
-/

namespace Hed

/-! ### Digits -/

theorem digitValue_digitChar {d : ℕ} (h : d < 16) :
  digitValue d.digitChar = some d
  := by
  have hall : ∀ d : Fin 16, digitValue d.val.digitChar = some d.val := by decide
  apply hall ⟨d, h⟩

/-- The digits of a number are read back. -/
theorem mapM_toDigits {base : ℕ} (h : 1 < base) (h' : base ≤ 16) (n : ℕ) :
  ∃ digits, (Nat.toDigits base n).mapM digitValue = some digits ∧ (∀ d ∈ digits, d < base)
    ∧ digits.foldl (fun n d => base * n + d) 0 = n
  := by
  induction n using Nat.strongRecOn with
  | ind n ih =>
      by_cases hn : n < base
      · use [n]
        rw [Nat.toDigits_of_lt_base hn]
        simp [digitValue_digitChar (hn.trans_le h'), hn]
      · rw [not_lt] at hn
        have hpos : 0 < n := by omega
        obtain ⟨digits, hmap, hlt, hfold⟩ := ih (n / base) (Nat.div_lt_self hpos h)
        have hmod : n % base < base := Nat.mod_lt n (by omega)
        have hlast := digitValue_digitChar (hmod.trans_le h')
        use digits ++ [n % base]
        rw [Nat.toDigits_of_base_le h hn]
        constructor
        · simp [hmap, hlast]
        constructor
        · intro d hd
          rcases List.mem_append.mp hd with hd | hd
          · apply hlt d hd
          · rw [List.mem_singleton.mp hd]
            apply hmod
        · rw [List.foldl_append, hfold]
          apply Nat.div_add_mod

/-- What is read to digits is made of digits. -/
theorem digitValue_ne_none {s : Text} {digits : List ℕ} (h : s.mapM digitValue = some digits)
    {c : Char} (hc : c ∈ s) :
  digitValue c ≠ none
  := by
  induction s generalizing digits with
  | nil => cases hc
  | cons c' s ih =>
      simp only [List.mapM_cons, Option.bind_eq_bind, Option.bind_eq_some_iff] at h
      obtain ⟨d, hd, digits', hdigits, _⟩ := h
      rcases List.mem_cons.mp hc with rfl | hc
      · rw [hd]
        simp
      · apply ih hdigits hc

theorem readNumber_toDigits {base : ℕ} (h : 1 < base) (h' : base ≤ 16) (n : ℕ) :
  readNumber base (Nat.toDigits base n) = some n
  := by
  obtain ⟨digits, hmap, hlt, hfold⟩ := mapM_toDigits h h' n
  rw [readNumber, hmap, Option.bind_some, if_pos, hfold]
  use Nat.toDigits_ne_nil

/-- Only the digits of zero begin with a zero. -/
theorem eq_zero_of_head?_toDigits {n : ℕ} (h : (Nat.toDigits 10 n).head? = some '0') :
  n = 0
  := by
  induction n using Nat.strongRecOn with
  | ind n ih =>
      by_cases hn : n < 10
      · have hdigit : ∀ d : Fin 10, d.val.digitChar = '0' → d.val = 0 := by decide
        rw [Nat.toDigits_of_lt_base hn] at h
        apply hdigit ⟨n, hn⟩ (Option.some.inj h)
      · rw [not_lt] at hn
        have hpos : 0 < n := by omega
        rw [Nat.toDigits_of_base_le (by decide) hn,
          List.head?_append_of_ne_nil _ Nat.toDigits_ne_nil] at h
        have hzero := ih (n / 10) (Nat.div_lt_self hpos (by decide)) h
        omega

theorem readDecimal_toDigits (n : ℕ) :
  readDecimal (Nat.toDigits 10 n) = some n
  := by
  rw [readDecimal, if_neg, readNumber_toDigits (by decide) (by decide)]
  rintro ⟨hhead, hne⟩
  obtain rfl := eq_zero_of_head?_toDigits hhead
  apply hne (Nat.toDigits_zero 10)

theorem readHex_toDigits {width n : ℕ} (hwidth : 0 < width) (h : n < 16 ^ width) :
  readHex width (Nat.toDigits 16 n) = some n
  := by
  have hlength := (Nat.length_toDigits_le_iff (by decide) hwidth).mpr h
  rw [readHex, if_pos hlength, readNumber_toDigits (by decide) (by decide)]

theorem not_mem_toDigits {base : ℕ} (h : 1 < base) (h' : base ≤ 16) {c : Char}
    (hc : digitValue c = none) (n : ℕ) :
  c ∉ Nat.toDigits base n
  := by
  obtain ⟨digits, hmap, _⟩ := mapM_toDigits h h' n
  intro hmem
  apply digitValue_ne_none hmap hmem hc

/-! ### Groups -/

section Groups

variable {base count bound : ℕ} {separator : Char} {groups : List ℕ}

theorem readGroups_printGroups {read : Text → Option ℕ} (h : 1 < base) (h' : base ≤ 16)
    (hseparator : digitValue separator = none) (hne : groups ≠ [])
    (hlength : groups.length = count) (hlt : ∀ n ∈ groups, n < bound)
    (hread : ∀ n < bound, read (Nat.toDigits base n) = some n) :
  readGroups read count bound separator (printGroups base separator groups) = some groups
  := by
  have hsplit : (printGroups base separator groups).splitOn separator
      = groups.map (Nat.toDigits base) := by
    apply List.splitOn_intercalate
    · intro l hl
      obtain ⟨n, _, rfl⟩ := List.mem_map.mp hl
      apply not_mem_toDigits h h' hseparator
    · simpa using hne
  have hgroups : (groups.map (Nat.toDigits base)).mapM read = some groups := by
    clear hne hlength hsplit
    induction groups with
    | nil => rfl
    | cons n groups ih =>
        obtain ⟨hn, hrest⟩ := List.forall_mem_cons.mp hlt
        simp [hread n hn, ih hrest]
  rw [readGroups, hsplit, hgroups, Option.bind_some, if_pos]
  use hlength

/-- A text between separators is made of separators and of what is between them. -/
theorem mem_intercalate {separator c : Char} {texts : List Text}
    (h : c ∈ [separator].intercalate texts) :
  c = separator ∨ ∃ s ∈ texts, c ∈ s
  := by
  obtain ⟨s, hs, hc⟩ := List.mem_flatten.mp h
  obtain ⟨i, hi⟩ := List.mem_iff_getElem?.mp hs
  rw [List.getElem?_intersperse] at hi
  split_ifs at hi
  · right
    use s, List.mem_of_getElem? hi
  · left
    cases hi
    apply List.mem_singleton.mp hc

theorem cString_printGroups (h : 1 < base) (h' : base ≤ 16) (hseparator : separator ≠ '\x00') :
  cString (printGroups base separator groups) = printGroups base separator groups
  := by
  apply List.takeWhile_eq_self_iff.mpr
  intro c hc
  rcases mem_intercalate hc with rfl | ⟨s, hs, hc⟩
  · simpa using hseparator
  · obtain ⟨n, _, rfl⟩ := List.mem_map.mp hs
    have hzero : '\x00' ∉ Nat.toDigits base n := not_mem_toDigits h h' (by decide) n
    have hne : c ≠ '\x00' := by
      rintro rfl
      contradiction
    simpa using hne

end Groups

/-! ### Addresses -/

/-- The texts of addresses are read back. -/
def Presentation.Inverts {α : Type} (inet : Presentation α) : Prop :=
  ∀ a, ∃ buf, inet.inetNtop a = .ok buf ∧ inet.inetPton (cString buf) = .ok (some a)

/-- The octets of an address are what its groups are written as. -/
theorem map_ofNat_map_val (b : Bytes) :
  (b.map (fun b => b.val)).map (Fin.ofNat 256) = b
  := by
  rw [List.map_map]
  apply List.map_id''
  intro b
  apply Fin.ofNat_val_eq_self

theorem lt_of_mem_map_val {b : Bytes} {n : ℕ} (h : n ∈ b.map (fun b => b.val)) :
  n < 256
  := by
  obtain ⟨c, _, rfl⟩ := List.mem_map.mp h
  apply c.isLt

theorem dottedDecimal_inverts :
  dottedDecimal.Inverts
  := by
  rintro ⟨sAddr⟩
  use printGroups 10 '.' ((leBytes 4 sAddr.toNat).map (fun b => b.val)), rfl
  rw [cString_printGroups (by decide) (by decide) (by decide)]
  simp only [dottedDecimal]
  rw [readGroups_printGroups (by decide) (by decide) (by decide) (by simp [leBytes]) (by simp)
    (fun _ => lt_of_mem_map_val) (fun n _ => readDecimal_toDigits n)]
  have hlt : sAddr.toNat < 256 ^ 4 := sAddr.toNat_lt
  rw [Option.map_some, map_ofNat_map_val, ofLeBytes_leBytes, Nat.mod_eq_of_lt hlt,
    UInt32.ofNat_toNat]

/-- The groups of two octets, and the octets that they have. -/
theorem groupsOf_spec {k : ℕ} {b : Bytes} (h : b.length = 2 * k) :
  (groupsOf b).length = k ∧ (∀ n ∈ groupsOf b, n < 65536)
    ∧ (groupsOf b).flatMap (MsgPack.bigEndian 2) = b
  := by
  induction k generalizing b with
  | zero =>
      obtain rfl := List.length_eq_zero_iff.mp h
      simp [groupsOf]
  | succ k ih =>
      obtain _ | ⟨c, _ | ⟨d, rest⟩⟩ := b
      · simp at h
      · simp at h
        omega
      · have hrest : rest.length = 2 * k := by
          simp only [List.length_cons] at h
          omega
        obtain ⟨hcount, hlt, hflat⟩ := ih hrest
        have hc := c.isLt
        have hd := d.isLt
        have hpair : MsgPack.bigEndian 2 (256 * c.val + d.val) = [c, d] := by
          have hhigh : (256 * c.val + d.val) / 256 ^ 1 % 256 = c.val := by omega
          have hlow : (256 * c.val + d.val) / 256 ^ 0 % 256 = d.val := by omega
          simp only [MsgPack.bigEndian, hhigh, hlow]
        constructor
        · rw [groupsOf, List.length_cons, hcount]
        constructor
        · intro n hn
          rcases List.mem_cons.mp hn with rfl | hn
          · omega
          · apply hlt n hn
        · rw [groupsOf, List.flatMap_cons, hpair, hflat]
          rfl

theorem colonHex_inverts :
  colonHex.Inverts
  := by
  rintro ⟨s6Addr, hlength⟩
  obtain ⟨hcount, hlt, hflat⟩ := groupsOf_spec (k := 8) hlength
  use printGroups 16 ':' (groupsOf s6Addr), rfl
  rw [cString_printGroups (by decide) (by decide) (by decide)]
  simp only [colonHex]
  rw [readGroups_printGroups (by decide) (by decide) (by decide) _ hcount hlt
    (fun _ => readHex_toDigits (Nat.succ_pos 3))]
  · rw [Option.map_some, hflat]
    apply congrArg (fun a => Except.ok (some a))
    apply DpackLib.ofBytes_s6Addr ⟨s6Addr, hlength⟩
  · apply List.ne_nil_of_length_pos
    omega

end Hed
