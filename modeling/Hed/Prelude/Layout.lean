import Mathlib.Algebra.Order.Ring.Int
import Mathlib.Data.List.TakeWhile

/-!
# Layouts of text

Texts that are made of fixed characters and of decimal numbers of a fixed width.  A layout
prints a record and scans it back, and scanning undoes printing as long as each number fits
the range that its field allows.
-/

namespace Layout

/-! ### Numbers -/

/-- A number in decimal digits, with zeros in front up to a width. -/
def padded (w n : ℕ) : List Char :=
  List.replicate (w - (Nat.toDigits 10 n).length) '0' ++ Nat.toDigits 10 n

/-- An integer, its sign counting for the width. -/
def paddedInt (w : ℕ) (n : ℤ) : List Char :=
  if n < 0 then '-' :: padded (w - 1) n.natAbs else padded w n.natAbs

theorem isDigit_of_mem_padded {w n : ℕ} {c : Char} (h : c ∈ padded w n) :
  c.isDigit = true
  := by
  rcases List.mem_append.mp h with hzero | hdigit
  · rw [List.eq_of_mem_replicate hzero]
    rfl
  · exact Nat.isDigit_of_mem_toDigits (b := 10) (by decide) (by decide) hdigit

theorem padded_ne_nil (w n : ℕ) :
  padded w n ≠ []
  := by
  rw [padded]
  apply List.append_ne_nil_of_right_ne_nil
  exact Nat.toDigits_ne_nil

theorem length_padded {w n : ℕ} (hw : 0 < w) (hn : n < 10 ^ w) :
  (padded w n).length = w
  := by
  have hle : (Nat.toDigits 10 n).length ≤ w := (Nat.length_toDigits_le_iff (by decide) hw).mpr hn
  rw [padded, List.length_append, List.length_replicate]
  omega

/-- The digits of a number make the number. -/
theorem ofDigitChars_padded (w n : ℕ) :
  Nat.ofDigitChars 10 (padded w n) 0 = n
  := by
  rw [padded, Nat.ofDigitChars_append, Nat.ofDigitChars_replicate_zero, mul_zero,
    Nat.ofDigitChars_ten_toDigits]

/-- The blanks, that scanning skips in front of a number. -/
def isBlank (c : Char) : Bool :=
  c = ' ' ∨ c = '\t' ∨ c = '\n' ∨ c = '\x0b' ∨ c = '\x0c' ∨ c = '\r'

/-- A number of at least one and at most `w` digits, and the text after it. -/
def scanNumber (w : ℕ) (cs : List Char) : Option (ℕ × List Char) :=
  let digits := (cs.take w).takeWhile Char.isDigit
  if digits = [] then none else some (Nat.ofDigitChars 10 digits 0, cs.drop digits.length)

/-- An integer, of any number of digits and with an optional sign, and the text after it. -/
def scanInt : List Char → Option (ℤ × List Char)
  | '-' :: cs => (scanNumber cs.length cs).map (fun p => (-(p.1 : ℤ), p.2))
  | '+' :: cs => (scanNumber cs.length cs).map (fun p => ((p.1 : ℤ), p.2))
  | cs => (scanNumber cs.length cs).map (fun p => ((p.1 : ℤ), p.2))

/-- Scanning takes digits up to the width, or up to the first character that is no digit. -/
theorem scanNumber_append {w : ℕ} {digits rest : List Char}
    (hdigit : ∀ c ∈ digits, c.isDigit = true) (hne : digits ≠ []) (hle : digits.length ≤ w)
    (hstop : (rest.take (w - digits.length)).takeWhile Char.isDigit = []) :
  scanNumber w (digits ++ rest) = some (Nat.ofDigitChars 10 digits 0, rest)
  := by
  have htake : ((digits ++ rest).take w).takeWhile Char.isDigit = digits := by
    rw [List.take_append, List.take_of_length_le hle, List.takeWhile_append_of_pos hdigit, hstop,
      List.append_nil]
  rw [scanNumber, htake, if_neg hne, List.drop_left]

theorem scanNumber_padded {w n : ℕ} (hw : 0 < w) (hn : n < 10 ^ w) (rest : List Char) :
  scanNumber w (padded w n ++ rest) = some (n, rest)
  := by
  have hlength := length_padded hw hn
  rw [scanNumber_append (fun _ => isDigit_of_mem_padded) (padded_ne_nil w n) hlength.le,
    ofDigitChars_padded]
  rw [hlength, Nat.sub_self]
  rfl

theorem padded_eq_cons (w n : ℕ) :
  ∃ c digits, padded w n = c :: digits ∧ c.isDigit = true
  := by
  obtain ⟨c, digits, heq⟩ := List.exists_cons_of_ne_nil (padded_ne_nil w n)
  use c, digits, heq
  apply isDigit_of_mem_padded (w := w) (n := n)
  rw [heq]
  apply List.mem_cons_self

theorem isBlank_of_isDigit {c : Char} (h : c.isDigit = true) :
  isBlank c = false
  := by
  rw [isBlank, decide_eq_false_iff_not]
  rintro (rfl | rfl | rfl | rfl | rfl | rfl)
  all_goals exact absurd h (by decide)

/-- No blanks stand in front of the digits of a number. -/
theorem dropWhile_isBlank_padded (w n : ℕ) (rest : List Char) :
  (padded w n ++ rest).dropWhile isBlank = padded w n ++ rest
  := by
  obtain ⟨c, digits, heq, hdigit⟩ := padded_eq_cons w n
  rw [heq, List.cons_append, List.dropWhile_cons_of_neg]
  rw [isBlank_of_isDigit hdigit]
  decide

/-- An integer scans up to a character that is no digit. -/
theorem scanInt_padded (w n : ℕ) {c : Char} (hc : c.isDigit = false) (rest : List Char) :
  scanInt (padded w n ++ c :: rest) = some ((n : ℤ), c :: rest)
  := by
  obtain ⟨d, digits, heq, hdigit⟩ := padded_eq_cons w n
  have hscan : scanInt (padded w n ++ c :: rest)
      = (scanNumber (padded w n ++ c :: rest).length (padded w n ++ c :: rest)).map
        (fun p => ((p.1 : ℤ), p.2)) := by
    rw [heq, List.cons_append, scanInt.eq_3]
    · rintro _ ⟨rfl, _⟩
      exact absurd hdigit (by decide)
    · rintro _ ⟨rfl, _⟩
      exact absurd hdigit (by decide)
  rw [hscan, scanNumber_append (fun _ => isDigit_of_mem_padded) (padded_ne_nil w n),
    ofDigitChars_padded]
  · rfl
  · rw [List.length_append]
    omega
  · have hlength : (padded w n ++ c :: rest).length - (padded w n).length = rest.length + 1 := by
      rw [List.length_append, List.length_cons]
      omega
    rw [hlength, List.take_succ_cons, List.takeWhile_cons_of_neg]
    rw [hc]
    decide

/-! ### Records -/

variable {ρ : Type}

/-- A number of a record: its width, the range that scanning accepts, and the number in the
record. -/
structure Field (ρ : Type) where
  width : ℕ
  lo : ℕ
  hi : ℕ
  get : ρ → ℤ
  set : ℤ → ρ → ρ
  width_pos : 0 < width
  hi_lt : hi < 10 ^ width

/-- A part of a layout. -/
inductive Item (ρ : Type) where
  | literal (c : Char)
  | field (f : Field ρ)

/-- The text of a record. -/
def print : List (Item ρ) → ρ → List Char
  | [], _ => []
  | .literal c :: rest, r => c :: print rest r
  | .field f :: rest, r => paddedInt f.width (f.get r) ++ print rest r

/-- Scan a text into a record, and give the text that is left. -/
def scan : List (Item ρ) → List Char → ρ → Option (ρ × List Char)
  | [], cs, r => some (r, cs)
  | .literal c :: rest, cs, r =>
      match cs with
      | [] => none
      | c' :: cs' => if c' = c then scan rest cs' r else none
  | .field f :: rest, cs, r =>
      match scanNumber f.width (cs.dropWhile isBlank) with
      | none => none
      | some (n, cs') => if f.lo ≤ n ∧ n ≤ f.hi then scan rest cs' (f.set n r) else none

/-- Copy the numbers of a layout from one record to another. -/
def copy : List (Item ρ) → ρ → ρ → ρ
  | [], _, r => r
  | .literal _ :: rest, s, r => copy rest s r
  | .field f :: rest, s, r => copy rest s (f.set (f.get s) r)

/-- The numbers of a layout are in their ranges. -/
def Fits : List (Item ρ) → ρ → Prop
  | [], _ => True
  | .literal _ :: rest, r => Fits rest r
  | .field f :: rest, r => (f.lo ≤ f.get r ∧ f.get r ≤ f.hi) ∧ Fits rest r

/-- The number of characters of a layout. -/
def size : List (Item ρ) → ℕ
  | [] => 0
  | .literal _ :: rest => 1 + size rest
  | .field f :: rest => f.width + size rest

/-- A number in the range of its field prints as its digits, as many as the field is wide. -/
theorem paddedInt_of_mem (f : Field ρ) {n : ℤ} (hlo : f.lo ≤ n) (hhi : n ≤ f.hi) :
  ∃ k : ℕ, n = k ∧ k < 10 ^ f.width ∧ paddedInt f.width n = padded f.width k
  := by
  obtain ⟨k, rfl⟩ := Int.eq_ofNat_of_zero_le (le_trans (Int.natCast_nonneg f.lo) hlo)
  use k, rfl
  constructor
  · exact lt_of_le_of_lt (Int.ofNat_le.mp hhi) f.hi_lt
  · rw [paddedInt, if_neg (not_lt.mpr (Int.natCast_nonneg k)), Int.natAbs_natCast]

theorem length_print {layout : List (Item ρ)} {r : ρ} (h : Fits layout r) :
  (print layout r).length = size layout
  := by
  induction layout with
  | nil => rfl
  | cons item layout ih =>
      cases item with
      | literal c =>
          have hrest := ih h
          rw [print, List.length_cons, hrest, size, Nat.add_comm]
      | field f =>
          obtain ⟨⟨hlo, hhi⟩, hrest⟩ := h
          obtain ⟨k, _, hlt, hprint⟩ := paddedInt_of_mem f hlo hhi
          rw [print, List.length_append, hprint, length_padded f.width_pos hlt, ih hrest, size]

/-- A record prints as digits and the fixed characters of the layout. -/
theorem mem_print {layout : List (Item ρ)} {r : ρ} (h : Fits layout r) {c : Char}
    (hc : c ∈ print layout r) :
  c.isDigit = true ∨ Item.literal c ∈ layout
  := by
  induction layout with
  | nil => exact absurd hc List.not_mem_nil
  | cons item layout ih =>
      cases item with
      | literal c' =>
          rcases List.mem_cons.mp hc with rfl | hrest
          · right
            apply List.mem_cons_self
          · apply (ih h hrest).imp_right
            apply List.mem_cons_of_mem
      | field f =>
          obtain ⟨⟨hlo, hhi⟩, hfits⟩ := h
          obtain ⟨k, _, _, hprint⟩ := paddedInt_of_mem f hlo hhi
          rw [print, hprint] at hc
          rcases List.mem_append.mp hc with hdigit | hrest
          · left
            exact isDigit_of_mem_padded hdigit
          · apply (ih hfits hrest).imp_right
            apply List.mem_cons_of_mem

/-- Scanning a printed record copies its numbers. -/
theorem scan_print {layout : List (Item ρ)} {s : ρ} (h : Fits layout s) (rest : List Char)
    (r : ρ) :
  scan layout (print layout s ++ rest) r = some (copy layout s r, rest)
  := by
  induction layout generalizing r with
  | nil => rfl
  | cons item layout ih =>
      cases item with
      | literal c =>
          rw [print, List.cons_append, scan, copy]
          exact (if_pos rfl).trans (ih h r)
      | field f =>
          obtain ⟨⟨hlo, hhi⟩, hrest⟩ := h
          obtain ⟨k, hk, hlt, hprint⟩ := paddedInt_of_mem f hlo hhi
          rw [hk] at hlo hhi
          have hrange : f.lo ≤ k ∧ k ≤ f.hi := ⟨Int.ofNat_le.mp hlo, Int.ofNat_le.mp hhi⟩
          rw [print, hprint, List.append_assoc, scan, dropWhile_isBlank_padded,
            scanNumber_padded f.width_pos hlt, copy, hk]
          exact (if_pos hrange).trans (ih hrest _)

/-- A number ends before a character that is no digit, whatever comes after it. -/
theorem scanNumber_append_cons {w n : ℕ} {cs rest : List Char} {z : Char}
    (hz : z.isDigit = false) (tail : List Char) (h : scanNumber w cs = some (n, rest)) :
  scanNumber w (cs ++ z :: tail) = some (n, rest ++ z :: tail)
  := by
  have hstop (k : ℕ) : ((z :: tail).take k).takeWhile Char.isDigit = [] := by
    cases k with
    | zero => rfl
    | succ k =>
        apply List.takeWhile_cons_of_neg
        rw [hz]
        decide
  have hdigits : ((cs ++ z :: tail).take w).takeWhile Char.isDigit
      = (cs.take w).takeWhile Char.isDigit := by
    rw [List.take_append, List.takeWhile_append, hstop, List.append_nil]
    split_ifs with hall
    · exact (List.IsPrefix.eq_of_length (List.takeWhile_prefix _) hall).symm
    · rfl
  have hle : ((cs.take w).takeWhile Char.isDigit).length ≤ cs.length :=
    le_trans (List.takeWhile_prefix _).length_le (List.length_take_le' w cs)
  rw [scanNumber] at h ⊢
  rw [hdigits]
  split_ifs at h ⊢ with hne
  obtain ⟨rfl, rfl⟩ := Prod.mk.inj (Option.some.inj h)
  rw [List.drop_append_of_le_length hle]

theorem dropWhile_isBlank_append_cons {z : Char} (hz : isBlank z = false) (cs tail : List Char) :
  (cs ++ z :: tail).dropWhile isBlank = cs.dropWhile isBlank ++ z :: tail
  := by
  have hcons : (z :: tail).dropWhile isBlank = z :: tail :=
    List.dropWhile_cons_of_neg (ne_true_of_eq_false hz)
  rw [List.dropWhile_append, hcons]
  split_ifs with hempty
  · rw [List.isEmpty_iff.mp hempty, List.nil_append]
  · rfl

/-- Scanning does not look beyond a character that is neither a blank nor a digit, once the
layout is scanned before it. -/
theorem scan_append_cons {layout : List (Item ρ)} {cs rest : List Char} {z : Char} {r r' : ρ}
    (hdigit : z.isDigit = false) (hblank : isBlank z = false) (tail : List Char)
    (h : scan layout cs r = some (r', rest)) :
  scan layout (cs ++ z :: tail) r = some (r', rest ++ z :: tail)
  := by
  induction layout generalizing cs r with
  | nil =>
      obtain ⟨rfl, rfl⟩ := Prod.mk.inj (Option.some.inj h)
      rfl
  | cons item layout ih =>
      cases item with
      | literal c =>
          cases cs with
          | nil => cases h
          | cons c' cs =>
              rw [List.cons_append]
              rw [scan] at h ⊢
              split_ifs at h ⊢ with hc
              exact ih h
      | field f =>
          rw [scan] at h ⊢
          rw [dropWhile_isBlank_append_cons hblank]
          cases hnumber : scanNumber f.width (cs.dropWhile isBlank) with
          | none =>
              rw [hnumber] at h
              cases h
          | some p =>
              obtain ⟨n, cs'⟩ := p
              rw [hnumber] at h
              rw [scanNumber_append_cons hdigit tail hnumber]
              dsimp only at h ⊢
              split_ifs at h ⊢ with hrange
              exact ih h

end Layout
