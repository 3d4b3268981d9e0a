import Hed.Prelude.Layout

/-!
# Numerals

What scanning takes for an integer: blanks, a sign, and digits.  `scanInt_iff` says that it takes
nothing else, and `eq_of_digits` that digits alone are read in one way only.
-/

namespace Layout

/-- The sign in front of a number, if there is one. -/
inductive Sign where
  | none
  | plus
  | minus
  deriving DecidableEq

def Sign.text : Sign → List Char
  | .none => []
  | .plus => ['+']
  | .minus => ['-']

/-- The number with this sign. -/
def Sign.apply : Sign → ℕ → ℤ
  | .minus, n => -n
  | _, n => n

/-- A number as it is written, with a sign and digits. -/
structure Numeral where
  sign : Sign
  digits : List Char
  digits_ne_nil : digits ≠ []
  isDigit : ∀ c ∈ digits, c.isDigit = true

def Numeral.text (m : Numeral) : List Char := m.sign.text ++ m.digits

def Numeral.value (m : Numeral) : ℤ := m.sign.apply (Nat.ofDigitChars 10 m.digits 0)

/-- A text that does not begin with a digit, so that a number ends before it. -/
def NoDigit (rest : List Char) : Prop := rest.takeWhile Char.isDigit = []

theorem noDigit_cons {c : Char} (hc : c.isDigit = false) (rest : List Char) :
  NoDigit (c :: rest)
  := by
  apply List.takeWhile_cons_of_neg
  rw [hc]
  decide

theorem takeWhile_digits {digits rest : List Char} (hdigit : ∀ c ∈ digits, c.isDigit = true)
    (hrest : NoDigit rest) :
  (digits ++ rest).takeWhile Char.isDigit = digits
  := by
  rw [List.takeWhile_append_of_pos hdigit, hrest, List.append_nil]

theorem noDigit_dropWhile (cs : List Char) :
  NoDigit (cs.dropWhile Char.isDigit)
  := by
  induction cs with
  | nil => rfl
  | cons c cs ih =>
      cases hc : c.isDigit with
      | true =>
          rw [List.dropWhile_cons_of_pos hc]
          exact ih
      | false =>
          rw [List.dropWhile_cons_of_neg (ne_true_of_eq_false hc)]
          exact noDigit_cons hc cs

/-- A number of any width is made of digits, up to the first character that is no digit. -/
theorem scanNumber_length_iff {cs rest : List Char} {n : ℕ} :
  scanNumber cs.length cs = some (n, rest)
    ↔ ∃ digits, digits ≠ [] ∧ (∀ c ∈ digits, c.isDigit = true) ∧ NoDigit rest
      ∧ cs = digits ++ rest ∧ n = Nat.ofDigitChars 10 digits 0
  := by
  rw [scanNumber, List.take_length]
  constructor
  · intro h
    split_ifs at h with hne
    obtain ⟨hn, hrest⟩ := Prod.mk.inj (Option.some.inj h)
    have hsplit : cs.takeWhile Char.isDigit ++ cs.dropWhile Char.isDigit = cs :=
      List.takeWhile_append_dropWhile
    have hdrop : rest = cs.dropWhile Char.isDigit := by
      calc rest
          = cs.drop (cs.takeWhile Char.isDigit).length := hrest.symm
        _ = (cs.takeWhile Char.isDigit ++ cs.dropWhile Char.isDigit).drop
              (cs.takeWhile Char.isDigit).length := by rw [hsplit]
        _ = cs.dropWhile Char.isDigit := List.drop_left
    rw [hdrop]
    refine ⟨cs.takeWhile Char.isDigit, hne, ?_, noDigit_dropWhile cs, hsplit.symm, hn.symm⟩
    intro c hc
    exact List.mem_takeWhile_imp hc
  · rintro ⟨digits, hne, hdigit, hrest, rfl, rfl⟩
    rw [takeWhile_digits hdigit hrest, if_neg hne, List.drop_left]

/-- A sign and a number scan to the number with the sign. -/
theorem scanInt_text (m : Numeral) {rest : List Char} (hrest : NoDigit rest) :
  scanInt (m.text ++ rest) = some (m.value, rest)
  := by
  obtain ⟨sign, digits, hne, hdigit⟩ := m
  have hscan : scanNumber (digits ++ rest).length (digits ++ rest)
      = some (Nat.ofDigitChars 10 digits 0, rest) :=
    scanNumber_length_iff.mpr ⟨digits, hne, hdigit, hrest, rfl, rfl⟩
  cases sign with
  | minus =>
      rw [Numeral.text, Sign.text, List.append_assoc, List.cons_append, List.nil_append,
        scanInt.eq_1, hscan]
      rfl
  | plus =>
      rw [Numeral.text, Sign.text, List.append_assoc, List.cons_append, List.nil_append,
        scanInt.eq_2, hscan]
      rfl
  | none =>
      have hhead : ∀ c cs, digits ++ rest = c :: cs → c.isDigit = true := by
        intro c cs heq
        obtain ⟨d, ds, rfl⟩ := List.exists_cons_of_ne_nil hne
        obtain ⟨rfl, _⟩ := List.cons.inj heq
        exact hdigit d List.mem_cons_self
      rw [Numeral.text, Sign.text, List.nil_append, scanInt.eq_3, hscan]
      · rfl
      · intro cs heq
        exact absurd (hhead '-' cs heq) (by decide)
      · intro cs heq
        exact absurd (hhead '+' cs heq) (by decide)

/-- Only a sign and digits scan to an integer. -/
theorem scanInt_iff {cs rest : List Char} {k : ℤ} :
  scanInt cs = some (k, rest) ↔ ∃ m : Numeral, NoDigit rest ∧ cs = m.text ++ rest ∧ k = m.value
  := by
  constructor
  · intro h
    have hnumeral (sign : Sign) {cs' : List Char} (hcs : cs = sign.text ++ cs')
        (hscan : (scanNumber cs'.length cs').map (fun p => (sign.apply p.1, p.2))
          = some (k, rest)) :
        ∃ m : Numeral, NoDigit rest ∧ cs = m.text ++ rest ∧ k = m.value := by
      obtain ⟨⟨n, rest'⟩, hnumber, heq⟩ := Option.map_eq_some_iff.mp hscan
      obtain ⟨rfl, rfl⟩ := Prod.mk.inj heq
      obtain ⟨digits, hne, hdigit, hrest, rfl, rfl⟩ := scanNumber_length_iff.mp hnumber
      use ⟨sign, digits, hne, hdigit⟩, hrest
      rw [hcs, Numeral.text, List.append_assoc]
      exact ⟨rfl, rfl⟩
    rw [scanInt.eq_def] at h
    split at h
    · exact hnumeral .minus rfl h
    · exact hnumeral .plus rfl h
    · exact hnumeral .none rfl h
  · rintro ⟨m, hrest, rfl, rfl⟩
    exact scanInt_text m hrest

theorem Numeral.exists_cons (m : Numeral) :
  ∃ c cs, m.text = c :: cs ∧ isBlank c = false
  := by
  obtain ⟨sign, digits, hne, hdigit⟩ := m
  obtain ⟨d, ds, rfl⟩ := List.exists_cons_of_ne_nil hne
  cases sign with
  | none => exact ⟨d, ds, rfl, isBlank_of_isDigit (hdigit d List.mem_cons_self)⟩
  | plus => exact ⟨'+', d :: ds, rfl, by decide⟩
  | minus => exact ⟨'-', d :: ds, rfl, by decide⟩

/-- Blanks in front of an integer are skipped, and nothing else is. -/
theorem scanInt_dropWhile_iff {cs rest : List Char} {k : ℤ} :
  scanInt (cs.dropWhile isBlank) = some (k, rest)
    ↔ ∃ (blanks : List Char) (m : Numeral), (∀ c ∈ blanks, isBlank c = true) ∧ NoDigit rest
      ∧ cs = blanks ++ (m.text ++ rest) ∧ k = m.value
  := by
  rw [scanInt_iff]
  constructor
  · rintro ⟨m, hrest, hcs, hk⟩
    refine ⟨cs.takeWhile isBlank, m, ?_, hrest, ?_, hk⟩
    · intro c hc
      exact List.mem_takeWhile_imp hc
    · rw [← hcs, List.takeWhile_append_dropWhile]
  · rintro ⟨blanks, m, hblanks, hrest, rfl, hk⟩
    obtain ⟨c, cs, htext, hc⟩ := m.exists_cons
    refine ⟨m, hrest, ?_, hk⟩
    rw [List.dropWhile_append_of_pos hblanks, htext, List.cons_append,
      List.dropWhile_cons_of_neg (ne_true_of_eq_false hc)]

/-- A text that is digits up to some character is not blanks or a sign and digits as well. -/
theorem eq_of_digits {blanks rest digits tail : List Char} {m : Numeral}
    (hblanks : ∀ c ∈ blanks, isBlank c = true) (hrest : NoDigit rest) (hne : digits ≠ [])
    (hdigit : ∀ c ∈ digits, c.isDigit = true) (htail : NoDigit tail)
    (heq : blanks ++ (m.text ++ rest) = digits ++ tail) :
  blanks = [] ∧ m.sign = .none ∧ rest = tail
  := by
  have hhead : ∀ c cs, c :: cs = digits ++ tail → c.isDigit = true := by
    intro c cs hcons
    obtain ⟨d, ds, rfl⟩ := List.exists_cons_of_ne_nil hne
    obtain ⟨rfl, _⟩ := List.cons.inj hcons
    exact hdigit c List.mem_cons_self
  cases blanks with
  | cons c blanks =>
      have hblank := hblanks c List.mem_cons_self
      rw [isBlank_of_isDigit (hhead c _ heq)] at hblank
      cases hblank
  | nil =>
      obtain ⟨sign, digits', hne', hdigit'⟩ := m
      cases sign with
      | minus => exact absurd (hhead '-' _ heq) (by decide)
      | plus => exact absurd (hhead '+' _ heq) (by decide)
      | none =>
          have heq' : digits' ++ rest = digits ++ tail := heq
          have hsame : digits' = digits := by
            rw [← takeWhile_digits hdigit' hrest, heq', takeWhile_digits hdigit htail]
          use rfl, rfl
          rw [hsame] at heq'
          exact List.append_cancel_left heq'

end Layout
