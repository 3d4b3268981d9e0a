import Hed.Base.RoundTrip
import Hed.Prelude.Numeral

/-!
# The fraction of a second

What `hed_encode_time_from_json` takes for the fraction of a second.  The number of values that
`sscanf` stores does not tell whether what comes after them has been read, and the milliseconds
are checked only after they have been multiplied: `own_format_iff` and `fraction_encodes_iff`
say for which strings this makes a difference.
-/

namespace Hed

open Layout

variable {host : Host} {dpack : Dpack} {s : Text}

/-! ### What is accepted -/

/-- One value is stored. -/
theorem sscanf_eq_one_iff {format : List Directive} {asc : Text} {n : Int64} :
  sscanf format asc = (1, [n]) ↔ (scanDirectives format asc).1 = [n]
  := by
  rw [sscanf]
  obtain ⟨stored, eof⟩ := scanDirectives format asc
  constructor
  · intro h
    exact congrArg Prod.snd h
  · rintro ⟨⟩
    rfl

theorem exists_of_sscanf {format : List Directive} {asc : Text} (h : (sscanf format asc).1 = 1) :
  ∃ n, sscanf format asc = (1, [n])
  := by
  simp only [sscanf_eq_one_iff]
  rw [sscanf] at h
  generalize scanDirectives format asc = r at h ⊢
  obtain ⟨stored, eof⟩ := r
  dsimp only at h
  split_ifs at h
  exact List.length_eq_one_iff.mp (Int.ofNat.inj h)

/-- Characters store nothing. -/
theorem scanDirectives_char (c : Char) (asc : Text) :
  (scanDirectives [.char c] asc).1 = []
  := by
  cases asc with
  | nil => rfl
  | cons c' asc =>
      rw [scanDirectives]
      split_ifs with hc
      · rfl
      · rfl

/-- What is read of a fraction: blanks and a number after its point, up to something that does
not begin with a digit. -/
structure Fraction where
  blanks : Text
  numeral : Numeral
  rest : Text
  isBlank : ∀ c ∈ blanks, Layout.isBlank c = true
  noDigit : NoDigit rest

def Fraction.text (f : Fraction) : Text := '.' :: (f.blanks ++ (f.numeral.text ++ f.rest))

/-- The number of a fraction, as a `long`. -/
def Fraction.value (f : Fraction) : Int64 := Int64.ofIntClamp f.numeral.value

theorem sscanf_fraction_iff {asc : Text} {n : Int64} :
  sscanf fractionFormat asc = (1, [n]) ↔ ∃ f : Fraction, asc = f.text ∧ n = f.value
  := by
  rw [sscanf_eq_one_iff, fractionFormat]
  constructor
  · intro h
    cases asc with
    | nil => cases h
    | cons c asc =>
        rw [scanDirectives] at h
        split_ifs at h with hc
        rw [scanDirectives] at h
        cases hscan : scanInt (asc.dropWhile Layout.isBlank) with
        | none =>
            rw [hscan] at h
            cases h
        | some p =>
            obtain ⟨k, rest⟩ := p
            rw [hscan] at h
            obtain ⟨blanks, m, hblanks, hrest, rfl, rfl⟩ := scanInt_dropWhile_iff.mp hscan
            use ⟨blanks, m, rest, hblanks, hrest⟩
            rw [hc]
            exact ⟨rfl, (List.cons.inj h).1.symm⟩
  · rintro ⟨⟨blanks, m, rest, hblanks, hrest⟩, rfl, rfl⟩
    have hscan := scanInt_dropWhile_iff.mpr ⟨blanks, m, hblanks, hrest, rfl, rfl⟩
    rw [Fraction.text, scanDirectives, if_pos rfl, scanDirectives, hscan]
    exact congrArg (Int64.ofIntClamp m.value :: ·) (scanDirectives_char 'Z' rest)

/-- The date and the time of day, read as local time, are in the range of a `time_t`. -/
def Timely (host : Host) (tm : Tm) : Prop :=
  0 ≤ (mktime host tm).toInt ∧ (mktime host tm).toInt ≤ host.timetMax.toInt

/-- The milliseconds whose product with a million, in 64 bits, is less than a second. -/
def Scaled (n : Int64) : Prop := 15625 * n.toInt % 2 ^ 58 < 15625000

theorem scaled_iff {n : Int64} :
  Scaled n ↔ 0 ≤ (n * 1000000).toInt ∧ (n * 1000000).toInt < 1000000000
  := by
  have hmillion : (1000000 : Int64).toInt = 1000000 := rfl
  have hpow : (2 : ℤ) ^ 58 = 288230376151711744 := rfl
  have hmod : n.toInt * 1000000 % 18446744073709551616
      = 64 * (15625 * n.toInt % 288230376151711744) := by
    rw [← Int.mul_emod_mul_of_pos _ _ (by decide)]
    congr 1
    omega
  rw [Scaled, Int64.toInt_mul, hmillion, Int.bmod, hpow]
  omega

/-- The product of milliseconds in a second does not overflow. -/
theorem toInt_scaled {n : Int64} (hlo : 0 ≤ n.toInt) (hhi : n.toInt ≤ 999) :
  (n * 1000000).toInt = n.toInt * 1000000
  := by
  have hmillion : (1000000 : Int64).toInt = 1000000 := rfl
  rw [Int64.toInt_mul, hmillion, Int.bmod_eq_of_le]
  · omega
  · omega

/-- The strings that are encoded, and what is encoded of them. -/
theorem encodes_iff {encoder encoder' : Encoder} :
  hedEncodeTimeFromJson host dpack encoder (.string s) = some (0, encoder')
    ↔ ∃ tm asc n, strptime (cString s) zeroTm = some (tm, asc)
      ∧ sscanf fractionFormat asc = (1, [n]) ∧ Timely host tm ∧ Scaled n
      ∧ dpack.encodeBin encoder (Timespec.image ⟨mktime host tm, n * 1000000⟩) = (0, encoder')
  := by
  have hcheck (tm : Tm) (n : Int64) :
      hedCheckTime host ⟨mktime host tm, n * 1000000⟩ = 0 ↔ Timely host tm ∧ Scaled n := by
    rw [hedCheckTime_eq_zero_iff, scaled_iff, Timely]
  have hencode (ts : Timespec) (hts : hedCheckTime host ts = 0) :
      hedEncodeTime host dpack encoder ts = some (dpack.encodeBin encoder ts.image) := by
    rw [hedEncodeTime, if_neg (fun h => h.2 hts)]
  constructor
  · intro h
    rw [hedEncodeTimeFromJson] at h
    cases hdate : strptime (cString s) zeroTm with
    | none =>
        rw [hdate] at h
        cases h
    | some p =>
        obtain ⟨tm, asc⟩ := p
        rw [hdate] at h
        dsimp only at h
        split_ifs at h with hret hbad
        · cases h
        · exact absurd (congrArg Prod.fst (Option.some.inj h)) hbad
        · obtain ⟨n, hfraction⟩ := exists_of_sscanf (not_not.mp hret)
          rw [hfraction] at h hbad
          have hts : hedCheckTime host ⟨mktime host tm, n * 1000000⟩ = 0 := not_not.mp hbad
          obtain ⟨htimely, hscaled⟩ := (hcheck tm n).mp hts
          refine ⟨tm, asc, n, rfl, hfraction, htimely, hscaled, ?_⟩
          exact Option.some.inj ((hencode _ hts).symm.trans h)
  · rintro ⟨tm, asc, n, hdate, hfraction, htimely, hscaled, hbin⟩
    have hts := (hcheck tm n).mpr ⟨htimely, hscaled⟩
    rw [hedEncodeTimeFromJson, hdate]
    simp only [hfraction, ne_eq, not_true_eq_false, if_false, List.headD_cons, hts, hencode _ hts,
      hbin]

/-- A string is encoded, if there is room, when its date and its fraction are accepted. -/
theorem exists_encodes (hdpack : dpack.Inverts timespecSize) {tm : Tm} {asc : Text} {n : Int64}
    (hdate : strptime (cString s) zeroTm = some (tm, asc))
    (hfraction : sscanf fractionFormat asc = (1, [n])) (htimely : Timely host tm)
    (hscaled : Scaled n) :
  ∃ encoder encoder',
    hedEncodeTimeFromJson host dpack encoder (.string s) = some (0, encoder')
  := by
  let ts : Timespec := ⟨mktime host tm, n * 1000000⟩
  have hencode := hdpack.encode ⟨[], dpack.binSize timespecSize⟩ ts.image ts.length_image le_rfl
  exact ⟨_, _, encodes_iff.mpr ⟨tm, asc, n, hdate, hfraction, htimely, hscaled, hencode⟩⟩

/-! ### The format -/

/-- What follows the date and the time of day in a string is a point, digits and a `Z`, and
nothing else. -/
def HasOwnFormat (s : Text) : Prop :=
  ∃ tm digits, digits ≠ [] ∧ (∀ c ∈ digits, c.isDigit = true)
    ∧ strptime s zeroTm = some (tm, '.' :: (digits ++ ['Z']))

/-- The string is encoded only if it has the format, however much room there is. -/
def OnlyOwnFormat (host : Host) (dpack : Dpack) (s : Text) : Prop :=
  ∀ encoder encoder', hedEncodeTimeFromJson host dpack encoder (.string s) = some (0, encoder') →
    HasOwnFormat s

/-- A string that is accepted although it deviates from the format.  Its date and its time of
day are in range, what is read after them is a fraction, and the number of the fraction is in
range once it is multiplied; but there are blanks or a sign in front of the number, or something
else than a `Z` behind it, or the string goes on behind the character that ends strings. -/
def Deviates (host : Host) (s : Text) : Prop :=
  ∃ (tm : Tm) (f : Fraction), strptime (cString s) zeroTm = some (tm, f.text) ∧ Timely host tm
    ∧ Scaled f.value ∧ (f.blanks ≠ [] ∨ f.numeral.sign ≠ .none ∨ f.rest ≠ ['Z'] ∨ '\x00' ∈ s)

/-- A string without the character that ends strings is read as a whole. -/
theorem cString_eq (h : '\x00' ∉ s) :
  cString s = s
  := by
  apply List.takeWhile_eq_self_iff.mpr
  intro c hc
  rw [decide_eq_true_iff]
  rintro rfl
  exact h hc

/-- What is read of a string, and what is not. -/
theorem exists_cString_append (h : '\x00' ∈ s) :
  ∃ tail, s = cString s ++ '\x00' :: tail
  := by
  induction s with
  | nil => cases h
  | cons c s ih =>
      by_cases hc : c = '\x00'
      · subst hc
        use s
        rfl
      · obtain ⟨tail, htail⟩ := ih ((List.mem_cons.mp h).resolve_left (Ne.symm hc))
        have hcons : cString (c :: s) = c :: cString s :=
          List.takeWhile_cons_of_pos (decide_eq_true hc)
        use tail
        rw [hcons, List.cons_append]
        exact congrArg (c :: ·) htail

/-- What follows the date of a string with the character that ends strings has that character,
too. -/
theorem mem_of_strptime {tm tm' : Tm} {asc asc' : Text} (h : '\x00' ∈ s)
    (hread : strptime (cString s) zeroTm = some (tm, asc))
    (hall : strptime s zeroTm = some (tm', asc')) :
  '\x00' ∈ asc'
  := by
  obtain ⟨tail, hs⟩ := exists_cString_append h
  have hdigit : '\x00'.isDigit = false := by decide
  have hblank : isBlank '\x00' = false := by decide
  have hscan := scan_append_cons hdigit hblank tail hread
  rw [← hs] at hscan
  have hsame := hall.symm.trans hscan
  obtain ⟨_, rfl⟩ := Prod.mk.inj (Option.some.inj hsame)
  simp

/-- A string whose fraction has nothing that it should not have has the format. -/
theorem hasOwnFormat_of_plain {tm : Tm} {f : Fraction}
    (hdate : strptime (cString s) zeroTm = some (tm, f.text)) (hblanks : f.blanks = [])
    (hsign : f.numeral.sign = .none) (hrest : f.rest = ['Z']) (hnul : '\x00' ∉ s) :
  HasOwnFormat s
  := by
  use tm, f.numeral.digits, f.numeral.digits_ne_nil, f.numeral.isDigit
  rw [cString_eq hnul] at hdate
  rw [hdate, Fraction.text, Numeral.text, hblanks, hsign, hrest]
  rfl

theorem not_hasOwnFormat_of_deviates {tm : Tm} {f : Fraction}
    (hdate : strptime (cString s) zeroTm = some (tm, f.text))
    (h : f.blanks ≠ [] ∨ f.numeral.sign ≠ .none ∨ f.rest ≠ ['Z'] ∨ '\x00' ∈ s) :
  ¬ HasOwnFormat s
  := by
  rintro ⟨tm', digits, hne, hdigit, hall⟩
  have hnul : '\x00' ∉ s := by
    intro hnul
    have hmem := mem_of_strptime hnul hdate hall
    simp only [List.mem_cons, List.mem_append, List.not_mem_nil, or_false] at hmem
    rcases hmem with hpoint | hmem | hzone
    · exact absurd hpoint (by decide)
    · exact absurd (hdigit _ hmem) (by decide)
    · exact absurd hzone (by decide)
  rw [cString_eq hnul, hall] at hdate
  obtain ⟨_, heq⟩ := Prod.mk.inj (Option.some.inj hdate)
  obtain ⟨hblanks, hsign, hrest⟩ := eq_of_digits f.isBlank f.noDigit hne hdigit
    (noDigit_cons (by decide) []) (List.cons.inj heq).2.symm
  rcases h with h | h | h | h
  · exact h hblanks
  · exact h hsign
  · exact h hrest
  · exact hnul h

/-- Only strings in the format are encoded, unless the string deviates from it in a way that
`sscanf` does not tell. -/
theorem own_format_iff (host : Host) (dpack : Dpack) (hdpack : dpack.Inverts timespecSize)
    (s : Text) :
  OnlyOwnFormat host dpack s ↔ ¬ Deviates host s
  := by
  constructor
  · rintro h ⟨tm, f, hdate, htimely, hscaled, hdeviates⟩
    have hfraction := sscanf_fraction_iff.mpr ⟨f, rfl, rfl⟩
    obtain ⟨encoder, encoder', hencode⟩ := exists_encodes hdpack hdate hfraction htimely hscaled
    exact not_hasOwnFormat_of_deviates hdate hdeviates (h encoder encoder' hencode)
  · intro h encoder encoder' hencode
    obtain ⟨tm, _, _, hdate, hfraction, htimely, hscaled, _⟩ := encodes_iff.mp hencode
    obtain ⟨f, rfl, rfl⟩ := sscanf_fraction_iff.mp hfraction
    have hplain : ¬ (f.blanks ≠ [] ∨ f.numeral.sign ≠ .none ∨ f.rest ≠ ['Z'] ∨ '\x00' ∈ s) := by
      intro hdeviates
      exact h ⟨tm, f, hdate, htimely, hscaled, hdeviates⟩
    simp only [not_or, ne_eq, not_not] at hplain
    obtain ⟨hblanks, hsign, hrest, hnul⟩ := hplain
    exact hasOwnFormat_of_plain hdate hblanks hsign hrest hnul

/-- The date and the time of day of the evening. -/
def eveningDate : Text :=
  ['2', '0', '2', '3', '-', '1', '1', '-', '1', '4', 'T', '2', '2', ':', '1', '3', ':', '2', '0']

/-- The evening as it is to be written, and with another zone. -/
def eveningText : Text := eveningDate ++ ['.', '1', '2', '3', 'Z']

def zonedText : Text := eveningDate ++ ['.', '5', '+', '0', '2', ':', '0', '0']

theorem own_format_iff_eveningText :
  OnlyOwnFormat hostUtc messagePack eveningText
  := by
  apply (own_format_iff hostUtc messagePack (messagePack_inverts (by decide)) eveningText).mpr
  rintro ⟨tm, f, hdate, _, _, hdeviates⟩
  apply not_hasOwnFormat_of_deviates hdate hdeviates
  exact ⟨_, ['1', '2', '3'], by decide, List.all_eq_true.mp rfl, rfl⟩

/-- The zone is ignored: the string is encoded as if it were a time of the local zone. -/
theorem zone_ignored :
  hedEncodeTimeFromJson hostUtc messagePack ⟨[], 18⟩ (.string zonedText)
      = some (0, ⟨messagePack.bin (Timespec.image ⟨1700000000, 5000000⟩), 0⟩)
    ∧ ¬ OnlyOwnFormat hostUtc messagePack zonedText
  := by
  have hencode : hedEncodeTimeFromJson hostUtc messagePack ⟨[], 18⟩ (.string zonedText)
      = some (0, ⟨messagePack.bin (Timespec.image ⟨1700000000, 5000000⟩), 0⟩) := by
    decide +kernel
  have hread : (strptime zonedText zeroTm).map Prod.snd
      = some ['.', '5', '+', '0', '2', ':', '0', '0'] := by decide +kernel
  use hencode
  intro h
  obtain ⟨tm, digits, _, _, hall⟩ := h _ _ hencode
  rw [hall] at hread
  have hlast := congrArg List.getLast? (Option.some.inj hread)
  rw [← List.cons_append, List.getLast?_concat] at hlast
  exact absurd hlast (by decide)

/-! ### The milliseconds -/

/-- Whatever is encoded of a string whose fraction is read as `n` has that many milliseconds,
which are less than a second. -/
def EncodesMilliseconds (host : Host) (dpack : Dpack) (s : Text) (n : Int64) : Prop :=
  ∀ encoder encoder', hedEncodeTimeFromJson host dpack encoder (.string s) = some (0, encoder') →
    (0 ≤ n.toInt ∧ n.toInt ≤ 999) ∧ ∃ ts : Timespec, ts.tvNsec.toInt = n.toInt * 1000000
      ∧ dpack.encodeBin encoder ts.image = (0, encoder')

theorem fraction_encodes_iff (host : Host) (dpack : Dpack) (hdpack : dpack.Inverts timespecSize)
    (s : Text) (tm : Tm) (asc : Text) (n : Int64)
    (hdate : strptime (cString s) zeroTm = some (tm, asc))
    (hfraction : sscanf fractionFormat asc = (1, [n])) :
  EncodesMilliseconds host dpack s n
    ↔ (0 ≤ n.toInt ∧ n.toInt ≤ 999) ∨ ¬ Timely host tm ∨ ¬ Scaled n
  := by
  constructor
  · intro h
    by_contra hwrong
    simp only [not_or, not_not] at hwrong
    obtain ⟨hrange, htimely, hscaled⟩ := hwrong
    obtain ⟨encoder, encoder', hencode⟩ := exists_encodes hdpack hdate hfraction htimely hscaled
    exact hrange (h encoder encoder' hencode).1
  · intro h encoder encoder' hencode
    obtain ⟨tm', asc', n', hdate', hfraction', htimely, hscaled, hbin⟩ := encodes_iff.mp hencode
    rw [hdate] at hdate'
    obtain ⟨rfl, rfl⟩ := Prod.mk.inj (Option.some.inj hdate')
    rw [hfraction] at hfraction'
    obtain rfl := (List.cons.inj (congrArg Prod.snd hfraction')).1
    have hrange : 0 ≤ n.toInt ∧ n.toInt ≤ 999 := by
      rcases h with hrange | hnot | hnot
      · exact hrange
      · exact absurd htimely hnot
      · exact absurd hscaled hnot
    use hrange, ⟨mktime host tm, n * 1000000⟩
    exact ⟨toInt_scaled hrange.1 hrange.2, hbin⟩

theorem fraction_encodes_iff_eveningText :
  EncodesMilliseconds hostUtc messagePack eveningText 123
  := by
  have hdpack : messagePack.Inverts timespecSize := messagePack_inverts (by decide)
  have hdate : strptime (cString eveningText) zeroTm
      = some (⟨20, 13, 22, 14, 10, 123⟩, ['.', '1', '2', '3', 'Z']) := by decide +kernel
  have hfraction : sscanf fractionFormat ['.', '1', '2', '3', 'Z'] = (1, [123]) := by
    decide +kernel
  apply (fraction_encodes_iff hostUtc messagePack hdpack eveningText _ _ 123 hdate hfraction).mpr
  left
  decide

/-- The evening, and two to the power of 58 milliseconds. -/
def wrappedText : Text :=
  eveningDate ++ ['.', '2', '8', '8', '2', '3', '0', '3', '7', '6', '1', '5', '1', '7', '1', '1',
    '7', '4', '4', 'Z']

/-- A million times this is a multiple of two to the power of 64. -/
theorem wrapped_milliseconds_encoded :
  (strptime (cString wrappedText) zeroTm).map (fun p => sscanf fractionFormat p.2)
      = some (1, [288230376151711744])
    ∧ hedEncodeTimeFromJson hostUtc messagePack ⟨[], 18⟩ (.string wrappedText)
      = some (0, ⟨messagePack.bin (Timespec.image ⟨1700000000, 0⟩), 0⟩)
    ∧ ¬ EncodesMilliseconds hostUtc messagePack wrappedText 288230376151711744
  := by
  have hencode : hedEncodeTimeFromJson hostUtc messagePack ⟨[], 18⟩ (.string wrappedText)
      = some (0, ⟨messagePack.bin (Timespec.image ⟨1700000000, 0⟩), 0⟩) := by decide +kernel
  refine ⟨by decide +kernel, hencode, ?_⟩
  intro h
  obtain ⟨⟨_, hle⟩, _⟩ := h _ _ hencode
  exact absurd hle (by decide)

end Hed
