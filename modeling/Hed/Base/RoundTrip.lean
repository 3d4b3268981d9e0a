import Hed.Base.Time

/-!
# Times in JSON

What the conversion to JSON makes of a time, and what the conversion back makes of that: the
first prints the time in UTC, the second reads it in the time zone of the host.
-/

namespace Hed

open Layout

/-! ### Seconds -/

theorem hedCheckTime_eq_zero_iff {host : Host} {ts : Timespec} :
  hedCheckTime host ts = 0
    ↔ (0 ≤ ts.tvSec.toInt ∧ ts.tvSec.toInt ≤ host.timetMax.toInt)
      ∧ 0 ≤ ts.tvNsec.toInt ∧ ts.tvNsec.toInt < 1000000000
  := by
  have hzero : (0 : Int64).toInt = 0 := rfl
  have hmax : (1000000000 : Int64).toInt = 1000000000 := rfl
  have hcode : -EINVAL.code ≠ 0 := by decide
  rw [hedCheckTime]
  simp only [gt_iff_lt, ge_iff_le, Int64.lt_iff_toInt_lt, Int64.le_iff_toInt_le, hzero, hmax]
  split_ifs with h
  · constructor
    · intro hret
      exact absurd hret hcode
    · omega
  · constructor
    · omega
    · intro _
      rfl

/-- A second that a `time_t` holds is that `time_t`. -/
theorem timeT_toInt (t : Int64) :
  timeT t.toInt = t
  := by
  have hlo := t.le_toInt
  have hhi := t.toInt_lt
  rw [timeT, if_pos (by omega), Int64.ofInt_toInt]

/-- The second that comes back as a valid `time_t` is the one that it came from. -/
theorem eq_of_timeT_eq {n : ℤ} {t : Int64} (h : timeT n = t) (ht : 0 ≤ t.toInt) :
  n = t.toInt
  := by
  rw [timeT] at h
  split_ifs at h with hrange
  · rw [← h, Int64.toInt_ofInt_of_le]
    · omega
    · omega
  · rw [← h] at ht
    exact absurd ht (by decide)

/-- `timegm` undoes `gmtime_r`. -/
theorem timegm_tmOf (t : ℤ) :
  timegm (tmOf (Calendar.momentOf t)) = t
  := by
  have h := Calendar.secondOf_momentOf t
  rw [timegm, tmOf, sub_add_cancel]
  exact h

theorem mktime_tmOf (host : Host) (t : ℤ) :
  mktime host (tmOf (Calendar.momentOf t)) = timeT (t - host.offset)
  := by
  rw [mktime, timegm_tmOf]

/-! ### The date and the time of day -/

/-- The UTC year of a time. -/
def Timespec.year (ts : Timespec) : ℤ := (Calendar.momentOf ts.tvSec.toInt).date.year

/-- A moment in a year of four digits fits the format. -/
theorem fits_tmOf {m : Calendar.Moment} (hlo : 0 ≤ m.date.year) (hhi : m.date.year ≤ 9999) :
  Fits timeFormat (tmOf m)
  := by
  have hmonth := m.date.month_lt
  have hpos := m.date.day_pos
  have hday := le_trans m.date.day_le (Calendar.monthLength_le _ _)
  have hhour := m.hour_lt
  have hminute := m.minute_lt
  have hsecond := m.second_lt
  have hhour' := m.hour_nonneg
  have hminute' := m.minute_nonneg
  have hsecond' := m.second_nonneg
  simp only [timeFormat, Fits, tmOf, and_true]
  omega

/-- `strptime` fills in all that `strftime` prints. -/
theorem copy_timeFormat (tm : Tm) :
  copy timeFormat tm zeroTm = tm
  := by
  simp only [timeFormat, copy, add_sub_cancel_right]

/-! ### The fraction of a second -/

/-- A time, its fraction of a second rounded down to whole milliseconds. -/
def Timespec.roundDown (ts : Timespec) : Timespec :=
  ⟨ts.tvSec, Int64.ofInt (ts.tvNsec.toInt - ts.tvNsec.toInt % 1000000)⟩

/-- The milliseconds that are printed, as a number of three digits. -/
theorem exists_msec {n : Int64} (hlo : 0 ≤ n.toInt) (hhi : n.toInt < 1000000000) :
  ∃ k : ℕ, k < 1000 ∧ (k : ℤ) = n.toInt / 1000000 ∧ (n / 1000000).toInt = k
  := by
  have hdiv : (n / 1000000).toInt = n.toInt / 1000000 := by
    have hmillion : (1000000 : Int64).toInt = 1000000 := rfl
    rw [Int64.toInt_div_of_ne_right _ _ (by decide), hmillion, Int.tdiv_eq_ediv_of_nonneg hlo]
  use (n.toInt / 1000000).toNat
  refine ⟨?_, ?_, ?_⟩
  · omega
  · omega
  · rw [hdiv]
    omega

/-- Scanning milliseconds and making nanoseconds of them gives the time rounded down. -/
theorem scaled_msec {n : Int64} (hlo : 0 ≤ n.toInt) (hhi : n.toInt < 1000000000) {k : ℕ}
    (hk : (n / 1000000).toInt = k) (hdiv : (k : ℤ) = n.toInt / 1000000) :
  Int64.ofIntClamp k * 1000000 = Int64.ofInt (n.toInt - n.toInt % 1000000)
  := by
  have hmillion : (1000000 : Int64).toInt = 1000000 := rfl
  have hdown : (Int64.ofInt (n.toInt - n.toInt % 1000000)).toInt = n.toInt - n.toInt % 1000000 := by
    apply Int64.toInt_ofInt_of_le
    · omega
    · omega
  rw [← hk, Int64.ofIntClamp_toInt]
  apply Int64.toInt.inj
  rw [Int64.toInt_mul, hmillion, hk, hdown, Int.bmod_eq_of_le]
  · omega
  · omega
  · omega

/-- What is scanned of three digits between a point and a `Z`. -/
theorem sscanf_fraction (k : ℕ) :
  sscanf fractionFormat ('.' :: (padded 3 k ++ ['Z'])) = (1, [Int64.ofIntClamp k])
  := by
  have hscan : scanDirectives fractionFormat ('.' :: (padded 3 k ++ ['Z']))
      = ([Int64.ofIntClamp k], false) := by
    rw [fractionFormat, scanDirectives, if_pos rfl, scanDirectives, dropWhile_isBlank_padded,
      scanInt_padded 3 k (by decide)]
    rfl
  rw [sscanf, hscan]
  rfl

/-! ### The text of a time -/

/-- The text of a time. -/
def Timespec.text (ts : Timespec) : Text :=
  print timeFormat (tmOf (Calendar.momentOf ts.tvSec.toInt)) ++
    '.' :: (padded 3 (ts.tvNsec.toInt / 1000000).toNat ++ ['Z'])

/-- The times of the statements below: they pass the check and are in a year of four digits. -/
structure Timespec.Printable (host : Host) (ts : Timespec) : Prop where
  check : hedCheckTime host ts = 0
  year : ts.year ≤ 9999

variable {host : Host} {dpack : Dpack} {ts : Timespec}

theorem Timespec.Printable.year_ge (h : ts.Printable host) :
  1970 ≤ ts.year
  := by
  obtain ⟨⟨hsec, _⟩, _⟩ := hedCheckTime_eq_zero_iff.mp h.check
  exact Calendar.le_year_momentOf_iff.mpr hsec

theorem Timespec.Printable.fits (h : ts.Printable host) :
  Fits timeFormat (tmOf (Calendar.momentOf ts.tvSec.toInt))
  := fits_tmOf (le_trans (by decide) h.year_ge) h.year

theorem Timespec.Printable.gmtimeR (h : ts.Printable host) :
  gmtimeR ts.tvSec = some (tmOf (Calendar.momentOf ts.tvSec.toInt))
  := by
  have hlo := h.year_ge
  have hhi := h.year
  rw [Timespec.year] at hlo hhi
  apply if_pos
  simp only [tmOf]
  omega

theorem Timespec.Printable.length_text (h : ts.Printable host) :
  ts.text.length = 24
  := by
  obtain ⟨_, hlo, hhi⟩ := hedCheckTime_eq_zero_iff.mp h.check
  rw [text, List.length_append, length_print h.fits, List.length_cons, List.length_append,
    length_padded (by decide) (by omega)]
  rfl

/-- The text has no character that ends a string. -/
theorem Timespec.Printable.cString_text (h : ts.Printable host) :
  cString ts.text = ts.text
  := by
  apply List.takeWhile_eq_self_iff.mpr
  intro c hc
  rw [decide_eq_true_iff]
  rintro rfl
  rw [text] at hc
  simp only [List.mem_append, List.mem_cons, List.not_mem_nil, or_false] at hc
  rcases hc with hdate | hpoint | hdigit | hzone
  · rcases mem_print h.fits hdate with hdigit | hliteral
    · exact absurd hdigit (by decide)
    · simp [timeFormat] at hliteral
  · exact absurd hpoint (by decide)
  · exact absurd (isDigit_of_mem_padded hdigit) (by decide)
  · exact absurd hzone (by decide)

/-- A printable time converts to the string of its text. -/
theorem hedDecodeTimeToJson_eq (hdpack : dpack.Inverts timespecSize) (h : ts.Printable host)
    (rest : Bytes) :
  hedDecodeTimeToJson host dpack ⟨dpack.bin ts.image ++ rest⟩ = (.ok (.string ts.text), ⟨rest⟩)
  := by
  obtain ⟨_, hlo, hhi⟩ := hedCheckTime_eq_zero_iff.mp h.check
  obtain ⟨k, _, hk, hmsec⟩ := exists_msec hlo hhi
  have hdecode : hedDecodeTime host dpack ⟨dpack.bin ts.image ++ rest⟩ = ((0, ts), ⟨rest⟩) := by
    have hread := hdpack.decode ts.image rest ts.length_image
    rw [hedDecodeTime, hread]
    simp only [Timespec.ofImage_image, h.check]
    rfl
  have htime : strftime 30 (tmOf (Calendar.momentOf ts.tvSec.toInt))
      = some (print timeFormat (tmOf (Calendar.momentOf ts.tvSec.toInt))) := by
    apply if_pos
    rw [length_print h.fits]
    decide
  have hfraction : paddedInt 3 (ts.tvNsec / 1000000).toInt
      = padded 3 (ts.tvNsec.toInt / 1000000).toNat := by
    rw [hmsec, ← hk, Int.toNat_natCast, paddedInt, if_neg (by omega), Int.natAbs_natCast]
  have hfits : snprintf 50 ts.text = ts.text := by
    apply List.take_of_length_le
    rw [h.length_text]
    decide
  rw [hedDecodeTimeToJson, hdecode]
  simp only [ne_eq, not_true_eq_false, if_false, h.gmtimeR, htime, hfraction]
  exact congrArg (fun asc => (Except.ok (JsonObject.string asc), Decoder.mk rest)) hfits

/-- The text of a printable time converts to the time that the host reads in it. -/
theorem hedEncodeTimeFromJson_eq (dpack : Dpack) (h : ts.Printable host) (encoder : Encoder) :
  hedEncodeTimeFromJson host dpack encoder (.string ts.text)
    = let read := ⟨timeT (ts.tvSec.toInt - host.offset), ts.roundDown.tvNsec⟩
      if hedCheckTime host read ≠ 0 then some (hedCheckTime host read, encoder)
      else hedEncodeTime host dpack encoder read
  := by
  obtain ⟨_, hlo, hhi⟩ := hedCheckTime_eq_zero_iff.mp h.check
  obtain ⟨k, _, hk, hmsec⟩ := exists_msec hlo hhi
  have hscan : strptime ts.text zeroTm
      = some (tmOf (Calendar.momentOf ts.tvSec.toInt), '.' :: (padded 3 k ++ ['Z'])) := by
    rw [strptime, Timespec.text, scan_print h.fits, copy_timeFormat, ← hk, Int.toNat_natCast]
  rw [hedEncodeTimeFromJson, h.cString_text, hscan]
  simp only [sscanf_fraction, ne_eq, not_true_eq_false, if_false, List.headD_cons, mktime_tmOf,
    scaled_msec hlo hhi hmsec hk, Timespec.roundDown]
  rfl

/-! ### There and back -/

theorem hedEncodeTime_eq (hdpack : dpack.Inverts timespecSize) (hcheck : hedCheckTime host ts = 0)
    {encoder : Encoder} (hroom : dpack.binSize timespecSize ≤ encoder.room) :
  hedEncodeTime host dpack encoder ts = some (0, encoder.put (dpack.bin ts.image))
  := by
  have hassert : ¬(host.assertApi = true ∧ hedCheckTime host ts ≠ 0) := by simp [hcheck]
  rw [hedEncodeTime, if_neg hassert, hdpack.encode encoder ts.image ts.length_image hroom]

theorem hedCheckTime_roundDown (hcheck : hedCheckTime host ts = 0) :
  hedCheckTime host ts.roundDown = 0
  := by
  rw [hedCheckTime_eq_zero_iff] at hcheck ⊢
  have hdown : ts.roundDown.tvNsec.toInt = ts.tvNsec.toInt - ts.tvNsec.toInt % 1000000 := by
    apply Int64.toInt_ofInt_of_le
    · omega
    · omega
  rw [hdown]
  exact ⟨hcheck.1, by omega, by omega⟩

/-- Converting the message of a time to JSON and back writes the message of the time, rounded
down to milliseconds. -/
def Survives (host : Host) (dpack : Dpack) (encoder : Encoder) (ts : Timespec) : Prop :=
  ∃ obj, (hedDecodeTimeToJson host dpack ⟨dpack.bin ts.image⟩).1 = .ok obj ∧
    hedEncodeTimeFromJson host dpack encoder obj
      = some (0, encoder.put (dpack.bin ts.roundDown.image))

/-- A time survives the way to JSON and back exactly on a host whose local time is UTC. -/
theorem time_survives_json_iff (host : Host) (dpack : Dpack) (ts : Timespec) (encoder : Encoder)
    (hdpack : dpack.Inverts timespecSize) (h : ts.Printable host)
    (hroom : dpack.binSize timespecSize ≤ encoder.room) :
  Survives host dpack encoder ts ↔ host.offset = 0
  := by
  obtain ⟨⟨hsec, _⟩, _⟩ := hedCheckTime_eq_zero_iff.mp h.check
  have hdecode := hedDecodeTimeToJson_eq hdpack h []
  have hencode := hedEncodeTimeFromJson_eq dpack h encoder
  rw [List.append_nil] at hdecode
  constructor
  · rintro ⟨obj, hobj, hback⟩
    rw [hdecode] at hobj
    obtain rfl := Except.ok.inj hobj
    rw [hencode] at hback
    dsimp only at hback
    split_ifs at hback with hcheck
    · exact absurd (congrArg Prod.fst (Option.some.inj hback)) hcheck
    · rw [ne_eq, not_not] at hcheck
      rw [hedEncodeTime_eq hdpack hcheck hroom] at hback
      have hput := congrArg Prod.snd (Option.some.inj hback)
      have himage := hdpack.bin_inj (Timespec.length_image _) (Timespec.length_image _)
        (Encoder.put_inj hput)
      have hread := congrArg Timespec.ofImage himage
      rw [Timespec.ofImage_image, Timespec.ofImage_image] at hread
      have hsame : timeT (ts.tvSec.toInt - host.offset) = ts.tvSec := congrArg Timespec.tvSec hread
      have hshift := eq_of_timeT_eq hsame hsec
      omega
  · intro hoffset
    use .string ts.text, congrArg Prod.fst hdecode
    rw [hencode, hoffset, sub_zero, timeT_toInt]
    have hcheck := hedCheckTime_roundDown h.check
    rw [← hedEncodeTime_eq hdpack hcheck hroom]
    exact if_neg (not_not.mpr hcheck)

/-- A host whose local time is UTC, and one an hour ahead of it. -/
def hostUtc : Host := ⟨true, Int64.maxValue, 0⟩

def hostAhead : Host := ⟨true, Int64.maxValue, 3600⟩

/-- The evening of 14 November 2023, with nanoseconds. -/
def evening : Timespec := ⟨1700000000, 123456789⟩

theorem printable_evening {host : Host} (h : hedCheckTime host evening = 0) :
  evening.Printable host
  := ⟨h, by decide +kernel⟩

theorem time_survives_json_iff_hostUtc :
  Survives hostUtc messagePack ⟨[], 18⟩ evening
  := by
  have hdpack : messagePack.Inverts timespecSize := messagePack_inverts (by decide)
  have hprintable : evening.Printable hostUtc := printable_evening (by decide +kernel)
  apply (time_survives_json_iff hostUtc messagePack evening ⟨[], 18⟩ hdpack hprintable _).mpr
  · rfl
  · decide

/-- An hour ahead of UTC the time comes back an hour early, and both conversions succeed. -/
theorem json_time_an_hour_early :
  evening.Printable hostAhead ∧ messagePack.Inverts timespecSize
    ∧ (∃ obj,
      (hedDecodeTimeToJson hostAhead messagePack ⟨messagePack.bin evening.image⟩).1 = .ok obj
      ∧ hedEncodeTimeFromJson hostAhead messagePack ⟨[], 18⟩ obj
        = some (0, ⟨messagePack.bin (Timespec.image ⟨1699996400, 123000000⟩), 0⟩))
    ∧ ¬Survives hostAhead messagePack ⟨[], 18⟩ evening
  := by
  have hdpack : messagePack.Inverts timespecSize := messagePack_inverts (by decide)
  have hprintable : evening.Printable hostAhead := printable_evening (by decide +kernel)
  have hdecode := congrArg Prod.fst (hedDecodeTimeToJson_eq hdpack hprintable [])
  rw [List.append_nil] at hdecode
  have hencode : hedEncodeTimeFromJson hostAhead messagePack ⟨[], 18⟩ (.string evening.text)
      = some (0, ⟨messagePack.bin (Timespec.image ⟨1699996400, 123000000⟩), 0⟩) := by
    rw [hedEncodeTimeFromJson_eq messagePack hprintable]
    decide +kernel
  refine ⟨hprintable, hdpack, ⟨_, hdecode, hencode⟩, ?_⟩
  rintro ⟨obj, hobj, hback⟩
  rw [hdecode] at hobj
  obtain rfl := Except.ok.inj hobj
  rw [hencode] at hback
  exact absurd hback (by decide +kernel)

end Hed
