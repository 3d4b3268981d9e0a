import Hed.Base.Message
import Hed.Prelude.Calendar
import Hed.Prelude.Layout

/-!
# Times

The functions of `base-impl.c` on `struct timespec`, and what they use of the C library.  The
local time zone of the host is a fixed offset from UTC.
-/

namespace Hed

/-- A `struct timespec`. -/
structure Timespec where
  tvSec : Int64
  tvNsec : Int64
  deriving DecidableEq

/-- The `sizeof` of a `struct timespec`. -/
def timespecSize : ℕ := 16

/-- The bytes of a `struct timespec` in memory. -/
def Timespec.image (ts : Timespec) : Bytes := int64Bytes ts.tvSec ++ int64Bytes ts.tvNsec

/-- The `struct timespec` that some bytes are. -/
def Timespec.ofImage (b : Bytes) : Timespec :=
  ⟨int64OfBytes (b.take 8), int64OfBytes ((b.drop 8).take 8)⟩

@[simp]
theorem Timespec.length_image (ts : Timespec) :
  ts.image.length = timespecSize
  := by
  rw [image, int64Bytes, int64Bytes, List.length_append, length_leBytes, length_leBytes]
  rfl

theorem Timespec.ofImage_image (ts : Timespec) :
  ofImage ts.image = ts
  := by
  have hlength : (int64Bytes ts.tvSec).length = 8 := length_leBytes 8 _
  have hlength' : (int64Bytes ts.tvNsec).length = 8 := length_leBytes 8 _
  rw [ofImage, image, List.take_left' hlength, List.drop_left' hlength,
    List.take_of_length_le hlength'.le, int64OfBytes_int64Bytes, int64OfBytes_int64Bytes]

/-- What the code is compiled with and runs on: whether `CONFIG_HED_ASSERT_API` is set, the
value of `UTIME_TIMET_MAX`, and by how many seconds local time is ahead of UTC. -/
structure Host where
  assertApi : Bool
  timetMax : Int64
  offset : ℤ
  deriving DecidableEq

/-! ### The C library -/

/-- A `struct tm`, without the fields that nothing reads; `tm_isdst` stays zero. -/
structure Tm where
  tmSec : ℤ
  tmMin : ℤ
  tmHour : ℤ
  tmMday : ℤ
  tmMon : ℤ
  tmYear : ℤ
  deriving DecidableEq

def zeroTm : Tm := ⟨0, 0, 0, 0, 0, 0⟩

/-- The fields of a moment. -/
def tmOf (m : Calendar.Moment) : Tm where
  tmSec := m.second
  tmMin := m.minute
  tmHour := m.hour
  tmMday := m.date.day
  tmMon := m.date.month
  tmYear := m.date.year - 1900

/-- `gmtime_r`, which fails when the year does not fit an `int`. -/
def gmtimeR (t : Int64) : Option Tm :=
  let tm := tmOf (Calendar.momentOf t.toInt)
  if -2147483648 ≤ tm.tmYear ∧ tm.tmYear ≤ 2147483647 then some tm else none

/-- The second in UTC of the fields, of which the day and the month may be out of range. -/
def timegm (tm : Tm) : ℤ :=
  Calendar.secondOf (tm.tmYear + 1900) tm.tmMon tm.tmMday tm.tmHour tm.tmMin tm.tmSec

/-- A number of seconds as a `time_t`, or -1 when it does not fit. -/
def timeT (t : ℤ) : Int64 :=
  if -9223372036854775808 ≤ t ∧ t ≤ 9223372036854775807 then Int64.ofInt t else -1

/-- `mktime`, which reads the fields as local time. -/
def mktime (host : Host) (tm : Tm) : Int64 := timeT (timegm tm - host.offset)

open Layout in
/-- The format `%FT%T` of `strftime` and of `strptime`. -/
def timeFormat : List (Item Tm) :=
  [.field ⟨4, 0, 9999, fun tm => tm.tmYear + 1900, fun n tm => { tm with tmYear := n - 1900 },
      by decide, by decide⟩,
    .literal '-',
    .field ⟨2, 1, 12, fun tm => tm.tmMon + 1, fun n tm => { tm with tmMon := n - 1 },
      by decide, by decide⟩,
    .literal '-',
    .field ⟨2, 1, 31, fun tm => tm.tmMday, fun n tm => { tm with tmMday := n },
      by decide, by decide⟩,
    .literal 'T',
    .field ⟨2, 0, 23, fun tm => tm.tmHour, fun n tm => { tm with tmHour := n },
      by decide, by decide⟩,
    .literal ':',
    .field ⟨2, 0, 59, fun tm => tm.tmMin, fun n tm => { tm with tmMin := n },
      by decide, by decide⟩,
    .literal ':',
    .field ⟨2, 0, 61, fun tm => tm.tmSec, fun n tm => { tm with tmSec := n },
      by decide, by decide⟩]

/-- `strftime` with this format, which fails when the text and its end do not fit. -/
def strftime (max : ℕ) (tm : Tm) : Option Text :=
  let time := Layout.print timeFormat tm
  if time.length < max then some time else none

/-- `strptime` with this format: the fields, and the text from the first unread character. -/
def strptime (asc : Text) (tm : Tm) : Option (Tm × Text) :=
  Layout.scan timeFormat asc tm

/-- `snprintf` of a text into a buffer, which it cuts off. -/
def snprintf (size : ℕ) (text : Text) : Text := text.take (size - 1)

/-- A part of a format of `sscanf`. -/
inductive Directive where
  | char (c : Char)
  | ld
  deriving DecidableEq

/-- What a format stores, and whether the input came to its end before a mismatch.  An integer
that a `long` does not hold is stored as the nearest that it holds. -/
def scanDirectives : List Directive → Text → List Int64 × Bool
  | [], _ => ([], false)
  | .char _ :: _, [] => ([], true)
  | .char c :: format, c' :: asc => if c' = c then scanDirectives format asc else ([], false)
  | .ld :: format, asc =>
      match Layout.scanInt (asc.dropWhile Layout.isBlank) with
      | none => ([], (asc.dropWhile Layout.isBlank).isEmpty)
      | some (n, rest) =>
          (Int64.ofIntClamp n :: (scanDirectives format rest).1, (scanDirectives format rest).2)

/-- `sscanf`: the number of values that it stores, or `EOF`, and these values. -/
def sscanf (format : List Directive) (asc : Text) : ℤ × List Int64 :=
  let (stored, eof) := scanDirectives format asc
  (if stored = [] ∧ eof = true then -1 else stored.length, stored)

/-! ### The conversions -/

variable (host : Host) (dpack : Dpack)

def hedCheckTime (ts : Timespec) : ℤ :=
  if ts.tvSec < 0 ∨ ts.tvSec > host.timetMax ∨ ts.tvNsec < 0 ∨ ts.tvNsec ≥ 1000000000 then
    -EINVAL.code
  else 0

/-- `hed_encode_time`; none when its assertion fails. -/
def hedEncodeTime (encoder : Encoder) (ts : Timespec) : Option (ℤ × Encoder) :=
  if host.assertApi = true ∧ hedCheckTime host ts ≠ 0 then none
  else some (dpack.encodeBin encoder ts.image)

/-- `hed_decode_time`: the code it returns, and the time. -/
def hedDecodeTime (decoder : Decoder) : (ℤ × Timespec) × Decoder :=
  match dpack.decodeBincpyEqu decoder timespecSize with
  | ((ret, b), decoder') =>
      let ts := Timespec.ofImage b
      if ret < 0 then ((ret, ts), decoder')
      else if ret = timespecSize then ((hedCheckTime host ts, ts), decoder')
      else ((-EINVAL.code, ts), decoder')

/-- The format `.%ldZ` of the fraction of a second. -/
def fractionFormat : List Directive := [.char '.', .ld, .char 'Z']

/-- `hed_encode_time_from_json`; none when an assertion fails. -/
def hedEncodeTimeFromJson (encoder : Encoder) (obj : JsonObject) : Option (ℤ × Encoder) :=
  match obj with
  | .string s =>
      match strptime (cString s) zeroTm with
      | none => some (-EINVAL.code, encoder)
      | some (tm, asc) =>
          match sscanf fractionFormat asc with
          | (ret, stored) =>
              if ret ≠ 1 then some (-EINVAL.code, encoder)
              else
                let ts : Timespec := ⟨mktime host tm, stored.headD 0 * 1000000⟩
                let ret := hedCheckTime host ts
                if ret ≠ 0 then some (ret, encoder) else hedEncodeTime host dpack encoder ts
  | _ => some (-EINVAL.code, encoder)

/-- `hed_decode_time_to_json`: the object, or the `errno` it sets. -/
def hedDecodeTimeToJson (decoder : Decoder) : Except ℤ JsonObject × Decoder :=
  match hedDecodeTime host dpack decoder with
  | ((ret, ts), decoder') =>
      if ret ≠ 0 then (.error (-ret), decoder')
      else
        match gmtimeR ts.tvSec with
        | none => (.error EINVAL.code, decoder')
        | some tm =>
            match strftime 30 tm with
            | none => (.error EINVAL.code, decoder')
            | some time =>
                (.ok (.string (snprintf 50 (time ++ '.' ::
                  (Layout.paddedInt 3 (ts.tvNsec / 1000000).toInt ++ ['Z'])))), decoder')

end Hed
