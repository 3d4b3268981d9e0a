import Hed.Json.Addresses
import Hed.Prelude.Regex

/-!
# Names

The functions of `base.c`, `base.h` and `base-json.c` on names, which are strings of at most 40
characters.  The characters are those of C: a letter that is not one of ASCII takes several.  The
check of a name matches a pattern with flags that keep its anchors from matching, so that it is
passed by all strings that are not too long.
-/

namespace Hed

/-! ### The check -/

/-- `^[a-zA-Z][a-zA-Z0-9_]*$`. -/
def namePattern : Regex :=
  .cat .bol (.cat (.set Char.isAlpha) (.cat (.star (.set (fun c => c.isAlphanum || c = '_'))) .eol))

/-- What the pattern says of a text: it begins with a letter, and letters, digits and underscores
follow. -/
def IsName (s : Text) : Prop :=
  ∃ c rest, s = c :: rest ∧ c.isAlpha = true ∧ ∀ d ∈ rest, d.isAlphanum = true ∨ d = '_'

/-- The greatest length of a name. -/
def nameSize : ℕ := 40

/-- `hed_chk_name`; what `regcomp` returns is given.  The flags of `regexec` are `REG_NOTBOL` and
`REG_NOTEOL`. -/
def hedChkName (regcomp : ℤ) (value : Text) : ℤ :=
  if nameSize < value.length then -EINVAL.code
  else if regcomp ≠ 0 then -regcomp
  else if namePattern.Matches ⟨true, true⟩ (cString value) then -EINVAL.code
  else 0

/-- The pattern matches what it should if both ends of a text are those of a line. -/
theorem namePattern_matches_iff {s : Text} :
  namePattern.Matches ⟨false, false⟩ s ↔ IsName s
  := by
  rw [namePattern, Regex.matches_bol_iff, Regex.ends_set_ne_nil_iff, IsName]
  simp only [Regex.ends_star_eol_ne_nil_iff, true_and, Bool.or_eq_true, decide_eq_true_iff]

/-- Whatever a text is, it passes the check unless it is too long or `regcomp` fails. -/
theorem hedChkName_eq_zero_iff {regcomp : ℤ} {value : Text} :
  hedChkName regcomp value = 0 ↔ value.length ≤ nameSize ∧ regcomp = 0
  := by
  have hcode : -EINVAL.code ≠ 0 := by decide
  have hmatches : ¬ namePattern.Matches ⟨true, true⟩ (cString value) := by
    rw [namePattern, Regex.matches_bol_iff]
    simp
  rw [hedChkName, if_neg hmatches]
  split_ifs with hlength hregcomp
  · constructor
    · intro h
      contradiction
    · rintro ⟨hle, _⟩
      omega
  · constructor
    · intro h
      omega
    · rintro ⟨_, rfl⟩
      contradiction
  · rw [ne_eq, not_not] at hregcomp
    simp [hregcomp, not_lt.mp hlength]

/-- The check of a name refuses no string for its characters.  Its pattern does tell names from
other strings, but not with the flags that it is matched with. -/
theorem name_check_iff (regcomp : ℤ) (value : Text) :
  (hedChkName regcomp value = 0 ↔ value.length ≤ nameSize ∧ regcomp = 0)
    ∧ (namePattern.Matches ⟨false, false⟩ (cString value) ↔ IsName (cString value))
  := ⟨hedChkName_eq_zero_iff, namePattern_matches_iff⟩

/-! ### The conversions -/

/-- What the functions use of the C library, of dpack and of stroll: the code of `regcomp`, the
strings in messages, and the code of `stroll_lvstr_lend`. -/
structure NameLib where
  regcomp : ℤ
  str : Text → Bytes
  encodeLvstr : Encoder → Text → ℤ × Encoder
  decodeLvstr : Decoder → (ℤ × Text) × Decoder
  decodeLvstrMax : Decoder → ℕ → (ℤ × Text) × Decoder
  lend : Text → ℤ

section Functions

variable (baseAssert : Bool) (lib : NameLib) (json : JsonC)

def hedDecName : Decoding Text := fun decoder =>
  match lib.decodeLvstrMax decoder nameSize with
  | ((ret, value), decoder) =>
      if ret < 0 then ((ret, value), decoder)
      else ((hedChkName lib.regcomp value, value), decoder)

def hedEncName (value : Text) : Encoding := fun encoder =>
  if baseAssert = true ∧ hedChkName lib.regcomp value ≠ 0 then none
  else some (lib.encodeLvstr encoder value)

def hedDecNameToJson : ToJson := fun decoder =>
  match lib.decodeLvstr decoder with
  | ((len, value), decoder) =>
      if len < 0 then (.error (some (-len)), decoder)
      else if hedChkName lib.regcomp value ≠ 0 then
        (.error (some (-hedChkName lib.regcomp value)), decoder)
      else
        match json.newString (cString value) with
        | none => (.error none, decoder)
        | some obj => (.ok obj, decoder)

def hedEncNameFromJson (object : JsonObject) : Encoding := fun encoder =>
  match object with
  | .string s =>
      let str := cString s
      if lib.lend str ≠ 0 then some (lib.lend str, encoder)
      else if hedChkName lib.regcomp str ≠ 0 then some (hedChkName lib.regcomp str, encoder)
      else some (lib.encodeLvstr encoder str)
  | _ => some (-EINVAL.code, encoder)

end Functions

/-- What these libraries promise when `regcomp` does not fail: strings that are not too long are
written if there is room for them and read back, decoding returns the length of the string, it
refuses one that is longer than a maximum, and a string that is not too long can be lent. -/
structure NameLib.Keeps (lib : NameLib) : Prop where
  regcomp : lib.regcomp = 0
  puts : ∀ s, s.length ≤ nameSize →
    Puts (fun encoder => some (lib.encodeLvstr encoder s)) (lib.str s)
  reads : ∀ s rest, s.length ≤ nameSize →
    lib.decodeLvstr ⟨lib.str s ++ rest⟩ = (((s.length : ℤ), s), ⟨rest⟩)
  length : ∀ decoder len s rest, lib.decodeLvstr decoder = ((len, s), rest) → 0 ≤ len →
    len = s.length
  max : ∀ decoder size len s rest, 0 ≤ len → (lib.decodeLvstrMax decoder size = ((len, s), rest)
    ↔ lib.decodeLvstr decoder = ((len, s), rest) ∧ s.length ≤ size)
  lend : ∀ s, s.length ≤ nameSize → lib.lend s = 0

section Laws

variable {baseAssert : Bool} {lib : NameLib} {json : JsonC}

theorem NameLib.Keeps.chk_iff (h : lib.Keeps) {value : Text} :
  hedChkName lib.regcomp value = 0 ↔ value.length ≤ nameSize
  := by
  rw [hedChkName_eq_zero_iff, and_iff_left h.regcomp]

/-- The messages that are decoded hold a string that is not too long. -/
theorem hedDecName_iff (h : lib.Keeps) {decoder rest : Decoder} {s : Text} :
  hedDecName lib decoder = ((0, s), rest)
    ↔ lib.decodeLvstr decoder = (((s.length : ℤ), s), rest) ∧ s.length ≤ nameSize
  := by
  have hlength : (0 : ℤ) ≤ s.length := Int.natCast_nonneg s.length
  rcases hmax : lib.decodeLvstrMax decoder nameSize with ⟨⟨ret, value⟩, d⟩
  rw [hedDecName, hmax]
  constructor
  · intro hzero
    simp only at hzero
    split_ifs at hzero with hret
    · cases hzero
      contradiction
    · obtain ⟨hcodes, rfl⟩ := Prod.mk.inj hzero
      obtain ⟨_, rfl⟩ := Prod.mk.inj hcodes
      rw [not_lt] at hret
      obtain ⟨hdecode, hle⟩ := (h.max decoder nameSize ret value d hret).mp hmax
      rw [← h.length decoder ret value d hdecode hret]
      use hdecode
  · rintro ⟨hdecode, hle⟩
    cases hmax.symm.trans ((h.max decoder nameSize s.length s rest hlength).mpr ⟨hdecode, hle⟩)
    simp [h.chk_iff.mpr hle]

/-- The messages that are decoded to JSON are the same. -/
theorem hedDecNameToJson_iff (h : lib.Keeps) (hjson : json.Allocates) {decoder rest : Decoder}
    {obj : JsonObject} :
  hedDecNameToJson lib json decoder = (.ok obj, rest)
    ↔ ∃ s, hedDecName lib decoder = ((0, s), rest) ∧ obj = .string (cString s)
  := by
  rcases hdecode : lib.decodeLvstr decoder with ⟨⟨len, value⟩, d⟩
  rw [hedDecNameToJson, hdecode]
  simp only [hjson.newString, hedDecName_iff h, hdecode]
  constructor
  · intro hok
    split_ifs at hok with hlen hchk
    · cases hok
    · cases hok
    · rw [not_not, h.chk_iff] at hchk
      cases hok
      use value
      rw [h.length decoder len value rest hdecode (not_lt.mp hlen)]
      use ⟨rfl, hchk⟩
  · rintro ⟨s, ⟨hsame, hle⟩, rfl⟩
    cases hsame
    simp [h.chk_iff.mpr hle]

/-- What the encoder from JSON does with a string that is not too long. -/
theorem hedEncNameFromJson_eq (h : lib.Keeps) {s : Text} (hle : (cString s).length ≤ nameSize) :
  hedEncNameFromJson lib (.string s) = fun encoder => some (lib.encodeLvstr encoder (cString s))
  := by
  funext encoder
  simp [hedEncNameFromJson, h.lend _ hle, h.chk_iff.mpr hle]

/-- What is no string, or one that is too long, is not encoded. -/
theorem length_le_of_hedEncNameFromJson (h : lib.Keeps) {obj : JsonObject}
    {encoder encoder' : Encoder} (hzero : hedEncNameFromJson lib obj encoder = some (0, encoder')) :
  ∃ s, obj = .string s ∧ (cString s).length ≤ nameSize
  := by
  have hcode : -EINVAL.code ≠ 0 := by decide
  cases obj with
  | string s =>
      use s, rfl
      simp only [hedEncNameFromJson] at hzero
      split_ifs at hzero with hlend hchk
      · exact absurd (congrArg Prod.fst (Option.some.inj hzero)) hlend
      · exact absurd (congrArg Prod.fst (Option.some.inj hzero)) hchk
      · rw [not_not] at hchk
        apply h.chk_iff.mp hchk
  | _ => exact absurd (congrArg Prod.fst (Option.some.inj hzero)) hcode

end Laws

/-! ### Names go there and back again -/

namespace Translator

/-- The name that an object of JSON is read as. -/
def readName : JsonObject → Option Text
  | .string s => if (cString s).length ≤ nameSize then some (cString s) else none
  | _ => none

/-- The translator of names.  A message holds what the code of C sees of its string. -/
def name (lib : NameLib) (json : JsonC) : Translator Text where
  Valid s := s.length ≤ nameSize ∧ cString s = s
  form := lib.str
  Holds decoder v rest := ∃ s, hedDecName lib decoder = ((0, s), rest) ∧ cString s = v
  object := .string
  read := readName
  fromJson := hedEncNameFromJson lib
  toJson := hedDecNameToJson lib json

theorem readName_eq_some_iff {obj : JsonObject} {v : Text} :
  readName obj = some v ↔ ∃ s, obj = .string s ∧ cString s = v ∧ v.length ≤ nameSize
  := by
  constructor
  · intro h
    cases obj with
    | string s =>
        rw [readName, Option.ite_none_right_eq_some] at h
        obtain ⟨hle, ⟨⟩⟩ := h
        use s
    | _ => cases h
  · rintro ⟨s, rfl, rfl, hle⟩
    rw [readName, if_pos hle]

theorem cString_cString (s : Text) :
  cString (cString s) = cString s
  := List.takeWhile_idem

theorem length_cString_le (s : Text) :
  (cString s).length ≤ s.length
  := (List.takeWhile_prefix _).length_le

theorem faithful_name {lib : NameLib} {json : JsonC} (h : lib.Keeps) (hjson : json.Allocates) :
  (name lib json).Faithful
  := by
  constructor
  · intro obj v hread
    obtain ⟨s, rfl, rfl, hle⟩ := readName_eq_some_iff.mp hread
    have hputs := h.puts (cString s) hle
    rw [← hedEncNameFromJson_eq h hle] at hputs
    apply hputs
  · intro obj hread encoder encoder' hzero
    obtain ⟨s, rfl, hle⟩ := length_le_of_hedEncNameFromJson h hzero
    cases hread.symm.trans (readName_eq_some_iff.mpr ⟨s, rfl, rfl, hle⟩)
  · intro decoder rest obj
    have hshows : (name lib json).toJson decoder = (.ok obj, rest)
        ↔ ∃ s, hedDecName lib decoder = ((0, s), rest) ∧ obj = .string (cString s) :=
      hedDecNameToJson_iff h hjson
    rw [hshows]
    constructor
    · rintro ⟨s, hdecode, rfl⟩
      obtain ⟨_, hle⟩ := (hedDecName_iff h).mp hdecode
      use cString s, ⟨s, hdecode, rfl⟩, ⟨(length_cString_le s).trans hle, cString_cString s⟩
      rfl
    · rintro ⟨v, ⟨s, hdecode, rfl⟩, _, rfl⟩
      use s, hdecode
      rfl
  · rintro s rest ⟨hle, hsame⟩
    use s, (hedDecName_iff h).mpr ⟨h.reads s rest hle, hle⟩
  · rintro decoder v v' rest rest' ⟨s, hdecode, rfl⟩ ⟨s', hdecode', rfl⟩
    cases hdecode.symm.trans hdecode'
    use rfl
  · intro obj v hread
    obtain ⟨s, rfl, rfl, hle⟩ := readName_eq_some_iff.mp hread
    use hle, cString_cString s
  · rintro s ⟨hle, hsame⟩
    have hread : readName (.string s) = some s :=
      readName_eq_some_iff.mpr ⟨s, rfl, hsame, hle⟩
    apply hread
  · rintro s ⟨⟩

end Translator

/-- Names are written and read back, and translating them between JSON and messages goes there and
back again.  In JSON a name is what the code of C sees of its string. -/
theorem names_round_trip (baseAssert : Bool) (lib : NameLib) (json : JsonC) (hlib : lib.Keeps)
    (hjson : json.Allocates) :
  (∀ s, s.length ≤ nameSize → Puts (hedEncName baseAssert lib s) (lib.str s)
      ∧ ∀ rest, hedDecName lib ⟨lib.str s ++ rest⟩ = ((0, s), ⟨rest⟩))
    ∧ Translator.RoundTrips (hedEncNameFromJson lib) (hedDecNameToJson lib json)
      (fun decoder v rest => ∃ s, hedDecName lib decoder = ((0, s), rest) ∧ cString s = v)
  := by
  constructor
  · intro s hle
    constructor
    · intro encoder
      have hassert : ¬(baseAssert = true ∧ hedChkName lib.regcomp s ≠ 0) := by
        simp [hlib.chk_iff.mpr hle]
      rw [hedEncName, if_neg hassert]
      apply hlib.puts s hle
    · intro rest
      apply (hedDecName_iff hlib).mpr
      use hlib.reads s rest hle
  · apply (Translator.faithful_name hlib hjson).roundTrips
    rintro decoder v rest
    constructor
    · rintro ⟨s, hdecode, rfl⟩
      obtain ⟨_, hle⟩ := (hedDecName_iff hlib).mp hdecode
      use ⟨s, hdecode, rfl⟩, (Translator.length_cString_le s).trans hle
      apply Translator.cString_cString
    · rintro ⟨hholds, _⟩
      apply hholds

/-- The octets of a character: one of ASCII is a single octet. -/
def charOctets (c : Char) : Bytes :=
  if c.toNat < 255 then MsgPack.bigEndian 1 c.toNat else 255 :: MsgPack.bigEndian 3 c.toNat

/-- Read a character. -/
def readChar : Bytes → Option (Char × Bytes)
  | [] => none
  | b :: rest =>
      if b.val < 255 then some (Char.ofNat b.val, rest)
      else (MsgPack.readOctets 3 rest).map (fun r => (Char.ofNat r.1, r.2))

/-- Read some characters. -/
def readChars : ℕ → Bytes → Option (Text × Bytes)
  | 0, b => some ([], b)
  | n + 1, b =>
      (readChar b).bind (fun r => (readChars n r.2).map (fun q => (r.1 :: q.1, q.2)))

theorem readChar_charOctets (c : Char) (rest : Bytes) :
  readChar (charOctets c ++ rest) = some (c, rest)
  := by
  rw [charOctets]
  split_ifs with hc
  · have hoctet : c.toNat / 256 ^ 0 % 256 = c.toNat := by omega
    rw [MsgPack.bigEndian, List.cons_append, readChar]
    simp only [hoctet, hc, if_true, Char.ofNat_toNat]
    rfl
  · have hlt : c.toNat < 256 ^ 3 := by
      have hvalid : c.toNat < 0xd800 ∨ 0xdfff < c.toNat ∧ c.toNat < 0x110000 := c.valid
      omega
    have hread := MsgPack.readOctets_bigEndian hlt rest
    rw [List.cons_append, readChar, hread, Option.map_some, Char.ofNat_toNat]
    rfl

theorem readChars_flatMap (s : Text) (rest : Bytes) :
  readChars s.length (s.flatMap charOctets ++ rest) = some (s, rest)
  := by
  induction s with
  | nil => rfl
  | cons c s ih =>
      rw [List.flatMap_cons, List.append_assoc, List.length_cons, readChars, readChar_charOctets,
        Option.bind_some, ih]
      rfl

/-- Read a string. -/
def decodeString (decoder : Decoder) : (ℤ × Text) × Decoder :=
  match (MsgPack.readStr decoder.input).bind (fun r => readChars r.1 r.2) with
  | none => ((-EPROTO.code, []), decoder)
  | some (s, rest) => ((s.length, s), ⟨rest⟩)

/-- Decoding fails, or it returns the length of the string. -/
theorem decodeString_cases (decoder : Decoder) :
  (decodeString decoder).1.1 < 0
    ∨ (decodeString decoder).1.1 = (decodeString decoder).1.2.length
  := by
  have hcode : -EPROTO.code < 0 := by decide
  rw [decodeString]
  split
  · left
    apply hcode
  · right
    rfl

/-- The strings of MessagePack. -/
def messagePackName : NameLib where
  regcomp := 0
  str s := MsgPack.str s.length ++ s.flatMap charOctets
  encodeLvstr encoder s := putForm encoder (MsgPack.str s.length ++ s.flatMap charOctets)
  decodeLvstr := decodeString
  decodeLvstrMax decoder size :=
    if 0 ≤ (decodeString decoder).1.1 ∧ size < (decodeString decoder).1.2.length then
      ((-EMSGSIZE.code, []), decoder)
    else decodeString decoder
  lend _ := 0

theorem messagePackName_keeps :
  messagePackName.Keeps
  := by
  constructor
  · rfl
  · intro s _
    apply puts_putForm
  · intro s rest hle
    have hlt : s.length < 256 ^ 4 := lt_of_le_of_lt hle (by decide)
    have hread : (MsgPack.readStr (MsgPack.str s.length ++ s.flatMap charOctets ++ rest)).bind
        (fun r => readChars r.1 r.2) = some (s, rest) := by
      rw [List.append_assoc, MsgPack.readStr_str hlt, Option.bind_some, readChars_flatMap]
    simp only [messagePackName, decodeString, hread]
  · intro decoder len s rest hdecode hlen
    have hcases := decodeString_cases decoder
    have hdecode' : decodeString decoder = ((len, s), rest) := hdecode
    rw [hdecode'] at hcases
    apply hcases.resolve_left (not_lt.mpr hlen)
  · intro decoder size len s rest hlen
    rcases hdecode : decodeString decoder with ⟨⟨len', s'⟩, d⟩
    simp only [messagePackName, hdecode]
    split_ifs with hsize
    · constructor
      · rintro ⟨⟩
        exact absurd hlen (by decide)
      · rintro ⟨⟨⟩, hle⟩
        omega
    · constructor
      · rintro ⟨⟩
        use rfl
        by_contra hlt
        apply hsize ⟨hlen, not_le.mp hlt⟩
      · rintro ⟨hsame, _⟩
        apply hsame
  · intro s _
    rfl

theorem names_round_trip_messagePack :
  Translator.RoundTrips (hedEncNameFromJson messagePackName)
    (hedDecNameToJson messagePackName jsonC)
    (fun decoder v rest => ∃ s, hedDecName messagePackName decoder = ((0, s), rest)
      ∧ cString s = v)
  := (names_round_trip true messagePackName jsonC messagePackName_keeps jsonC_allocates).2

end Hed
