import Hed.Base.Enumeration
import Hed.Json.Addresses

/-!
# Enumerations in messages and in JSON

In a message a value of an enumeration is an integer, and in JSON it is a name.  The encoders do
not check that a value has a name, the decoders do.  From JSON any object is taken whose text is a
name, such as an integer that is written like one.
-/

namespace Hed

/-- What the conversions of enumerations use of other libraries: `stroll_array_bisect_search`,
`json_object_get_string`, with the `errno` that it leaves, and the integers of dpack. -/
structure EnumLib where
  bisectSearch : (BisectEntry → ℤ) → List BisectEntry → Option BisectEntry
  getString : JsonObject → Option Text × ℤ
  int : Int32 → Bytes
  encodeInt : Encoder → Int32 → ℤ × Encoder
  decodeInt : Decoder → (ℤ × Int32) × Decoder

def EnumLib.intCodec (lib : EnumLib) : Codec Int32 where
  form := lib.int
  encode value encoder := some (lib.encodeInt encoder value)
  decode := lib.decodeInt

/-- What these libraries promise. -/
structure EnumLib.Keeps (lib : EnumLib) : Prop where
  searches : Bisect.Searches lib.bisectSearch
  getString : ∀ s, lib.getString (.string s) = (some s, 0)
  int : lib.intCodec.Lawful

/-! ### The conversions -/

section Family

variable (lib : EnumLib) (json : JsonC) (array : BisectArray)

/-- The family `hed_dec_*` of the enumerations. -/
def decEnum : Decoding Int32 := decScalar (chkEnum array) lib.decodeInt

/-- The family `hed_enc_*` of the enumerations. -/
def encEnum (value : Int32) : Encoding := fun encoder => some (lib.encodeInt encoder value)

/-- The family `hed_dec_*_to_json` of the enumerations. -/
def decEnumToJson : ToJson := fun decoder =>
  match lib.decodeInt decoder with
  | ((ret, value), decoder) =>
      if ret ≠ 0 then (.error (some (-ret)), decoder)
      else
        match enumToStr array value with
        | none => (.error (some EINVAL.code), decoder)
        | some str =>
            match json.newString str with
            | none => (.error none, decoder)
            | some obj => (.ok obj, decoder)

/-- The family `hed_enc_*_from_json` of the enumerations; none when there is no text to look up. -/
def encEnumFromJson (object : JsonObject) : Encoding := fun encoder =>
  match lib.getString object with
  | (str, errno) =>
      if errno ≠ 0 then some (-errno, encoder)
      else
        str.bind (fun str =>
          match enumFromStr lib.bisectSearch array (cString str) with
          | .error ret => some (ret, encoder)
          | .ok value => some (lib.encodeInt encoder value))

end Family

section Members

variable (lib : EnumLib) (json : JsonC)

def hedDecBauds : Decoding Int32 := decEnum lib hedBaudsBisectArray

def hedEncBauds : Int32 → Encoding := encEnum lib

def hedDecBaudsToJson : ToJson := decEnumToJson lib json hedBaudsBisectArray

def hedEncBaudsFromJson : JsonObject → Encoding := encEnumFromJson lib hedBaudsBisectArray

def hedDecToggle : Decoding Int32 := decEnum lib hedToggleBisectArray

def hedEncToggle : Int32 → Encoding := encEnum lib

def hedDecToggleToJson : ToJson := decEnumToJson lib json hedToggleBisectArray

def hedEncToggleFromJson : JsonObject → Encoding := encEnumFromJson lib hedToggleBisectArray

def hedDecPower : Decoding Int32 := decEnum lib hedPowerBisectArray

def hedEncPower : Int32 → Encoding := encEnum lib

def hedDecPowerToJson : ToJson := decEnumToJson lib json hedPowerBisectArray

def hedEncPowerFromJson : JsonObject → Encoding := encEnumFromJson lib hedPowerBisectArray

def hedDecLinkState : Decoding Int32 := decEnum lib hedLinkStateBisectArray

def hedEncLinkState : Int32 → Encoding := encEnum lib

def hedDecLinkStateToJson : ToJson := decEnumToJson lib json hedLinkStateBisectArray

def hedEncLinkStateFromJson : JsonObject → Encoding := encEnumFromJson lib hedLinkStateBisectArray

def hedDecIpType : Decoding Int32 := decEnum lib hedIpTypeBisectArray

def hedEncIpType : Int32 → Encoding := encEnum lib

def hedDecIpTypeToJson : ToJson := decEnumToJson lib json hedIpTypeBisectArray

def hedEncIpTypeFromJson : JsonObject → Encoding := encEnumFromJson lib hedIpTypeBisectArray

end Members

/-! ### Their translator -/

namespace Translator

variable (lib : EnumLib) (json : JsonC) (array : BisectArray)

/-- The value that an object of JSON is read as. -/
def readEnum (obj : JsonObject) : Option Int32 :=
  if (lib.getString obj).2 = 0 then
    (lib.getString obj).1.bind (fun str =>
      (enumFromStr lib.bisectSearch array (cString str)).toOption)
  else none

/-- The object of a value is its name. -/
def enumObject (value : Int32) : JsonObject := .string ((enumToStr array value).getD [])

/-- The translator of an enumeration: an integer in a message, and a name in JSON. -/
def enumeration : Translator Int32 where
  Valid value := chkEnum array value = 0
  form := lib.int
  Holds decoder value rest := lib.decodeInt decoder = ((0, value), rest)
  object := enumObject array
  read := readEnum lib array
  fromJson := encEnumFromJson lib array
  toJson := decEnumToJson lib json array

variable {lib json array}

theorem readEnum_eq_some_iff {obj : JsonObject} {value : Int32} :
  readEnum lib array obj = some value
    ↔ ∃ str, lib.getString obj = (some str, 0)
      ∧ enumFromStr lib.bisectSearch array (cString str) = .ok value
  := by
  have hoption (r : Except ℤ Int32) : r.toOption = some value ↔ r = .ok value := by
    cases r with
    | error ret => simp [Except.toOption]
    | ok value' => simp [Except.toOption]
  rcases hget : lib.getString obj with ⟨str, errno⟩
  rw [readEnum, hget, Option.ite_none_right_eq_some, Option.bind_eq_some_iff]
  simp only [hoption, Prod.mk.injEq]
  constructor
  · rintro ⟨rfl, str, rfl, hvalue⟩
    use str, ⟨rfl, rfl⟩
  · rintro ⟨str, ⟨rfl, rfl⟩, hvalue⟩
    use rfl, str

/-- What the encoder from JSON takes, if it succeeds, is the name of a value. -/
theorem exists_of_encEnumFromJson {obj : JsonObject} {encoder encoder' : Encoder}
    (h : encEnumFromJson lib array obj encoder = some (0, encoder')) :
  ∃ value, readEnum lib array obj = some value
  := by
  rcases hget : lib.getString obj with ⟨str, errno⟩
  rw [encEnumFromJson, hget] at h
  simp only at h
  split_ifs at h with herrno
  · have hzero : -errno = 0 := congrArg Prod.fst (Option.some.inj h)
    omega
  · rw [ne_eq, not_not] at herrno
    subst herrno
    obtain ⟨str, rfl, hstr⟩ := Option.bind_eq_some_iff.mp h
    rcases hvalue : enumFromStr lib.bisectSearch array (cString str) with ret | value
    · rcases enumFromStr_cases (cString str) with ⟨value, hok⟩ | herror
      · cases hvalue.symm.trans hok
      · rw [herror] at hstr
        have hcode : -EINVAL.code = 0 := congrArg Prod.fst (Option.some.inj hstr)
        exact absurd hcode (by decide)
    · use value
      apply readEnum_eq_some_iff.mpr
      use str, hget

theorem decEnumToJson_iff (hjson : json.Allocates) {decoder rest : Decoder} {obj : JsonObject} :
  decEnumToJson lib json array decoder = (.ok obj, rest)
    ↔ ∃ value, lib.decodeInt decoder = ((0, value), rest) ∧ chkEnum array value = 0
      ∧ obj = enumObject array value
  := by
  rcases hdecode : lib.decodeInt decoder with ⟨⟨ret, value⟩, d⟩
  rw [decEnumToJson, hdecode]
  simp only [hjson.newString]
  constructor
  · intro h
    split_ifs at h with hret
    · cases h
    rw [not_not] at hret
    subst hret
    rcases hstr : enumToStr array value with _ | str
    · rw [hstr] at h
      cases h
    · rw [hstr] at h
      cases h
      use value, rfl, chkEnum_eq_zero_iff.mpr ⟨str, hstr⟩
      rw [enumObject, hstr, Option.getD_some]
  · rintro ⟨value', ⟨⟩, hchk, rfl⟩
    obtain ⟨str, hstr⟩ := chkEnum_eq_zero_iff.mp hchk
    simp [enumObject, hstr]

theorem faithful_enumeration (hlib : lib.Keeps) (hjson : json.Allocates) :
  (enumeration lib json array).Faithful
  := by
  constructor
  · intro obj value hread
    obtain ⟨str, hstr, hvalue⟩ := readEnum_eq_some_iff.mp hread
    have hfrom : encEnumFromJson lib array obj = lib.intCodec.encode value := by
      funext encoder
      simp [encEnumFromJson, hstr, hvalue, EnumLib.intCodec]
    have hputs := hlib.int.puts value
    rw [← hfrom] at hputs
    apply hputs
  · intro obj hread encoder encoder' h
    obtain ⟨value, hvalue⟩ := exists_of_encEnumFromJson h
    cases hread.symm.trans hvalue
  · intro decoder rest obj
    apply decEnumToJson_iff hjson
  · intro value rest _
    apply hlib.int.reads
  · intro decoder v v' rest rest' h h'
    cases h.symm.trans h'
    use rfl
  · intro obj value hread
    obtain ⟨str, _, hvalue⟩ := readEnum_eq_some_iff.mp hread
    apply chkEnum_eq_zero_iff.mpr
    use cString str
    apply enumToStr_eq_some_iff.mpr
    apply (enumFromStr_eq_ok_iff hlib.searches).mp hvalue
  · intro value hvalue
    obtain ⟨str, hstr⟩ := chkEnum_eq_zero_iff.mp hvalue
    have hmem := enumToStr_eq_some_iff.mp hstr
    have hname : cString str = str := array.isCString ⟨str, value⟩ hmem
    have hobject : enumObject array value = .string str := by
      rw [enumObject, hstr, Option.getD_some]
    apply readEnum_eq_some_iff.mpr
    use str
    constructor
    · apply Eq.trans (congrArg lib.getString hobject)
      apply hlib.getString
    · rw [hname]
      apply (enumFromStr_eq_ok_iff hlib.searches).mpr hmem
  · rintro value ⟨⟩

end Translator

/-! ### The conversions go there and back again -/

/-- The conversions of an enumeration: a value is written whether it has a name or not, as its
message; what is written is read back, with the code of the check; and translating between JSON
and messages goes there and back again. -/
structure EnumRoundTrips (chk : Int32 → ℤ) (form : Int32 → Bytes) (dec : Decoding Int32)
    (enc : Int32 → Encoding) (fromJson : JsonObject → Encoding) (toJson : ToJson) : Prop where
  puts : ∀ value, Puts (enc value) (form value)
  reads : ∀ value rest, dec ⟨form value ++ rest⟩ = ((chk value, value), ⟨rest⟩)
  translates : Translator.RoundTrips fromJson toJson
    (fun decoder value rest => dec decoder = ((0, value), rest))

/-- What the decoder of a scalar returns when it succeeds. -/
theorem decEnum_eq_zero_iff {lib : EnumLib} {array : BisectArray} {decoder rest : Decoder}
    {value : Int32} :
  decEnum lib array decoder = ((0, value), rest)
    ↔ lib.decodeInt decoder = ((0, value), rest) ∧ chkEnum array value = 0
  := decScalar_eq_zero_iff

theorem enumRoundTrips {lib : EnumLib} {json : JsonC} (hlib : lib.Keeps)
    (hjson : json.Allocates) (array : BisectArray) :
  EnumRoundTrips (chkEnum array) lib.int (decEnum lib array) (encEnum lib)
    (encEnumFromJson lib array) (decEnumToJson lib json array)
  := by
  constructor
  · apply hlib.int.puts
  · intro value rest
    have hread : lib.decodeInt ⟨lib.int value ++ rest⟩ = ((0, value), ⟨rest⟩) :=
      hlib.int.reads value rest
    rw [decEnum, decScalar, hread]
    rfl
  · apply (Translator.faithful_enumeration hlib hjson).roundTrips
    intro decoder value rest
    apply decEnum_eq_zero_iff

theorem enumerations_round_trip (lib : EnumLib) (json : JsonC) (hlib : lib.Keeps)
    (hjson : json.Allocates) :
  EnumRoundTrips hedChkBauds lib.int (hedDecBauds lib) (hedEncBauds lib)
      (hedEncBaudsFromJson lib) (hedDecBaudsToJson lib json)
    ∧ EnumRoundTrips hedChkToggle lib.int (hedDecToggle lib) (hedEncToggle lib)
      (hedEncToggleFromJson lib) (hedDecToggleToJson lib json)
    ∧ EnumRoundTrips hedChkPower lib.int (hedDecPower lib) (hedEncPower lib)
      (hedEncPowerFromJson lib) (hedDecPowerToJson lib json)
    ∧ EnumRoundTrips hedChkLinkState lib.int (hedDecLinkState lib) (hedEncLinkState lib)
      (hedEncLinkStateFromJson lib) (hedDecLinkStateToJson lib json)
    ∧ EnumRoundTrips hedChkIpType lib.int (hedDecIpType lib) (hedEncIpType lib)
      (hedEncIpTypeFromJson lib) (hedDecIpTypeToJson lib json)
  := by
  refine ⟨?_, ?_, ?_, ?_, ?_⟩
  · apply enumRoundTrips hlib hjson
  · apply enumRoundTrips hlib hjson
  · apply enumRoundTrips hlib hjson
  · apply enumRoundTrips hlib hjson
  · apply enumRoundTrips hlib hjson

/-- The text of an integer. -/
def printInt (n : ℤ) : Text :=
  if n < 0 then '-' :: Nat.toDigits 10 n.natAbs else Nat.toDigits 10 n.natAbs

/-- Bisection, the texts of json-c, and the integers of MessagePack.  Of the objects whose values
are not kept here, the text is one that is no name. -/
def messagePackEnum : EnumLib where
  bisectSearch := Bisect.bisect
  getString obj :=
    match obj with
    | .null => (none, 0)
    | .int n => (some (printInt n), 0)
    | .string s => (some s, 0)
    | _ => (some [], 0)
  int value := MsgPack.int value.toInt
  encodeInt encoder value := putForm encoder (MsgPack.int value.toInt)
  decodeInt decoder :=
    match MsgPack.readInt decoder.input with
    | none => ((-EPROTO.code, 0), decoder)
    | some (n, rest) =>
        if n < -2 ^ 31 ∨ 2 ^ 31 ≤ n then ((-ENOMSG.code, 0), decoder)
        else ((0, Int32.ofInt n), ⟨rest⟩)

theorem messagePackEnum_keeps :
  messagePackEnum.Keeps
  := by
  constructor
  · apply Bisect.searches_bisect
  · intro s
    rfl
  · constructor
    · intro value
      apply puts_putForm
    · intro value rest
      have hlow := value.le_toInt
      have hhigh := value.toInt_lt
      have hread := MsgPack.readInt_int hlow (by omega) rest
      have hrange : ¬(value.toInt < -2 ^ 31 ∨ 2 ^ 31 ≤ value.toInt) := by omega
      simp only [EnumLib.intCodec, messagePackEnum, hread, if_neg hrange, Int32.ofInt_toInt]

theorem enumerations_round_trip_messagePack :
  EnumRoundTrips hedChkBauds messagePackEnum.int (hedDecBauds messagePackEnum)
    (hedEncBauds messagePackEnum) (hedEncBaudsFromJson messagePackEnum)
    (hedDecBaudsToJson messagePackEnum jsonC)
  := (enumerations_round_trip messagePackEnum jsonC messagePackEnum_keeps jsonC_allocates).1

end Hed
