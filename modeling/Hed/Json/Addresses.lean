import Hed.Inet.Texts
import Hed.Json.Translator

/-!
# Addresses and what they come with, in JSON

The translations of the scalars, of the addresses and of the structures of `inet-json.c` and
`inet-impl.c` are faithful, so that they go there and back again.  Here also are the functions of
`inet-impl.c` on Ethernet addresses.
-/

namespace Hed

/-! ### Ethernet addresses -/

/-- `ETH_ALEN`. -/
def ethAlen : ℕ := 6

/-- A `struct ether_addr`. -/
structure EtherAddr where
  etherAddrOctet : Bytes
  length_etherAddrOctet : etherAddrOctet.length = ethAlen
  deriving DecidableEq

/-- The `struct ether_addr` that some bytes are copied to. -/
def EtherAddr.ofBytes (b : Bytes) : EtherAddr where
  etherAddrOctet := (b ++ List.replicate ethAlen 0).take ethAlen
  length_etherAddrOctet := by simp

/-- `ether_aton_r` and `ether_ntoa_r`: the address that a text is, if it is one, and the text of
an address. -/
structure EtherText where
  etherAton : Text → Option EtherAddr
  etherNtoa : EtherAddr → Option Text

/-- The functions on the texts of Ethernet addresses, with the errors that the code makes of their
failures. -/
def EtherText.presentation (ether : EtherText) : Presentation EtherAddr where
  inetPton s := .ok (ether.etherAton s)
  inetNtop addr :=
    match ether.etherNtoa addr with
    | none => .error EINVAL
    | some asc => .ok asc

section Ether

variable (dpack : DpackLib) (json : JsonC) (ether : EtherText)

def hedCheckEtherAddr (_ : EtherAddr) : ℤ := 0

def hedEncodeEtherAddr (addr : EtherAddr) : Encoding := fun encoder =>
  if hedCheckEtherAddr addr ≠ 0 then none
  else some (dpack.encodeBin encoder addr.etherAddrOctet)

def hedDecodeEtherAddr : Decoding EtherAddr := fun decoder =>
  match dpack.decodeBincpyEqu decoder ethAlen with
  | ((ret, b), decoder) =>
      if ret < 0 then ((ret, .ofBytes b), decoder)
      else if ret = ethAlen then ((hedCheckEtherAddr (.ofBytes b), .ofBytes b), decoder)
      else ((-EINVAL.code, .ofBytes b), decoder)

def hedEncodeEtherAddrFromJson : JsonObject → Encoding :=
  encodeAddrFromJson ether.presentation hedCheckEtherAddr (hedEncodeEtherAddr dpack)

def hedDecodeEtherAddrToJson : ToJson :=
  decodeAddrToJson json ether.presentation hedCheckEtherAddr (hedDecodeEtherAddr dpack)

def DpackLib.etherAddrCodec : Codec EtherAddr where
  form addr := dpack.bin addr.etherAddrOctet
  encode := hedEncodeEtherAddr dpack
  decode := hedDecodeEtherAddr dpack

end Ether

/-- What dpack promises for binary values of a size. -/
structure DpackLib.InvertsBin (dpack : DpackLib) (size : ℕ) : Prop where
  bin : ∀ b : Bytes, b.length = size →
    Puts (fun encoder => some (dpack.encodeBin encoder b)) (dpack.bin b)
  bincpy : ∀ b rest : Bytes, b.length = size →
    dpack.decodeBincpyEqu ⟨dpack.bin b ++ rest⟩ size = (((size : ℤ), b), ⟨rest⟩)

theorem EtherAddr.ofBytes_etherAddrOctet (addr : EtherAddr) :
  EtherAddr.ofBytes addr.etherAddrOctet = addr
  := by
  obtain ⟨b, hb⟩ := addr
  rw [EtherAddr.ofBytes, EtherAddr.mk.injEq]
  apply List.take_left' hb

/-- The texts of Ethernet addresses: the octets in hexadecimal, with colons between them. -/
def colonOctets : EtherText where
  etherAton s := (readGroups (readHex 2) 6 256 ':' s).map (fun groups =>
    .ofBytes (groups.map (Fin.ofNat 256)))
  etherNtoa addr := some (printGroups 16 ':' (addr.etherAddrOctet.map (fun b => b.val)))

theorem colonOctets_inverts :
  colonOctets.presentation.Inverts
  := by
  rintro ⟨b, hlength⟩
  use printGroups 16 ':' (b.map (fun b => b.val)), rfl
  rw [cString_printGroups (by decide) (by decide) (by decide)]
  simp only [EtherText.presentation, colonOctets]
  rw [readGroups_printGroups (by decide) (by decide) (by decide) _ _ (fun _ => lt_of_mem_map_val)
    (fun _ => readHex_toDigits (Nat.succ_pos 1))]
  · rw [Option.map_some, map_ofNat_map_val]
    apply congrArg (fun a => Except.ok (some a))
    apply EtherAddr.ofBytes_etherAddrOctet ⟨b, hlength⟩
  · rw [ne_eq, List.map_eq_nil_iff, ← List.length_eq_zero_iff, hlength]
    decide
  · rw [List.length_map, hlength]
    rfl

theorem DpackLib.InvertsBin.etherAddr {dpack : DpackLib} (h : dpack.InvertsBin ethAlen) :
  dpack.etherAddrCodec.Lawful
  := by
  constructor
  · intro addr
    apply h.bin addr.etherAddrOctet addr.length_etherAddrOctet
  · intro addr rest
    have hread := h.bincpy addr.etherAddrOctet rest addr.length_etherAddrOctet
    have hcode : ¬((ethAlen : ℕ) : ℤ) < 0 := by decide
    simp only [etherAddrCodec, hedDecodeEtherAddr, hread, hcode, if_false, if_true,
      EtherAddr.ofBytes_etherAddrOctet]
    rfl

/-! ### The translators -/

namespace Translator

variable {α : Type}

section Scalars

variable (json : JsonC) (codec : Codec α) (chk : α → ℤ) (toInt : α → ℤ) (ofInt : ℤ → α)
  (encode : Encoder → α → ℤ × Encoder)

/-- The value that an object of JSON is read as. -/
def readScalar (obj : JsonObject) : Option α :=
  if (json.getInt obj).2 = 0 ∧ chk (ofInt (json.getInt obj).1) = 0 then
    some (ofInt (json.getInt obj).1)
  else none

/-- The translator of a scalar: an unsigned integer in a message, and an integer in JSON. -/
def scalar : Translator α where
  Valid v := chk v = 0
  form := codec.form
  Holds decoder v rest := codec.decode decoder = ((0, v), rest)
  object v := .int (toInt v)
  read := readScalar json chk ofInt
  fromJson := encScalarFromJson json chk ofInt encode
  toJson := decScalarToJson json chk codec.decode toInt

variable {json codec chk toInt ofInt encode}

/-- What the encoder of a scalar from JSON does. -/
theorem encScalarFromJson_eq (obj : JsonObject) (encoder : Encoder) :
  encScalarFromJson json chk ofInt encode obj encoder
    = if (json.getInt obj).2 ≠ 0 then some (-(json.getInt obj).2, encoder)
      else if chk (ofInt (json.getInt obj).1) ≠ 0 then
        some (chk (ofInt (json.getInt obj).1), encoder)
      else some (encode encoder (ofInt (json.getInt obj).1))
  := rfl

theorem readScalar_eq_some_iff {obj : JsonObject} {v : α} :
  readScalar json chk ofInt obj = some v
    ↔ (json.getInt obj).2 = 0 ∧ chk v = 0 ∧ ofInt (json.getInt obj).1 = v
  := by
  rw [readScalar, Option.ite_none_right_eq_some, Option.some_inj]
  constructor
  · rintro ⟨⟨herrno, hchk⟩, rfl⟩
    use herrno, hchk
  · rintro ⟨herrno, hchk, rfl⟩
    use ⟨herrno, hchk⟩

theorem faithful_scalar (hcodec : codec.Lawful)
    (hencode : ∀ v, codec.encode v = fun encoder => some (encode encoder v))
    (hjson : json.Allocates) (hclamp : json.ClampsInt)
    (hinv : ∀ v, ofInt (clampInt (toInt v)) = v) :
  (scalar json codec chk toInt ofInt encode).Faithful
  := by
  constructor
  · intro obj v hread
    obtain ⟨herrno, hchk, rfl⟩ := readScalar_eq_some_iff.mp hread
    have hfrom : encScalarFromJson json chk ofInt encode obj
        = codec.encode (ofInt (json.getInt obj).1) := by
      funext encoder
      rw [encScalarFromJson_eq, if_neg (not_not.mpr herrno), if_neg (not_not.mpr hchk), hencode]
    have hputs := hcodec.puts (ofInt (json.getInt obj).1)
    rw [← hfrom] at hputs
    apply hputs
  · intro obj hread
    apply Refuses.declines
    intro encoder
    have hrefused : ¬((json.getInt obj).2 = 0 ∧ chk (ofInt (json.getInt obj).1) = 0) := by
      rintro ⟨herrno, hchk⟩
      have hsome := readScalar_eq_some_iff.mpr ⟨herrno, hchk, rfl⟩
      cases hsome.symm.trans hread
    by_cases herrno : (json.getInt obj).2 = 0
    · have hchk : chk (ofInt (json.getInt obj).1) ≠ 0 := fun h => hrefused ⟨herrno, h⟩
      use chk (ofInt (json.getInt obj).1), encoder
      apply And.intro _ hchk
      apply Eq.trans (encScalarFromJson_eq obj encoder)
      rw [if_neg (not_not.mpr herrno), if_pos hchk]
    · use -(json.getInt obj).2, encoder
      apply And.intro _ (Int.neg_ne_zero.mpr herrno)
      apply Eq.trans (encScalarFromJson_eq obj encoder)
      rw [if_pos herrno]
  · intro decoder rest obj
    rcases hdecode : codec.decode decoder with ⟨⟨ret, v⟩, d⟩
    have hjson := decScalarToJson_eq chk hjson toInt hdecode
    have hto : (scalar json codec chk toInt ofInt encode).toJson decoder = _ := hjson
    rw [hto]
    constructor
    · intro h
      obtain ⟨hok, rfl⟩ := Prod.mk.inj h
      split_ifs at hok with hret hchk
      rw [ne_eq, not_not] at hret hchk
      cases hok
      rw [hret] at hdecode
      use v, hdecode, hchk
      rfl
    · rintro ⟨v', hholds, hchk, rfl⟩
      cases hdecode.symm.trans hholds
      have hchk' : chk v = 0 := hchk
      simp [hchk', scalar]
  · intro v rest _
    apply hcodec.reads
  · intro decoder v v' rest rest' h h'
    cases h.symm.trans h'
    use rfl
  · intro obj v hread
    apply (readScalar_eq_some_iff.mp hread).2.1
  · intro v hv
    have hint : json.getInt ((scalar json codec chk toInt ofInt encode).object v)
        = (clampInt (toInt v), 0) := hclamp (toInt v)
    apply readScalar_eq_some_iff.mpr
    rw [hint]
    use rfl, hv, hinv v
  · rintro v ⟨⟩

end Scalars

section Addresses

variable (json : JsonC) (codec : Codec α) (inet : Presentation α)

/-- The address that an object of JSON is read as. -/
def readAddr : JsonObject → Option α
  | .string s =>
      match inet.inetPton (cString s) with
      | .ok a => a
      | .error _ => none
  | _ => none

/-- The object of an address is a string. -/
def addrObject (a : α) : JsonObject :=
  match inet.inetNtop a with
  | .ok buf => .string buf
  | .error _ => .string []

/-- The translator of an address, all of which are valid. -/
def address : Translator α where
  Valid _ := True
  form := codec.form
  Holds decoder a rest := codec.decode decoder = ((0, a), rest)
  object := addrObject inet
  read := readAddr inet
  fromJson := encodeAddrFromJson inet (fun _ => 0) codec.encode
  toJson := decodeAddrToJson json inet (fun _ => 0) codec.decode

variable {json codec inet}

theorem readAddr_eq_some_iff {obj : JsonObject} {a : α} :
  readAddr inet obj = some a ↔ ∃ s, obj = .string s ∧ inet.inetPton (cString s) = .ok (some a)
  := by
  constructor
  · intro h
    cases obj with
    | string s =>
        use s, rfl
        rw [readAddr] at h
        split at h
        · rename_i a' hpton
          rw [hpton, h]
        · cases h
    | _ => cases h
  · rintro ⟨s, rfl, hpton⟩
    rw [readAddr, hpton]

/-- What is no address is refused. -/
theorem refuses_of_readAddr {obj : JsonObject} (h : readAddr inet obj = none)
    (encode : α → Encoding) :
  Refuses (encodeAddrFromJson inet (fun _ => 0) encode obj)
  := by
  cases obj with
  | string s =>
      apply refuses_encodeAddrFromJson
      intro a hpton
      cases h.symm.trans (readAddr_eq_some_iff.mpr ⟨s, rfl, hpton⟩)
  | _ => exact refuses_code (by decide)

theorem addrObject_of_ntop {a : α} {buf : Text} (h : inet.inetNtop a = .ok buf) :
  addrObject inet a = .string buf
  := by
  rw [addrObject, h]

theorem faithful_address (hcodec : codec.Lawful) (hjson : json.Allocates) (hinet : inet.Inverts) :
  (address json codec inet).Faithful
  := by
  constructor
  · intro obj a hread
    obtain ⟨s, rfl, hpton⟩ := readAddr_eq_some_iff.mp hread
    have hfrom : encodeAddrFromJson inet (fun _ => 0) codec.encode (.string s)
        = codec.encode a := by
      funext encoder
      rw [encodeAddrFromJson, hpton]
      rfl
    have hputs := hcodec.puts a
    rw [← hfrom] at hputs
    apply hputs
  · intro obj hread
    apply Refuses.declines
    apply refuses_of_readAddr hread
  · intro decoder rest obj
    rcases hdecode : codec.decode decoder with ⟨⟨ret, a⟩, d⟩
    obtain ⟨buf, hntop, _⟩ := hinet a
    rcases eq_or_ne ret 0 with rfl | hret
    · have hto : (address json codec inet).toJson decoder = (.ok (.string buf), d) :=
        decodeAddrToJson_eq hjson inet hdecode hntop
      rw [hto]
      constructor
      · rintro ⟨⟩
        use a, hdecode, trivial
        apply (addrObject_of_ntop hntop).symm
      · rintro ⟨a', hholds, _, rfl⟩
        cases hdecode.symm.trans hholds
        rw [← addrObject_of_ntop hntop]
        rfl
    · have hto : (address json codec inet).toJson decoder = (.error (some (-ret)), d) := by
        simp [address, decodeAddrToJson, hdecode, hret]
      rw [hto]
      constructor
      · rintro ⟨⟩
      · rintro ⟨a', hholds, _⟩
        cases hdecode.symm.trans hholds
        contradiction
  · intro a rest _
    apply hcodec.reads
  · intro decoder a a' rest rest' h h'
    cases h.symm.trans h'
    use rfl
  · intro obj a hread
    trivial
  · intro a _
    obtain ⟨buf, hntop, hpton⟩ := hinet a
    apply readAddr_eq_some_iff.mpr
    use buf, addrObject_of_ntop hntop
  · intro a
    obtain ⟨buf, hntop, _⟩ := hinet a
    have hobject : (address json codec inet).object a = .string buf := addrObject_of_ntop hntop
    rw [hobject]
    rintro ⟨⟩

end Addresses

end Translator

/-! ### The conversions of the code -/

/-- What the decoder of a scalar returns. -/
theorem decScalar_eq_zero_iff {α : Type} {chk : α → ℤ} {decode : Decoding α}
    {decoder rest : Decoder} {v : α} :
  decScalar chk decode decoder = ((0, v), rest)
    ↔ decode decoder = ((0, v), rest) ∧ chk v = 0
  := by
  rcases hdecode : decode decoder with ⟨⟨ret, v'⟩, d⟩
  rw [decScalar, hdecode]
  simp only
  split_ifs with hret
  · simp [hret]
  · rw [not_not] at hret
    subst hret
    constructor
    · intro h
      obtain ⟨⟨hchk, rfl⟩, rfl⟩ := by simpa using h
      use rfl
    · rintro ⟨⟨⟩, hchk⟩
      rw [hchk]

/-- A value of sixteen bits is not changed by narrowing it. -/
theorem toUint16_clampInt (v : UInt16) :
  toUint16 (clampInt v.toNat) = v
  := by
  have hlt := v.toNat_lt
  have hclamp : clampInt v.toNat = v.toNat := by
    rw [clampInt]
    omega
  have hmod : ((v.toNat : ℤ) % 65536).toNat = v.toNat := by omega
  rw [hclamp, toUint16, hmod, UInt16.ofNat_toNat]

section Conversions

variable {dpack : DpackLib} {json : JsonC} {inet : Presentation InAddr}
  {inet6 : Presentation In6Addr} {ether : EtherText} (hdpack : dpack.Inverts)
  (hjson : json.Allocates) (hclamp : json.ClampsInt)

open Translator

include hdpack hjson hclamp in
theorem faithful_uint8 (chk : Byte → ℤ) :
  (scalar json dpack.uint8Codec chk (fun v => v.val) toUint8 dpack.encodeUint8).Faithful
  := faithful_scalar hdpack.uint8 (fun _ => rfl) hjson hclamp narrowed_val

include hdpack hjson hclamp in
theorem faithful_port :
  (scalar json dpack.uint16Codec hedChkPort (fun v => v.toNat) toUint16
    dpack.encodeUint16).Faithful
  := faithful_scalar hdpack.uint16 (fun _ => rfl) hjson hclamp toUint16_clampInt

include hdpack hjson in
theorem faithful_inAddr (hinet : inet.Inverts) :
  (address json dpack.inAddrCodec inet).Faithful
  := faithful_address hdpack.inAddr hjson hinet

include hdpack hjson in
theorem faithful_in6Addr (hinet6 : inet6.Inverts) :
  (address json dpack.in6AddrCodec inet6).Faithful
  := faithful_address hdpack.in6Addr hjson hinet6

end Conversions

/-- Prefixes, ports and addresses are translated between JSON and messages, there and back
again. -/
theorem scalars_and_addresses_round_trip (dpack : DpackLib) (json : JsonC)
    (inet : Presentation InAddr) (inet6 : Presentation In6Addr) (ether : EtherText)
    (hdpack : dpack.Inverts) (hbin : dpack.InvertsBin ethAlen) (hjson : json.Allocates)
    (hclamp : json.ClampsInt) (hinet : inet.Inverts) (hinet6 : inet6.Inverts)
    (hether : ether.presentation.Inverts) :
  Translator.RoundTrips (hedEncInPfxFromJson dpack json) (hedDecInPfxToJson dpack json)
      (fun decoder v rest => hedDecInPfx dpack decoder = ((0, v), rest))
    ∧ Translator.RoundTrips (hedEncIn6PfxFromJson dpack json) (hedDecIn6PfxToJson dpack json)
      (fun decoder v rest => hedDecIn6Pfx dpack decoder = ((0, v), rest))
    ∧ Translator.RoundTrips (hedEncPortFromJson dpack json) (hedDecPortToJson dpack json)
      (fun decoder v rest => hedDecPort dpack decoder = ((0, v), rest))
    ∧ Translator.RoundTrips (hedEncodeInAddrFromJson dpack inet)
      (hedDecodeInAddrToJson dpack json inet)
      (fun decoder a rest => hedDecodeInAddr dpack decoder = ((0, a), rest))
    ∧ Translator.RoundTrips (hedEncodeIn6AddrFromJson dpack inet6)
      (hedDecodeIn6AddrToJson dpack json inet6)
      (fun decoder a rest => hedDecodeIn6Addr dpack decoder = ((0, a), rest))
    ∧ Translator.RoundTrips (hedEncodeEtherAddrFromJson dpack ether)
      (hedDecodeEtherAddrToJson dpack json ether)
      (fun decoder a rest => hedDecodeEtherAddr dpack decoder = ((0, a), rest))
  := by
  refine ⟨?_, ?_, ?_, ?_, ?_, ?_⟩
  · apply (faithful_uint8 hdpack hjson hclamp hedChkInPfx).roundTrips
    intro decoder v rest
    apply decScalar_eq_zero_iff
  · apply (faithful_uint8 hdpack hjson hclamp hedChkIn6Pfx).roundTrips
    intro decoder v rest
    apply decScalar_eq_zero_iff
  · apply (faithful_port hdpack hjson hclamp).roundTrips
    intro decoder v rest
    apply decScalar_eq_zero_iff
  · apply (faithful_inAddr hdpack hjson hinet).roundTrips
    intro decoder a rest
    apply (and_iff_left trivial).symm
  · apply (faithful_in6Addr hdpack hjson hinet6).roundTrips
    intro decoder a rest
    apply (and_iff_left trivial).symm
  · apply (Translator.faithful_address hbin.etherAddr hjson hether).roundTrips
    intro decoder a rest
    apply (and_iff_left trivial).symm

theorem messagePackLib_invertsBin {size : ℕ} (h : size < 256) :
  messagePackLib.InvertsBin size
  := by
  constructor
  · intro b _
    apply puts_putForm (messagePack.bin b)
  · apply (messagePack_inverts h).decode

theorem scalars_and_addresses_round_trip_messagePack :
  Translator.RoundTrips (hedEncodeEtherAddrFromJson messagePackLib colonOctets)
    (hedDecodeEtherAddrToJson messagePackLib jsonC colonOctets)
    (fun decoder a rest => hedDecodeEtherAddr messagePackLib decoder = ((0, a), rest))
  := by
  obtain ⟨_, _, _, _, _, hether⟩ := scalars_and_addresses_round_trip messagePackLib jsonC
    dottedDecimal colonHex colonOctets messagePackLib_inverts
    (messagePackLib_invertsBin (by decide)) jsonC_allocates jsonC_clampsInt dottedDecimal_inverts
    colonHex_inverts colonOctets_inverts
  apply hether

/-- Services and networks are translated between JSON and messages, there and back again.  For the
networks, what a message is decoded to is an address and a prefix that passes its check: the
check of both together is not made on the way. -/
theorem structures_round_trip (dpack : DpackLib) (json : JsonC) (inet : Presentation InAddr)
    (inet6 : Presentation In6Addr) (hdpack : dpack.Inverts) (hjson : json.Allocates)
    (hclamp : json.ClampsInt) (hinet : inet.Inverts) (hinet6 : inet6.Inverts) :
  Translator.RoundTrips (hedEncInSvcFromJson dpack json inet) (hedDecInSvcToJson dpack json inet)
      (fun decoder svc rest => ∀ value, hedDecInSvc dpack decoder value = some ((0, svc), rest))
    ∧ Translator.RoundTrips (hedEncIn6SvcFromJson dpack json inet6)
      (hedDecIn6SvcToJson dpack json inet6)
      (fun decoder svc rest => ∀ value, hedDecIn6Svc dpack decoder value = some ((0, svc), rest))
    ∧ Translator.RoundTrips (hedEncInNetFromJson dpack json inet)
      (hedDecInNetToJson dpack json inet)
      (fun decoder net rest => Holds dpack dpack.inAddrCodec dpack.uint8Codec decoder net rest
        ∧ hedChkInPfx net.pfx = 0)
    ∧ Translator.RoundTrips (hedEncIn6NetFromJson dpack json inet6)
      (hedDecIn6NetToJson dpack json inet6)
      (fun decoder net rest => Holds dpack dpack.in6AddrCodec dpack.uint8Codec decoder net rest
        ∧ hedChkIn6Pfx net.pfx = 0)
  := by
  have hport : addrKey ≠ portKey := by decide
  have hprefix : addrKey ≠ prefixKey := by decide
  have hin := faithful_inAddr hdpack hjson hinet
  have hin6 := faithful_in6Addr hdpack hjson hinet6
  refine ⟨?_, ?_, ?_, ?_⟩
  · apply (hin.struct hdpack hjson hport (faithful_port hdpack hjson hclamp)).roundTrips
    intro decoder svc rest
    constructor
    · intro h
      obtain ⟨hholds, hchk⟩ := hedDecInSvc_iff.mp (h svc)
      use hholds, trivial, hchk
    · rintro ⟨hholds, _, hchk⟩ value
      apply hedDecInSvc_iff.mpr
      use hholds, hchk
  · apply (hin6.struct hdpack hjson hport (faithful_port hdpack hjson hclamp)).roundTrips
    intro decoder svc rest
    constructor
    · intro h
      obtain ⟨hholds, hchk⟩ := hedDecIn6Svc_iff.mp (h svc)
      use hholds, trivial, hchk
    · rintro ⟨hholds, _, hchk⟩ value
      apply hedDecIn6Svc_iff.mpr
      use hholds, hchk
  · apply (hin.struct hdpack hjson hprefix
      (faithful_uint8 hdpack hjson hclamp hedChkInPfx)).roundTrips
    intro decoder net rest
    apply and_congr_right'
    apply (and_iff_right trivial).symm
  · apply (hin6.struct hdpack hjson hprefix
      (faithful_uint8 hdpack hjson hclamp hedChkIn6Pfx)).roundTrips
    intro decoder net rest
    apply and_congr_right'
    apply (and_iff_right trivial).symm

theorem structures_round_trip_messagePack :
  Translator.RoundTrips (hedEncInSvcFromJson messagePackLib jsonC dottedDecimal)
    (hedDecInSvcToJson messagePackLib jsonC dottedDecimal)
    (fun decoder svc rest => ∀ value,
      hedDecInSvc messagePackLib decoder value = some ((0, svc), rest))
  := by
  obtain ⟨hsvc, _⟩ := structures_round_trip messagePackLib jsonC dottedDecimal colonHex
    messagePackLib_inverts jsonC_allocates jsonC_clampsInt dottedDecimal_inverts colonHex_inverts
  apply hsvc

end Hed
