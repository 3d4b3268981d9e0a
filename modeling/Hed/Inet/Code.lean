import Hed.Base.Message

/-!
# Addresses, services and networks

The functions of `inet.c`, `inet-impl.c` and `inet-json.c` on addresses, on services, which
are an address and a port, and on networks, which are an address and a prefix.  The functions
of dpack, of json-c and of the C library are parameters.  Most of the functions come in
families that `troer` generates from `inet.yml`: each family is one definition, and its
members are that definition applied to their own functions and bounds.
-/

namespace Hed

/-! ### Types -/

/-- A `struct in_addr`. -/
structure InAddr where
  sAddr : UInt32
  deriving DecidableEq

/-- The octets of an IPv4 address: what is in memory, on a little-endian host. -/
def InAddr.octets (addr : InAddr) : Bytes := leBytes 4 addr.sAddr.toNat

/-- A `struct in6_addr`. -/
structure In6Addr where
  s6Addr : Bytes
  length_s6Addr : s6Addr.length = 16
  deriving DecidableEq

/-- The `struct in6_addr` that some bytes are copied to. -/
def In6Addr.ofBytes (b : Bytes) : In6Addr where
  s6Addr := (b ++ List.replicate 16 0).take 16
  length_s6Addr := by simp

/-- An address and what comes with it. -/
structure Located (α β : Type) where
  addr : α
  extra : β
  deriving DecidableEq

/-- A `struct hed_in_svc`. -/
abbrev InSvc := Located InAddr UInt16

/-- A `struct hed_in6_svc`. -/
abbrev In6Svc := Located In6Addr UInt16

/-- A `struct hed_in_net`. -/
abbrev InNet := Located InAddr Byte

/-- A `struct hed_in6_net`. -/
abbrev In6Net := Located In6Addr Byte

/-- The port of a service. -/
def Located.port {α : Type} (svc : Located α UInt16) : UInt16 := svc.extra

/-- The prefix of a network. -/
def Located.pfx {α : Type} (net : Located α Byte) : Byte := net.extra

/-! ### Libraries -/

/-- What the code uses of dpack: the sizes, the forms of values in a message, and the
functions that encode and decode them. -/
structure DpackLib extends Dpack where
  uintSizeMin : ℕ
  uintSizeMax : ℕ
  uint8SizeMin : ℕ
  uint8SizeMax : ℕ
  uint16SizeMin : ℕ
  uint16SizeMax : ℕ
  array : ℕ → Bytes
  uint : UInt32 → Bytes
  uint8 : Byte → Bytes
  uint16 : UInt16 → Bytes
  arrayBeginEncode : Encoder → ℕ → ℤ × Encoder
  encodeUint : Encoder → UInt32 → ℤ × Encoder
  encodeUint8 : Encoder → Byte → ℤ × Encoder
  encodeUint16 : Encoder → UInt16 → ℤ × Encoder
  arrayDecodeCountEqu : Decoder → ℕ → ℤ × Decoder
  decodeUint : Decoder → (ℤ × UInt32) × Decoder
  decodeUint8 : Decoder → (ℤ × Byte) × Decoder
  decodeUint16 : Decoder → (ℤ × UInt16) × Decoder

/-- What the code uses of json-c, where memory can run out: `json_object_get_int`, with the
`errno` that it leaves, the functions that make objects, and the one that adds a field. -/
structure JsonC where
  getInt : JsonObject → ℤ × ℤ
  newObject : Option JsonObject
  newString : Text → Option JsonObject
  newInt : ℤ → Option JsonObject
  objectAdd : JsonObject → Text → JsonObject → ℤ × JsonObject

/-- `json_object_object_get`; a field that is null is no object. -/
def jsonObjectObjectGet (object : JsonObject) (key : Text) : Option JsonObject :=
  match object with
  | .object fields =>
      match fields.find? (fun field => field.1 = key) with
      | none => none
      | some (_, .null) => none
      | some (_, obj) => some obj
  | _ => none

/-- `inet_pton` and `inet_ntop` of an address family: the address that a text is, if it is
one, and the text of an address, or the `errno` they set. -/
structure Presentation (α : Type) where
  inetPton : Text → Except Errno (Option α)
  inetNtop : α → Except Errno Text

/-! ### Steps of encoding and of decoding -/

/-- A function that encodes: the code that it returns, or none when an assertion fails. -/
abbrev Encoding := Encoder → Option (ℤ × Encoder)

/-- Encode, and if that returns zero go on. -/
def Encoding.andThen (p q : Encoding) : Encoding := fun encoder =>
  (p encoder).bind (fun r => if r.1 ≠ 0 then some r else q r.2)

/-- A function that decodes a value: its code, and the value. -/
abbrev Decoding (α : Type) := Decoder → (ℤ × α) × Decoder

/-- A function that decodes to JSON: the object, or the `errno` that it sets, if it sets
one. -/
abbrev ToJson := Decoder → Except (Option ℤ) JsonObject × Decoder

section Functions

variable (inetAssert : Bool) (dpack : DpackLib) (json : JsonC)

/-! ### Scalars -/

/-- A conversion of `int` to `uint8_t`. -/
def toUint8 (n : ℤ) : Byte := ⟨(n % 256).toNat, by omega⟩

/-- A conversion of `int` to `uint16_t`. -/
def toUint16 (n : ℤ) : UInt16 := UInt16.ofNat (n % 65536).toNat

def hedChkInPfx (value : Byte) : ℤ := if value.val ≥ 32 then -EINVAL.code else 0

def hedChkIn6Pfx (value : Byte) : ℤ := if value.val ≥ 128 then -EINVAL.code else 0

def hedChkPort (value : UInt16) : ℤ := if value < 1 then -EINVAL.code else 0

section Scalars

variable {α : Type} (chk : α → ℤ)

/-- The family `hed_dec_*` of the scalars. -/
def decScalar (decode : Decoding α) : Decoding α := fun decoder =>
  match decode decoder with
  | ((ret, value), decoder) =>
      if ret ≠ 0 then ((ret, value), decoder) else ((chk value, value), decoder)

/-- The family `hed_enc_*` of the scalars. -/
def encScalar (encode : Encoder → α → ℤ × Encoder) (value : α) : Encoding := fun encoder =>
  if inetAssert = true ∧ chk value ≠ 0 then none else some (encode encoder value)

/-- The family `hed_dec_*_to_json` of the scalars. -/
def decScalarToJson (decode : Decoding α) (toInt : α → ℤ) : ToJson := fun decoder =>
  match decode decoder with
  | ((ret, value), decoder) =>
      if ret ≠ 0 then (.error (some (-ret)), decoder)
      else if chk value ≠ 0 then (.error (some (-chk value)), decoder)
      else
        match json.newInt (toInt value) with
        | none => (.error none, decoder)
        | some obj => (.ok obj, decoder)

/-- The family `hed_enc_*_from_json` of the scalars. -/
def encScalarFromJson (ofInt : ℤ → α) (encode : Encoder → α → ℤ × Encoder)
    (object : JsonObject) : Encoding := fun encoder =>
  match json.getInt object with
  | (n, errno) =>
      let value := ofInt n
      if errno ≠ 0 then some (-errno, encoder)
      else if chk value ≠ 0 then some (chk value, encoder)
      else some (encode encoder value)

end Scalars

def hedDecInPfx : Decoding Byte := decScalar hedChkInPfx dpack.decodeUint8

def hedDecIn6Pfx : Decoding Byte := decScalar hedChkIn6Pfx dpack.decodeUint8

def hedDecPort : Decoding UInt16 := decScalar hedChkPort dpack.decodeUint16

def hedEncInPfx : Byte → Encoding := encScalar inetAssert hedChkInPfx dpack.encodeUint8

def hedEncIn6Pfx : Byte → Encoding := encScalar inetAssert hedChkIn6Pfx dpack.encodeUint8

def hedEncPort : UInt16 → Encoding := encScalar inetAssert hedChkPort dpack.encodeUint16

def hedDecInPfxToJson : ToJson :=
  decScalarToJson json hedChkInPfx dpack.decodeUint8 (fun value => value.val)

def hedDecIn6PfxToJson : ToJson :=
  decScalarToJson json hedChkIn6Pfx dpack.decodeUint8 (fun value => value.val)

def hedDecPortToJson : ToJson :=
  decScalarToJson json hedChkPort dpack.decodeUint16 (fun value => value.toNat)

def hedEncInPfxFromJson : JsonObject → Encoding :=
  encScalarFromJson json hedChkInPfx toUint8 dpack.encodeUint8

def hedEncIn6PfxFromJson : JsonObject → Encoding :=
  encScalarFromJson json hedChkIn6Pfx toUint8 dpack.encodeUint8

def hedEncPortFromJson : JsonObject → Encoding :=
  encScalarFromJson json hedChkPort toUint16 dpack.encodeUint16

/-! ### Addresses -/

def hedCheckInAddr (_ : InAddr) : ℤ := 0

def hedCheckIn6Addr (_ : In6Addr) : ℤ := 0

def hedEncodeInAddr (addr : InAddr) : Encoding := fun encoder =>
  some (dpack.encodeUint encoder addr.sAddr)

def hedDecodeInAddr : Decoding InAddr := fun decoder =>
  match dpack.decodeUint decoder with
  | ((ret, sAddr), decoder) => ((ret, ⟨sAddr⟩), decoder)

def hedEncodeIn6Addr (addr : In6Addr) : Encoding := fun encoder =>
  some (dpack.encodeBin encoder addr.s6Addr)

def hedDecodeIn6Addr : Decoding In6Addr := fun decoder =>
  match dpack.decodeBincpyEqu decoder 16 with
  | ((ret, b), decoder) =>
      if ret < 0 then ((ret, .ofBytes b), decoder)
      else if ret = 16 then ((0, .ofBytes b), decoder)
      else ((-EINVAL.code, .ofBytes b), decoder)

section Addresses

variable {α : Type} (inet : Presentation α) (check : α → ℤ)

/-- The family `hed_encode_*_from_json` of the addresses. -/
def encodeAddrFromJson (encode : α → Encoding) (obj : JsonObject) : Encoding := fun encoder =>
  match obj with
  | .string buf =>
      match inet.inetPton (cString buf) with
      | .error e => some (-e.code, encoder)
      | .ok none => some (-EINVAL.code, encoder)
      | .ok (some addr) =>
          if check addr ≠ 0 then some (check addr, encoder) else encode addr encoder
  | _ => some (-EINVAL.code, encoder)

/-- The family `hed_decode_*_to_json` of the addresses. -/
def decodeAddrToJson (decode : Decoding α) : ToJson := fun decoder =>
  match decode decoder with
  | ((ret, addr), decoder) =>
      if ret ≠ 0 then (.error (some (-ret)), decoder)
      else if check addr ≠ 0 then (.error (some (-check addr)), decoder)
      else
        match inet.inetNtop addr with
        | .error e => (.error (some e.code), decoder)
        | .ok buf =>
            match json.newString buf with
            | none => (.error none, decoder)
            | some obj => (.ok obj, decoder)

end Addresses

section

variable (inet : Presentation InAddr) (inet6 : Presentation In6Addr)

def hedEncodeInAddrFromJson : JsonObject → Encoding :=
  encodeAddrFromJson inet hedCheckInAddr (hedEncodeInAddr dpack)

def hedEncodeIn6AddrFromJson : JsonObject → Encoding :=
  encodeAddrFromJson inet6 hedCheckIn6Addr (hedEncodeIn6Addr dpack)

def hedDecodeInAddrToJson : ToJson :=
  decodeAddrToJson json inet hedCheckInAddr (hedDecodeInAddr dpack)

def hedDecodeIn6AddrToJson : ToJson :=
  decodeAddrToJson json inet6 hedCheckIn6Addr (hedDecodeIn6Addr dpack)

end

/-! ### The checks of the networks -/

/-- A shift of an `unsigned int` to the left, which is undefined from its width on. -/
def shiftLeft32 (a : UInt32) (n : ℕ) : Option UInt32 :=
  if n < 32 then some (a <<< UInt32.ofNat n) else none

/-- `hed_in_net_check_addr_prefix`; none when its shift is out of range. -/
def hedInNetCheckAddrPrefix (value : InNet) : Option ℤ :=
  (shiftLeft32 1 value.pfx.val).map (fun bit =>
    let mask := (bit - 1).toUInt64
    if value.addr.sAddr.toUInt64 &&& mask ≠ 0 then 1 else 0)

/-- The mask that the loop of `hed_in6_net_check_addr_prefix` chooses for an octet, and the
prefix that it goes on with. -/
def in6Mask (pfx : ℕ) : ℕ × ℕ :=
  if pfx = 0 then (0xFF, 0)
  else if pfx ≤ 7 then ((1 <<< pfx) - 1, 0)
  else (0, pfx - 8)

/-- The loop of `hed_in6_net_check_addr_prefix`. -/
def in6CheckLoop : Bytes → ℕ → ℕ → ℕ
  | [], _, ret => ret
  | b :: rest, pfx, ret => in6CheckLoop rest (in6Mask pfx).2 (ret ||| (b.val &&& (in6Mask pfx).1))

def hedIn6NetCheckAddrPrefix (value : In6Net) : Option ℤ :=
  some (if in6CheckLoop value.addr.s6Addr value.pfx.val 0 ≠ 0 then 1 else 0)

/-! ### Services and networks -/

section Structures

variable {α β : Type}

/-- The beginning of the family `hed_chk_*` of the structures. -/
def chkFields (checkAddr : α → ℤ) (chkExtra : β → ℤ) (value : Located α β)
    (rest : Option ℤ) : Option ℤ :=
  if checkAddr value.addr ≠ 0 then some 1
  else if chkExtra value.extra ≠ 0 then some 1
  else rest

/-- The family `hed_dec_*` of the structures; none when a shift is out of range. -/
def decStruct (decAddr : Decoding α) (decExtra : Decoding β) (chk : Located α β → Option ℤ)
    (decoder : Decoder) (value : Located α β) : Option ((ℤ × Located α β) × Decoder) :=
  match dpack.arrayDecodeCountEqu decoder 2 with
  | (ret, decoder) =>
      if ret ≠ 0 then some ((ret, value), decoder)
      else
        match decAddr decoder with
        | ((ret, addr), decoder) =>
            if ret ≠ 0 then some ((ret, { value with addr := addr }), decoder)
            else
              match decExtra decoder with
              | ((ret, extra), decoder) =>
                  if ret ≠ 0 then some ((ret, ⟨addr, extra⟩), decoder)
                  else (chk ⟨addr, extra⟩).map (fun ret => ((ret, ⟨addr, extra⟩), decoder))

/-- The header of an array of two, which begins a structure. -/
def beginStruct : Encoding := fun encoder => some (dpack.arrayBeginEncode encoder 2)

/-- The family `hed_enc_*` of the structures. -/
def encStruct (chk : Located α β → Option ℤ) (encAddr : α → Encoding) (encExtra : β → Encoding)
    (value : Located α β) : Encoding := fun encoder =>
  if inetAssert = true ∧ chk value ≠ some 0 then none
  else (beginStruct dpack).andThen ((encAddr value.addr).andThen (encExtra value.extra)) encoder

/-- The names of the fields. -/
def addrKey : Text := ['a', 'd', 'd', 'r']

def portKey : Text := ['p', 'o', 'r', 't']

def prefixKey : Text := ['p', 'r', 'e', 'f', 'i', 'x']

/-- The family `hed_dec_*_to_json` of the structures. -/
def decStructToJson (addrToJson : ToJson) (key : Text) (extraToJson : ToJson) : ToJson :=
  fun decoder =>
  match json.newObject with
  | none => (.error none, decoder)
  | some object =>
      match dpack.arrayDecodeCountEqu decoder 2 with
      | (ret, decoder) =>
          if ret ≠ 0 then (.error none, decoder)
          else
            match addrToJson decoder with
            | (.error e, decoder) => (.error e, decoder)
            | (.ok obj, decoder) =>
                match json.objectAdd object addrKey obj with
                | (ret, object) =>
                    if ret ≠ 0 then (.error none, decoder)
                    else
                      match extraToJson decoder with
                      | (.error e, decoder) => (.error e, decoder)
                      | (.ok obj, decoder) =>
                          match json.objectAdd object key obj with
                          | (ret, object) =>
                              if ret ≠ 0 then (.error none, decoder) else (.ok object, decoder)

/-- The encoding of a field of an object, which has to be there. -/
def encField (object : JsonObject) (key : Text) (fromJson : JsonObject → Encoding) : Encoding :=
  match jsonObjectObjectGet object key with
  | none => fun encoder => some (-EINVAL.code, encoder)
  | some obj => fromJson obj

/-- The family `hed_enc_*_from_json` of the structures. -/
def encStructFromJson (addrFromJson : JsonObject → Encoding) (key : Text)
    (extraFromJson : JsonObject → Encoding) (object : JsonObject) : Encoding :=
  (beginStruct dpack).andThen
    ((encField object addrKey addrFromJson).andThen (encField object key extraFromJson))

end Structures

def hedChkInSvc (value : InSvc) : Option ℤ :=
  chkFields hedCheckInAddr hedChkPort value (some 0)

def hedChkIn6Svc (value : In6Svc) : Option ℤ :=
  chkFields hedCheckIn6Addr hedChkPort value (some 0)

def hedChkInNet (value : InNet) : Option ℤ :=
  chkFields hedCheckInAddr hedChkInPfx value (hedInNetCheckAddrPrefix value)

def hedChkIn6Net (value : In6Net) : Option ℤ :=
  chkFields hedCheckIn6Addr hedChkIn6Pfx value (hedIn6NetCheckAddrPrefix value)

def hedDecInSvc : Decoder → InSvc → Option ((ℤ × InSvc) × Decoder) :=
  decStruct dpack (hedDecodeInAddr dpack) (hedDecPort dpack) hedChkInSvc

def hedDecIn6Svc : Decoder → In6Svc → Option ((ℤ × In6Svc) × Decoder) :=
  decStruct dpack (hedDecodeIn6Addr dpack) (hedDecPort dpack) hedChkIn6Svc

def hedDecInNet : Decoder → InNet → Option ((ℤ × InNet) × Decoder) :=
  decStruct dpack (hedDecodeInAddr dpack) (hedDecInPfx dpack) hedChkInNet

def hedDecIn6Net : Decoder → In6Net → Option ((ℤ × In6Net) × Decoder) :=
  decStruct dpack (hedDecodeIn6Addr dpack) (hedDecIn6Pfx dpack) hedChkIn6Net

def hedEncInSvc : InSvc → Encoding :=
  encStruct inetAssert dpack hedChkInSvc (hedEncodeInAddr dpack) (hedEncPort inetAssert dpack)

def hedEncIn6Svc : In6Svc → Encoding :=
  encStruct inetAssert dpack hedChkIn6Svc (hedEncodeIn6Addr dpack) (hedEncPort inetAssert dpack)

def hedEncInNet : InNet → Encoding :=
  encStruct inetAssert dpack hedChkInNet (hedEncodeInAddr dpack) (hedEncInPfx inetAssert dpack)

def hedEncIn6Net : In6Net → Encoding :=
  encStruct inetAssert dpack hedChkIn6Net (hedEncodeIn6Addr dpack) (hedEncIn6Pfx inetAssert dpack)

section

variable (inet : Presentation InAddr) (inet6 : Presentation In6Addr)

def hedDecInSvcToJson : ToJson :=
  decStructToJson dpack json (hedDecodeInAddrToJson dpack json inet) portKey
    (hedDecPortToJson dpack json)

def hedDecIn6SvcToJson : ToJson :=
  decStructToJson dpack json (hedDecodeIn6AddrToJson dpack json inet6) portKey
    (hedDecPortToJson dpack json)

def hedDecInNetToJson : ToJson :=
  decStructToJson dpack json (hedDecodeInAddrToJson dpack json inet) prefixKey
    (hedDecInPfxToJson dpack json)

def hedDecIn6NetToJson : ToJson :=
  decStructToJson dpack json (hedDecodeIn6AddrToJson dpack json inet6) prefixKey
    (hedDecIn6PfxToJson dpack json)

def hedEncInSvcFromJson : JsonObject → Encoding :=
  encStructFromJson dpack (hedEncodeInAddrFromJson dpack inet) portKey
    (hedEncPortFromJson dpack json)

def hedEncIn6SvcFromJson : JsonObject → Encoding :=
  encStructFromJson dpack (hedEncodeIn6AddrFromJson dpack inet6) portKey
    (hedEncPortFromJson dpack json)

def hedEncInNetFromJson : JsonObject → Encoding :=
  encStructFromJson dpack (hedEncodeInAddrFromJson dpack inet) prefixKey
    (hedEncInPfxFromJson dpack json)

def hedEncIn6NetFromJson : JsonObject → Encoding :=
  encStructFromJson dpack (hedEncodeIn6AddrFromJson dpack inet6) prefixKey
    (hedEncIn6PfxFromJson dpack json)

end

/-! ### Sizes -/

def hedInAddrPackedSizeMin : ℕ := dpack.uintSizeMin
def hedInAddrPackedSizeMax : ℕ := dpack.uintSizeMax
def hedIn6AddrPackedSizeMin : ℕ := dpack.binSize 16
def hedIn6AddrPackedSizeMax : ℕ := dpack.binSize 16
def hedInPfxPackedSizeMin : ℕ := dpack.uint8SizeMin
def hedInPfxPackedSizeMax : ℕ := dpack.uint8SizeMax
def hedIn6PfxPackedSizeMin : ℕ := dpack.uint8SizeMin
def hedIn6PfxPackedSizeMax : ℕ := dpack.uint8SizeMax
def hedPortPackedSizeMin : ℕ := dpack.uint16SizeMin
def hedPortPackedSizeMax : ℕ := dpack.uint16SizeMax

def hedInSvcPackedSizeMin : ℕ := hedInAddrPackedSizeMin dpack + hedPortPackedSizeMin dpack
def hedInSvcPackedSizeMax : ℕ := hedInAddrPackedSizeMax dpack + hedPortPackedSizeMax dpack
def hedIn6SvcPackedSizeMin : ℕ := hedIn6AddrPackedSizeMin dpack + hedPortPackedSizeMin dpack
def hedIn6SvcPackedSizeMax : ℕ := hedIn6AddrPackedSizeMax dpack + hedPortPackedSizeMax dpack
def hedInNetPackedSizeMin : ℕ := hedInAddrPackedSizeMin dpack + hedInPfxPackedSizeMin dpack
def hedInNetPackedSizeMax : ℕ := hedInAddrPackedSizeMax dpack + hedInPfxPackedSizeMax dpack
def hedIn6NetPackedSizeMin : ℕ := hedIn6AddrPackedSizeMin dpack + hedIn6PfxPackedSizeMin dpack
def hedIn6NetPackedSizeMax : ℕ := hedIn6AddrPackedSizeMax dpack + hedIn6PfxPackedSizeMax dpack

end Functions

end Hed
