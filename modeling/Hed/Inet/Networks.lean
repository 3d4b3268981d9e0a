import Hed.Inet.MessagePack
import Hed.Inet.Prefix

/-!
# Networks in messages and in JSON

Whether the encoders and the decoders of the services and the networks agree: the encoder from
JSON with the decoder, the two decoders with each other, and the encoders with the sizes that
are declared for their messages.
-/

namespace Hed

/-! ### The checks of the fields -/

theorem einval_eq_zero_iff {c : Prop} [Decidable c] :
  (if c then -EINVAL.code else 0) = 0 ↔ ¬ c
  := by
  have hcode : -EINVAL.code ≠ 0 := by decide
  rw [ite_eq_right_iff]
  constructor
  · intro h hc
    exact hcode (h hc)
  · intro hc h
    contradiction

theorem hedChkInPfx_eq_zero_iff {p : Byte} :
  hedChkInPfx p = 0 ↔ p.val < 32
  := einval_eq_zero_iff.trans not_le

theorem hedChkIn6Pfx_eq_zero_iff {p : Byte} :
  hedChkIn6Pfx p = 0 ↔ p.val < 128
  := einval_eq_zero_iff.trans not_le

theorem hedChkPort_eq_zero {port : UInt16} (h : 1 ≤ port) :
  hedChkPort port = 0
  := einval_eq_zero_iff.mpr (UInt16.not_lt.mpr h)

/-! ### What the functions do -/

section Functions

variable {dpack : DpackLib} {json : JsonC} {inet : Presentation InAddr}
  {inet6 : Presentation In6Addr} {decoder rest : Decoder}

theorem hedDecInSvc_iff {value svc : InSvc} :
  hedDecInSvc dpack decoder value = some ((0, svc), rest)
    ↔ Holds dpack dpack.inAddrCodec dpack.uint16Codec decoder svc rest
      ∧ hedChkPort svc.port = 0
  := (decStruct_eq_some_zero_iff dpack dpack.inAddrCodec dpack.uint16Codec hedChkPort
    (fun _ => some 0)).trans (and_congr_right' (and_iff_left rfl))

theorem hedDecIn6Svc_iff {value svc : In6Svc} :
  hedDecIn6Svc dpack decoder value = some ((0, svc), rest)
    ↔ Holds dpack dpack.in6AddrCodec dpack.uint16Codec decoder svc rest
      ∧ hedChkPort svc.port = 0
  := (decStruct_eq_some_zero_iff dpack dpack.in6AddrCodec dpack.uint16Codec hedChkPort
    (fun _ => some 0)).trans (and_congr_right' (and_iff_left rfl))

theorem hedDecInNet_iff {value net : InNet} :
  hedDecInNet dpack decoder value = some ((0, net), rest)
    ↔ Holds dpack dpack.inAddrCodec dpack.uint8Codec decoder net rest
      ∧ hedChkInPfx net.pfx = 0 ∧ hedInNetCheckAddrPrefix net = some 0
  := decStruct_eq_some_zero_iff dpack dpack.inAddrCodec dpack.uint8Codec hedChkInPfx
    hedInNetCheckAddrPrefix

theorem hedDecIn6Net_iff {value net : In6Net} :
  hedDecIn6Net dpack decoder value = some ((0, net), rest)
    ↔ Holds dpack dpack.in6AddrCodec dpack.uint8Codec decoder net rest
      ∧ hedChkIn6Pfx net.pfx = 0 ∧ hedIn6NetCheckAddrPrefix net = some 0
  := decStruct_eq_some_zero_iff dpack dpack.in6AddrCodec dpack.uint8Codec hedChkIn6Pfx
    hedIn6NetCheckAddrPrefix

theorem hedDecInNetToJson_iff (hjson : json.Allocates)
    (hinet : ∀ a, ∃ buf, inet.inetNtop a = .ok buf) {obj : JsonObject} :
  hedDecInNetToJson dpack json inet decoder = (.ok obj, rest)
    ↔ ∃ net buf, Holds dpack dpack.inAddrCodec dpack.uint8Codec decoder net rest
      ∧ hedChkInPfx net.pfx = 0 ∧ inet.inetNtop net.addr = .ok buf
      ∧ obj = structObject buf prefixKey net.pfx.val
  := decStructToJson_eq_ok_iff dpack dpack.inAddrCodec dpack.uint8Codec hedChkInPfx hjson hinet
    (by decide) (fun value => value.val)

theorem hedDecIn6NetToJson_iff (hjson : json.Allocates)
    (hinet6 : ∀ a, ∃ buf, inet6.inetNtop a = .ok buf) {obj : JsonObject} :
  hedDecIn6NetToJson dpack json inet6 decoder = (.ok obj, rest)
    ↔ ∃ net buf, Holds dpack dpack.in6AddrCodec dpack.uint8Codec decoder net rest
      ∧ hedChkIn6Pfx net.pfx = 0 ∧ inet6.inetNtop net.addr = .ok buf
      ∧ obj = structObject buf prefixKey net.pfx.val
  := decStructToJson_eq_ok_iff dpack dpack.in6AddrCodec dpack.uint8Codec hedChkIn6Pfx hjson hinet6
    (by decide) (fun value => value.val)

variable {inetAssert : Bool}

theorem hedEncInSvc_puts (hdpack : dpack.Inverts) {svc : InSvc} (h : hedChkPort svc.port = 0) :
  Puts (hedEncInSvc inetAssert dpack svc) (structForm dpack dpack.inAddrCodec dpack.uint16Codec svc)
  := encStruct_puts dpack.inAddrCodec dpack.uint16Codec hedChkPort (fun _ => some 0) inetAssert
    hdpack hdpack.inAddr hdpack.uint16.puts h rfl

theorem hedEncIn6Svc_puts (hdpack : dpack.Inverts) {svc : In6Svc} (h : hedChkPort svc.port = 0) :
  Puts (hedEncIn6Svc inetAssert dpack svc)
    (structForm dpack dpack.in6AddrCodec dpack.uint16Codec svc)
  := encStruct_puts dpack.in6AddrCodec dpack.uint16Codec hedChkPort (fun _ => some 0) inetAssert
    hdpack hdpack.in6Addr hdpack.uint16.puts h rfl

theorem hedEncInNet_puts (hdpack : dpack.Inverts) {net : InNet} (h : hedChkInPfx net.pfx = 0)
    (hcheck : hedInNetCheckAddrPrefix net = some 0) :
  Puts (hedEncInNet inetAssert dpack net) (structForm dpack dpack.inAddrCodec dpack.uint8Codec net)
  := encStruct_puts dpack.inAddrCodec dpack.uint8Codec hedChkInPfx hedInNetCheckAddrPrefix
    inetAssert hdpack hdpack.inAddr hdpack.uint8.puts h hcheck

theorem hedEncIn6Net_puts (hdpack : dpack.Inverts) {net : In6Net} (h : hedChkIn6Pfx net.pfx = 0)
    (hcheck : hedIn6NetCheckAddrPrefix net = some 0) :
  Puts (hedEncIn6Net inetAssert dpack net)
    (structForm dpack dpack.in6AddrCodec dpack.uint8Codec net)
  := encStruct_puts dpack.in6AddrCodec dpack.uint8Codec hedChkIn6Pfx hedIn6NetCheckAddrPrefix
    inetAssert hdpack hdpack.in6Addr hdpack.uint8.puts h hcheck

/-- The integer that `json_object_get_int` returns: it is clamped to the range of `int`. -/
def clampInt (n : ℤ) : ℤ := max (-2147483648) (min n 2147483647)

/-- The prefix that the encoder makes of an integer. -/
def narrowed (n : ℤ) : Byte := toUint8 (clampInt n)

/-- A value of eight bits is not changed by narrowing it. -/
theorem narrowed_val (p : Byte) :
  narrowed p.val = p
  := by
  have hlt := p.isLt
  apply Fin.ext
  rw [narrowed, toUint8, clampInt]
  simp only
  omega

/-- What json-c does with the integers of objects. -/
def JsonC.ClampsInt (json : JsonC) : Prop := ∀ n, json.getInt (.int n) = (clampInt n, 0)

section

variable {object : JsonObject} {s : Text} {n : ℤ} {encoder encoder' : Encoder}

theorem hedEncInNetFromJson_iff (hdpack : dpack.Inverts) (hjson : json.ClampsInt)
    (hs : jsonObjectObjectGet object addrKey = some (.string s))
    (hn : jsonObjectObjectGet object prefixKey = some (.int n)) :
  hedEncInNetFromJson dpack json inet object encoder = some (0, encoder')
    ↔ ∃ a, inet.inetPton (cString s) = .ok (some a) ∧ hedChkInPfx (narrowed n) = 0
      ∧ (structForm dpack dpack.inAddrCodec dpack.uint8Codec ⟨a, narrowed n⟩).length ≤ encoder.room
      ∧ encoder' = encoder.put (structForm dpack dpack.inAddrCodec dpack.uint8Codec ⟨a, narrowed n⟩)
  := encStructFromJson_eq_some_zero_iff dpack.inAddrCodec dpack.uint8Codec hedChkInPfx hdpack
    hdpack.inAddr hdpack.uint8.puts inet hs hn (hjson n) toUint8

theorem hedEncIn6NetFromJson_iff (hdpack : dpack.Inverts) (hjson : json.ClampsInt)
    (hs : jsonObjectObjectGet object addrKey = some (.string s))
    (hn : jsonObjectObjectGet object prefixKey = some (.int n)) :
  hedEncIn6NetFromJson dpack json inet6 object encoder = some (0, encoder')
    ↔ ∃ a, inet6.inetPton (cString s) = .ok (some a) ∧ hedChkIn6Pfx (narrowed n) = 0
      ∧ (structForm dpack dpack.in6AddrCodec dpack.uint8Codec ⟨a, narrowed n⟩).length
        ≤ encoder.room
      ∧ encoder'
        = encoder.put (structForm dpack dpack.in6AddrCodec dpack.uint8Codec ⟨a, narrowed n⟩)
  := encStructFromJson_eq_some_zero_iff dpack.in6AddrCodec dpack.uint8Codec hedChkIn6Pfx hdpack
    hdpack.in6Addr hdpack.uint8.puts inet6 hs hn (hjson n) toUint8

end

end Functions

section Networks

variable {α : Type}

/-! ### The two decoders of a network -/

/-- The decoder and the decoder to JSON agree about a message: one of them succeeds if the
other does, and then the fields of the object are the address and the prefix of the network. -/
def Agree (toJson : ToJson) (inet : Presentation α)
    (dec : Decoder → Located α Byte → Option ((ℤ × Located α Byte) × Decoder))
    (decoder : Decoder) (value : Located α Byte) : Prop :=
  (∀ net rest, dec decoder value = some ((0, net), rest) → ∃ obj, toJson decoder = (.ok obj, rest))
    ∧ ∀ obj rest, toJson decoder = (.ok obj, rest) → ∃ net buf,
      dec decoder value = some ((0, net), rest) ∧ inet.inetNtop net.addr = .ok buf
        ∧ jsonObjectObjectGet obj addrKey = some (.string buf)
        ∧ jsonObjectObjectGet obj prefixKey = some (.int net.pfx.val)

/-- The fields of the object of a network. -/
theorem get_structObject (buf : Text) (n : ℤ) :
  jsonObjectObjectGet (structObject buf prefixKey n) addrKey = some (.string buf)
    ∧ jsonObjectObjectGet (structObject buf prefixKey n) prefixKey = some (.int n)
  := ⟨rfl, rfl⟩

variable {dpack : DpackLib} {addr : Codec α} {extra : Codec Byte} {inet : Presentation α}
  {chk : Byte → ℤ} {check : Located α Byte → Option ℤ}
  {dec : Decoder → Located α Byte → Option ((ℤ × Located α Byte) × Decoder)}

/-- The decoders agree about a message if the network that it holds passes the check of the
structure. -/
theorem agree_iff {toJson : ToJson} {decoder : Decoder} {value : Located α Byte}
    (hinet : ∀ a, ∃ buf, inet.inetNtop a = .ok buf)
    (hdec : ∀ net rest, dec decoder value = some ((0, net), rest)
      ↔ Holds dpack addr extra decoder net rest ∧ chk net.pfx = 0 ∧ check net = some 0)
    (hjson : ∀ obj rest, toJson decoder = (.ok obj, rest)
      ↔ ∃ net buf, Holds dpack addr extra decoder net rest ∧ chk net.pfx = 0
        ∧ inet.inetNtop net.addr = .ok buf ∧ obj = structObject buf prefixKey net.pfx.val) :
  Agree toJson inet dec decoder value
    ↔ ∀ net rest, Holds dpack addr extra decoder net rest → chk net.pfx = 0 → check net = some 0
  := by
  constructor
  · rintro ⟨_, hagree⟩ net rest hholds hchk
    obtain ⟨buf, hntop⟩ := hinet net.addr
    have hobj := (hjson _ rest).mpr ⟨net, buf, hholds, hchk, hntop, rfl⟩
    obtain ⟨net', _, hnet', _⟩ := hagree _ _ hobj
    obtain ⟨hholds', _, hcheck⟩ := (hdec net' rest).mp hnet'
    obtain ⟨rfl, _⟩ := hholds.unique hholds'
    apply hcheck
  · intro h
    constructor
    · intro net rest hnet
      obtain ⟨hholds, hchk, _⟩ := (hdec net rest).mp hnet
      obtain ⟨buf, hntop⟩ := hinet net.addr
      use structObject buf prefixKey net.pfx.val
      apply (hjson _ rest).mpr
      use net, buf
    · intro obj rest hobj
      obtain ⟨net, buf, hholds, hchk, hntop, rfl⟩ := (hjson obj rest).mp hobj
      use net, buf, (hdec net rest).mpr ⟨hholds, hchk, h net rest hholds hchk⟩, hntop
      apply get_structObject

/-! ### The encoder from JSON -/

/-- What the encoder from JSON makes of an object is right: if it succeeds, then the integer is
in the range that is declared, the network passes the check of its address and its prefix, and
the bytes that are written decode to it. -/
def EncodesNetwork (enc : JsonObject → Encoding) (inet : Presentation α)
    (dec : Decoder → Located α Byte → Option ((ℤ × Located α Byte) × Decoder))
    (check : Located α Byte → Option ℤ) (max : ℕ) (object : JsonObject) (s : Text) (n : ℤ)
    (encoder : Encoder) : Prop :=
  ∀ encoder', enc object encoder = some (0, encoder') → ∃ net : Located α Byte,
    inet.inetPton (cString s) = .ok (some net.addr) ∧ net.pfx.val = n ∧ net.pfx.val ≤ max
      ∧ check net = some 0 ∧ ∃ b, encoder' = encoder.put b
        ∧ ∀ value, dec ⟨b⟩ value = some ((0, net), ⟨[]⟩)

/-- An object gets past the checks: its address is one, its integer narrowed to eight bits is a
prefix below the limit, and its message fits, but the integer is not what it is narrowed to, or
the network does not pass the check of its address and its prefix. -/
def Bypasses (dpack : DpackLib) (addr : Codec α) (inet : Presentation α)
    (check : Located α Byte → Option ℤ) (limit : ℕ) (s : Text) (n : ℤ) (encoder : Encoder) :
    Prop :=
  ∃ a, inet.inetPton (cString s) = .ok (some a) ∧ (narrowed n).val < limit
    ∧ (structForm dpack addr dpack.uint8Codec ⟨a, narrowed n⟩).length ≤ encoder.room
    ∧ ((narrowed n).val ≠ n ∨ check ⟨a, narrowed n⟩ ≠ some 0)

theorem encodesNetwork_iff {enc : JsonObject → Encoding} {object : JsonObject} {s : Text} {n : ℤ}
    {encoder : Encoder} {limit : ℕ} (hdpack : dpack.Inverts) (haddr : addr.Lawful)
    (hchk : ∀ p, chk p = 0 ↔ p.val < limit)
    (hdec : ∀ b value net rest, dec ⟨b⟩ value = some ((0, net), rest)
      ↔ Holds dpack addr dpack.uint8Codec ⟨b⟩ net rest ∧ chk net.pfx = 0 ∧ check net = some 0)
    (henc : ∀ encoder', enc object encoder = some (0, encoder')
      ↔ ∃ a, inet.inetPton (cString s) = .ok (some a) ∧ chk (narrowed n) = 0
        ∧ (structForm dpack addr dpack.uint8Codec ⟨a, narrowed n⟩).length ≤ encoder.room
        ∧ encoder' = encoder.put (structForm dpack addr dpack.uint8Codec ⟨a, narrowed n⟩)) :
  EncodesNetwork enc inet dec check limit object s n encoder
    ↔ ¬ Bypasses dpack addr inet check limit s n encoder
  := by
  constructor
  · rintro h ⟨a, hpton, hlimit, hroom, hbad⟩
    have hencode := (henc _).mpr ⟨a, hpton, (hchk _).mpr hlimit, hroom, rfl⟩
    obtain ⟨⟨a', p⟩, hpton', hn, _, hcheck, _⟩ := h _ hencode
    rw [hpton] at hpton'
    cases hpton'
    have hp : narrowed n = p := by
      rw [← hn]
      apply narrowed_val
    rw [hp] at hbad
    rcases hbad with hne | hrefused
    · exact hne hn
    · exact hrefused hcheck
  · intro h encoder' hencode
    obtain ⟨a, hpton, hpfx, hroom, rfl⟩ := (henc encoder').mp hencode
    have hlimit := (hchk _).mp hpfx
    have hgood : (narrowed n).val = n ∧ check ⟨a, narrowed n⟩ = some 0 := by
      by_contra hbad
      apply h
      use a, hpton, hlimit, hroom
      apply not_and_or.mp hbad
    have hholds := holds_structForm hdpack haddr hdpack.uint8 ⟨a, narrowed n⟩ []
    rw [List.append_nil] at hholds
    use ⟨a, narrowed n⟩, hpton, hgood.1, hlimit.le, hgood.2,
      structForm dpack addr dpack.uint8Codec ⟨a, narrowed n⟩, rfl
    intro value
    apply (hdec _ _ _ _).mpr
    use hholds, hpfx
    apply hgood.2

end Networks

/-! ### json-c and the texts of addresses -/

/-- The functions of json-c, when no allocation fails. -/
def jsonC : JsonC where
  getInt obj :=
    match obj with
    | .int n => (clampInt n, 0)
    | _ => (0, EINVAL.code)
  newObject := some (.object [])
  newString s := some (.string s)
  newInt n := some (.int n)
  objectAdd object key obj :=
    match object with
    | .object fields => (0, .object (fields.filter (fun field => field.1 ≠ key) ++ [(key, obj)]))
    | _ => (-1, object)

theorem jsonC_allocates :
  jsonC.Allocates
  := by
  constructor
  · rfl
  · intro s
    rfl
  · intro n
    rfl
  · intro fields key obj h
    have hfilter : fields.filter (fun field => field.1 ≠ key) = fields := by
      apply List.filter_eq_self.mpr
      simpa using h
    simp only [jsonC, hfilter]

theorem jsonC_clampsInt :
  jsonC.ClampsInt
  := fun _ => rfl

/-- The value of a digit. -/
def digitValue (c : Char) : Option ℕ :=
  if '0' ≤ c ∧ c ≤ '9' then some (c.toNat - 48)
  else if 'a' ≤ c ∧ c ≤ 'f' then some (c.toNat - 87)
  else if 'A' ≤ c ∧ c ≤ 'F' then some (c.toNat - 55)
  else none

/-- The number that some digits are, in a base. -/
def readNumber (base : ℕ) (s : Text) : Option ℕ :=
  (s.mapM digitValue).bind (fun digits =>
    if s ≠ [] ∧ ∀ d ∈ digits, d < base then some (digits.foldl (fun n d => base * n + d) 0)
    else none)

/-- A decimal number that has no zero before it. -/
def readDecimal (s : Text) : Option ℕ :=
  if s.head? = some '0' ∧ s ≠ ['0'] then none else readNumber 10 s

/-- A hexadecimal number of a few digits at most. -/
def readHex (width : ℕ) (s : Text) : Option ℕ :=
  if s.length ≤ width then readNumber 16 s else none

/-- The numbers that a text has between its separators, as many as they should be and each
below a bound. -/
def readGroups (read : Text → Option ℕ) (count bound : ℕ) (separator : Char) (s : Text) :
    Option (List ℕ) :=
  ((s.splitOn separator).mapM read).bind (fun groups =>
    if groups.length = count ∧ ∀ n ∈ groups, n < bound then some groups else none)

/-- The text of some numbers. -/
def printGroups (base : ℕ) (separator : Char) (groups : List ℕ) : Text :=
  [separator].intercalate (groups.map (Nat.toDigits base))

/-- The octets of numbers that have two each. -/
def groupsOf : Bytes → List ℕ
  | a :: b :: rest => (256 * a.val + b.val) :: groupsOf rest
  | _ => []

/-- IPv4 addresses in dotted decimal. -/
def dottedDecimal : Presentation InAddr where
  inetPton s := .ok ((readGroups readDecimal 4 256 '.' s).map (fun groups =>
    ⟨UInt32.ofNat (ofLeBytes (groups.map (Fin.ofNat 256)))⟩))
  inetNtop addr := .ok (printGroups 10 '.' (addr.octets.map (fun b => b.val)))

/-- IPv6 addresses written out, with no run of zeros left out. -/
def colonHex : Presentation In6Addr where
  inetPton s := .ok ((readGroups (readHex 4) 8 65536 ':' s).map (fun groups =>
    .ofBytes (groups.flatMap (MsgPack.bigEndian 2))))
  inetNtop addr := .ok (printGroups 16 ':' (groupsOf addr.s6Addr))

/-- A network decodes to JSON exactly if it decodes, in the messages where the network that is
held, its prefix being in range, passes the check of its address and its prefix: the decoders to
JSON do not make this check. -/
theorem network_decoders_agree_iff (dpack : DpackLib) (json : JsonC) (inet : Presentation InAddr)
    (inet6 : Presentation In6Addr) (hjson : json.Allocates)
    (hinet : ∀ a, ∃ buf, inet.inetNtop a = .ok buf)
    (hinet6 : ∀ a, ∃ buf, inet6.inetNtop a = .ok buf) (decoder : Decoder) (value : InNet)
    (value6 : In6Net) :
  (Agree (hedDecInNetToJson dpack json inet) inet (hedDecInNet dpack) decoder value
      ↔ ∀ net rest, Holds dpack dpack.inAddrCodec dpack.uint8Codec decoder net rest
        → net.pfx.val < 32 → hedInNetCheckAddrPrefix net = some 0)
    ∧ (Agree (hedDecIn6NetToJson dpack json inet6) inet6 (hedDecIn6Net dpack) decoder value6
      ↔ ∀ net rest, Holds dpack dpack.in6AddrCodec dpack.uint8Codec decoder net rest
        → net.pfx.val < 128 → hedIn6NetCheckAddrPrefix net = some 0)
  := by
  constructor
  · rw [agree_iff hinet (fun _ _ => hedDecInNet_iff)
      (fun _ _ => hedDecInNetToJson_iff hjson hinet)]
    simp only [hedChkInPfx_eq_zero_iff]
  · rw [agree_iff hinet6 (fun _ _ => hedDecIn6Net_iff)
      (fun _ _ => hedDecIn6NetToJson_iff hjson hinet6)]
    simp only [hedChkIn6Pfx_eq_zero_iff]

/-- The address and the message of the network 0.0.0.192/8, which passes the check. -/
def passingText : Text := ['0', '.', '0', '.', '0', '.', '1', '9', '2']

def passingMessage : Bytes := [0x92, 0xce, 0xc0, 0, 0, 0, 8]

theorem network_decoders_agree_passing :
  Agree (hedDecInNetToJson messagePackLib jsonC dottedDecimal) dottedDecimal
    (hedDecInNet messagePackLib) ⟨passingMessage⟩ ⟨⟨0⟩, 0⟩
  := by
  have hntop (a : InAddr) : ∃ buf, dottedDecimal.inetNtop a = .ok buf := ⟨_, rfl⟩
  have hntop6 (a : In6Addr) : ∃ buf, colonHex.inetNtop a = .ok buf := ⟨_, rfl⟩
  obtain ⟨hagree, _⟩ := network_decoders_agree_iff messagePackLib jsonC dottedDecimal colonHex
    jsonC_allocates hntop hntop6 ⟨passingMessage⟩ ⟨⟨0⟩, 0⟩ ⟨.ofBytes [], 0⟩
  apply hagree.mpr
  intro net rest hholds _
  have hpassing : Holds messagePackLib messagePackLib.inAddrCodec messagePackLib.uint8Codec
      ⟨passingMessage⟩ ⟨⟨0xC0000000⟩, 8⟩ ⟨[]⟩ :=
    ⟨⟨[0xce, 0xc0, 0, 0, 0, 8]⟩, ⟨[8]⟩, by decide, by decide, by decide⟩
  obtain ⟨rfl, _⟩ := hpassing.unique hholds
  decide

/-- The address and the message of the network 192.168.1.0/24. -/
def privateText : Text := ['1', '9', '2', '.', '1', '6', '8', '.', '1', '.', '0']

def privateMessage : Bytes := [0x92, 0xce, 0, 1, 0xa8, 0xc0, 24]

/-- The network 192.168.1.0/24 decodes to JSON, where the decoder refuses it. -/
theorem network_decoders_disagree :
  ¬ Agree (hedDecInNetToJson messagePackLib jsonC dottedDecimal) dottedDecimal
    (hedDecInNet messagePackLib) ⟨privateMessage⟩ ⟨⟨0⟩, 0⟩
  := by
  rintro ⟨_, hagree⟩
  have hobj : hedDecInNetToJson messagePackLib jsonC dottedDecimal ⟨privateMessage⟩
      = (.ok (structObject privateText prefixKey 24),
        ⟨[]⟩) := rfl
  obtain ⟨net, _, hnet, _⟩ := hagree _ _ hobj
  have hdec : hedDecInNet messagePackLib ⟨privateMessage⟩ ⟨⟨0⟩, 0⟩
      = some ((1, ⟨⟨0x0001A8C0⟩, 24⟩), ⟨[]⟩) := by decide
  rw [hdec] at hnet
  cases hnet

/-- From JSON a network is encoded as it should be, unless the object gets past the checks: the
encoders from JSON narrow the integer before they check its range, and they do not make the
check of the address and the prefix. -/
theorem network_from_json_iff (dpack : DpackLib) (json : JsonC) (inet : Presentation InAddr)
    (inet6 : Presentation In6Addr) (hdpack : dpack.Inverts) (hjson : json.ClampsInt)
    (object : JsonObject) (s : Text) (n : ℤ)
    (hs : jsonObjectObjectGet object addrKey = some (.string s))
    (hn : jsonObjectObjectGet object prefixKey = some (.int n)) (encoder : Encoder) :
  (EncodesNetwork (hedEncInNetFromJson dpack json inet) inet (hedDecInNet dpack)
        hedInNetCheckAddrPrefix 32 object s n encoder
      ↔ ¬ Bypasses dpack dpack.inAddrCodec inet hedInNetCheckAddrPrefix 32 s n encoder)
    ∧ (EncodesNetwork (hedEncIn6NetFromJson dpack json inet6) inet6 (hedDecIn6Net dpack)
        hedIn6NetCheckAddrPrefix 128 object s n encoder
      ↔ ¬ Bypasses dpack dpack.in6AddrCodec inet6 hedIn6NetCheckAddrPrefix 128 s n encoder)
  := by
  constructor
  · exact encodesNetwork_iff hdpack hdpack.inAddr (fun _ => hedChkInPfx_eq_zero_iff)
      (fun _ _ _ _ => hedDecInNet_iff) (fun _ => hedEncInNetFromJson_iff hdpack hjson hs hn)
  · exact encodesNetwork_iff hdpack hdpack.in6Addr (fun _ => hedChkIn6Pfx_eq_zero_iff)
      (fun _ _ _ _ => hedDecIn6Net_iff) (fun _ => hedEncIn6NetFromJson_iff hdpack hjson hs hn)

theorem network_from_json_passing :
  EncodesNetwork (hedEncInNetFromJson messagePackLib jsonC dottedDecimal) dottedDecimal
    (hedDecInNet messagePackLib) hedInNetCheckAddrPrefix 32
    (structObject passingText prefixKey 8)
    passingText 8 ⟨[], 7⟩
  := by
  obtain ⟨hencodes, _⟩ := network_from_json_iff messagePackLib jsonC dottedDecimal colonHex
    messagePackLib_inverts jsonC_clampsInt
    (structObject passingText prefixKey 8)
    passingText 8 rfl rfl ⟨[], 7⟩
  apply hencodes.mpr
  rintro ⟨a, hpton, _, _, hbad⟩
  have hpassing : dottedDecimal.inetPton (cString passingText) = .ok (some ⟨0xC0000000⟩) := rfl
  rw [hpassing] at hpton
  cases hpton
  rcases hbad with hne | hrefused
  · exact hne rfl
  · exact hrefused (by decide)

/-- The network 192.168.1.0/24 is encoded from JSON, and does not pass the check. -/
theorem network_from_json_unchecked :
  ¬ EncodesNetwork (hedEncInNetFromJson messagePackLib jsonC dottedDecimal) dottedDecimal
    (hedDecInNet messagePackLib) hedInNetCheckAddrPrefix 32
    (structObject privateText prefixKey 24)
    privateText 24 ⟨[], 7⟩
  := by
  intro h
  have hencode : hedEncInNetFromJson messagePackLib jsonC dottedDecimal
      (structObject privateText prefixKey 24) ⟨[], 7⟩
      = some (0, ⟨privateMessage, 0⟩) := rfl
  obtain ⟨⟨a, p⟩, hpton, hp, _, hcheck, _⟩ := h _ hencode
  have hprivate : dottedDecimal.inetPton (cString privateText) = .ok (some ⟨0x0001A8C0⟩) := rfl
  rw [hprivate] at hpton
  cases hpton
  obtain rfl : p = 24 := Fin.ext (Int.ofNat.inj hp)
  exact absurd hcheck (by decide)

/-! ### The sizes of messages -/

/-- A value is encoded into a buffer of the greatest size that is declared, its message has at
least the least size that is declared, and it decodes to the value, all of it. -/
def Fits {α β : Type} (enc : Located α β → Encoding)
    (dec : Decoder → Located α β → Option ((ℤ × Located α β) × Decoder)) (min max : ℕ)
    (value : Located α β) : Prop :=
  ∃ b, enc value ⟨[], max⟩ = some (0, Encoder.put ⟨[], max⟩ b) ∧ min ≤ b.length
    ∧ ∀ value', dec ⟨b⟩ value' = some ((0, value), ⟨[]⟩)

section Sizes

variable {α β : Type} {dpack : DpackLib} {addr : Codec α} {extra : Codec β} {chk : β → ℤ}
  {check : Located α β → Option ℤ} {enc : Located α β → Encoding}
  {dec : Decoder → Located α β → Option ((ℤ × Located α β) × Decoder)} {min max : ℕ}
  {value : Located α β}

variable (chk check) in
/-- A value fits if it passes the checks and the size of its message is in the range. -/
theorem fits_iff (hdpack : dpack.Inverts) (haddr : addr.Lawful) (hextra : extra.Lawful)
    (henc : chk value.extra = 0 → check value = some 0
      → Puts (enc value) (structForm dpack addr extra value))
    (hdec : ∀ b value' rest, dec ⟨b⟩ value' = some ((0, value), rest)
      ↔ Holds dpack addr extra ⟨b⟩ value rest ∧ chk value.extra = 0 ∧ check value = some 0) :
  Fits enc dec min max value
    ↔ (chk value.extra = 0 ∧ check value = some 0)
      ∧ min ≤ (structForm dpack addr extra value).length
      ∧ (structForm dpack addr extra value).length ≤ max
  := by
  constructor
  · rintro ⟨b, hencode, hmin, hback⟩
    obtain ⟨_, hchk, hcheck⟩ := (hdec _ _ _).mp (hback value)
    obtain ⟨hroom, hput⟩ := (henc hchk hcheck).eq_some_zero_iff.mp hencode
    obtain rfl := Encoder.put_inj hput
    use ⟨hchk, hcheck⟩, hmin, hroom
  · rintro ⟨⟨hchk, hcheck⟩, hmin, hroom⟩
    have hholds := holds_structForm hdpack haddr hextra value []
    rw [List.append_nil] at hholds
    use structForm dpack addr extra value
    use (henc hchk hcheck).eq_some_zero_iff.mpr ⟨hroom, rfl⟩, hmin
    intro value'
    apply (hdec _ _ _).mpr ⟨hholds, hchk, hcheck⟩

end Sizes

section MessagePack

variable {dpack : DpackLib} (hdpack : dpack.FollowsMessagePack)

include hdpack

/-- The message of a structure is longer than those of its fields by one. -/
theorem length_structForm {α β : Type} (addr : Codec α) (extra : Codec β) (value : Located α β) :
  (structForm dpack addr extra value).length
    = 1 + ((addr.form value.addr).length + (extra.form value.extra).length)
  := by
  have harray : (dpack.array 2).length = 1 := by
    rw [hdpack.arrayForm]
    rfl
  rw [structForm, List.length_append, List.length_append, harray]

/-- The integers that messages are made of, as many octets as they take. -/
theorem length_inAddr (addr : InAddr) :
  (dpack.inAddrCodec.form addr).length = (MsgPack.uint addr.sAddr.toNat).length
  := congrArg List.length (hdpack.uintForm addr.sAddr)

theorem length_in6Addr (addr : In6Addr) :
  (dpack.in6AddrCodec.form addr).length = 18
  := hdpack.binForm addr.s6Addr addr.length_s6Addr

theorem length_port (port : UInt16) :
  (dpack.uint16Codec.form port).length = (MsgPack.uint port.toNat).length
  := congrArg List.length (hdpack.uint16Form port)

theorem length_pfx (pfx : Byte) :
  (dpack.uint8Codec.form pfx).length = (MsgPack.uint pfx.val).length
  := congrArg List.length (hdpack.uint8Form pfx)

/-- The sizes that are declared, in octets. -/
theorem sizes_in_svc :
  hedInSvcPackedSizeMin dpack = 2 ∧ hedInSvcPackedSizeMax dpack = 8
  := by
  rw [hedInSvcPackedSizeMin, hedInSvcPackedSizeMax, hedInAddrPackedSizeMin, hedInAddrPackedSizeMax,
    hedPortPackedSizeMin, hedPortPackedSizeMax, hdpack.uintSizeMin, hdpack.uintSizeMax,
    hdpack.uint16SizeMin, hdpack.uint16SizeMax]
  exact ⟨rfl, rfl⟩

theorem sizes_in6_svc :
  hedIn6SvcPackedSizeMin dpack = 19 ∧ hedIn6SvcPackedSizeMax dpack = 21
  := by
  rw [hedIn6SvcPackedSizeMin, hedIn6SvcPackedSizeMax, hedIn6AddrPackedSizeMin,
    hedIn6AddrPackedSizeMax, hedPortPackedSizeMin, hedPortPackedSizeMax, hdpack.binSize,
    hdpack.uint16SizeMin, hdpack.uint16SizeMax]
  exact ⟨rfl, rfl⟩

theorem sizes_in_net :
  hedInNetPackedSizeMin dpack = 2 ∧ hedInNetPackedSizeMax dpack = 7
  := by
  rw [hedInNetPackedSizeMin, hedInNetPackedSizeMax, hedInAddrPackedSizeMin, hedInAddrPackedSizeMax,
    hedInPfxPackedSizeMin, hedInPfxPackedSizeMax, hdpack.uintSizeMin, hdpack.uintSizeMax,
    hdpack.uint8SizeMin, hdpack.uint8SizeMax]
  exact ⟨rfl, rfl⟩

theorem sizes_in6_net :
  hedIn6NetPackedSizeMin dpack = 19 ∧ hedIn6NetPackedSizeMax dpack = 20
  := by
  rw [hedIn6NetPackedSizeMin, hedIn6NetPackedSizeMax, hedIn6AddrPackedSizeMin,
    hedIn6AddrPackedSizeMax, hedIn6PfxPackedSizeMin, hedIn6PfxPackedSizeMax, hdpack.binSize,
    hdpack.uint8SizeMin, hdpack.uint8SizeMax]
  exact ⟨rfl, rfl⟩

variable (inetAssert : Bool)

/-- The message of a service is too long if both its integers take all the octets that they
can. -/
theorem fits_in_svc_iff {svc : InSvc} (h : 1 ≤ svc.port) :
  Fits (hedEncInSvc inetAssert dpack) (hedDecInSvc dpack) (hedInSvcPackedSizeMin dpack)
      (hedInSvcPackedSizeMax dpack) svc
    ↔ svc.addr.sAddr.toNat < 65536 ∨ svc.port.toNat < 256
  := by
  have hchk : hedChkPort svc.extra = 0 := hedChkPort_eq_zero h
  have hlt := svc.addr.sAddr.toNat_lt
  have hlt' := svc.extra.toNat_lt
  obtain ⟨hmin, hmax⟩ := sizes_in_svc hdpack
  rw [fits_iff hedChkPort (fun _ => some 0) hdpack.toInverts hdpack.inAddr hdpack.uint16
    (fun h _ => hedEncInSvc_puts hdpack.toInverts h)
    (fun _ _ _ => hedDecInSvc_iff.trans (and_congr_right' (and_iff_left rfl).symm)),
    length_structForm hdpack, length_inAddr hdpack, length_port hdpack, hmin, hmax,
    MsgPack.length_uint, MsgPack.length_uint, Located.port]
  simp only [hchk, true_and]
  split_ifs
  all_goals omega

theorem fits_in6_svc_iff {svc : In6Svc} (h : 1 ≤ svc.port) :
  Fits (hedEncIn6Svc inetAssert dpack) (hedDecIn6Svc dpack) (hedIn6SvcPackedSizeMin dpack)
      (hedIn6SvcPackedSizeMax dpack) svc
    ↔ svc.port.toNat < 256
  := by
  have hchk : hedChkPort svc.extra = 0 := hedChkPort_eq_zero h
  have hlt := svc.extra.toNat_lt
  obtain ⟨hmin, hmax⟩ := sizes_in6_svc hdpack
  rw [fits_iff hedChkPort (fun _ => some 0) hdpack.toInverts hdpack.in6Addr hdpack.uint16
    (fun h _ => hedEncIn6Svc_puts hdpack.toInverts h)
    (fun _ _ _ => hedDecIn6Svc_iff.trans (and_congr_right' (and_iff_left rfl).symm)),
    length_structForm hdpack, length_in6Addr hdpack, length_port hdpack, hmin, hmax,
    MsgPack.length_uint, Located.port]
  simp only [hchk, true_and]
  split_ifs
  all_goals omega

/-- The message of a network has room, as its prefix takes one octet. -/
theorem fits_in_net_iff {net : InNet}
    (hcheck : ∀ ret, hedInNetCheckAddrPrefix net = some ret → ret = 0) :
  Fits (hedEncInNet inetAssert dpack) (hedDecInNet dpack) (hedInNetPackedSizeMin dpack)
      (hedInNetPackedSizeMax dpack) net
    ↔ net.pfx.val < 32
  := by
  have hlt := net.addr.sAddr.toNat_lt
  have hsome (hp : net.pfx.val < 32) : hedInNetCheckAddrPrefix net = some 0 := by
    obtain ⟨ret, hret⟩ : ∃ ret, hedInNetCheckAddrPrefix net = some ret := by
      rw [hedInNetCheckAddrPrefix_eq, if_pos hp]
      exact ⟨_, rfl⟩
    rw [hret, hcheck ret hret]
  obtain ⟨hmin, hmax⟩ := sizes_in_net hdpack
  rw [fits_iff hedChkInPfx hedInNetCheckAddrPrefix hdpack.toInverts hdpack.inAddr hdpack.uint8
    (fun h hcheck => hedEncInNet_puts hdpack.toInverts h hcheck) (fun _ _ _ => hedDecInNet_iff),
    length_structForm hdpack, length_inAddr hdpack, length_pfx hdpack, hmin, hmax,
    MsgPack.length_uint, MsgPack.length_uint, hedChkInPfx_eq_zero_iff]
  constructor
  · rintro ⟨⟨hp, _⟩, _⟩
    apply hp
  · intro hp
    use ⟨hp, hsome hp⟩
    rw [Located.pfx] at hp
    split_ifs
    all_goals omega

theorem fits_in6_net_iff {net : In6Net} (hcheck : hedIn6NetCheckAddrPrefix net = some 0) :
  Fits (hedEncIn6Net inetAssert dpack) (hedDecIn6Net dpack) (hedIn6NetPackedSizeMin dpack)
      (hedIn6NetPackedSizeMax dpack) net
    ↔ net.pfx.val < 128
  := by
  obtain ⟨hmin, hmax⟩ := sizes_in6_net hdpack
  rw [fits_iff hedChkIn6Pfx hedIn6NetCheckAddrPrefix hdpack.toInverts hdpack.in6Addr hdpack.uint8
    (fun h hcheck => hedEncIn6Net_puts hdpack.toInverts h hcheck) (fun _ _ _ => hedDecIn6Net_iff),
    length_structForm hdpack, length_in6Addr hdpack, length_pfx hdpack, hmin, hmax,
    MsgPack.length_uint, hedChkIn6Pfx_eq_zero_iff]
  constructor
  · rintro ⟨⟨hp, _⟩, _⟩
    apply hp
  · intro hp
    use ⟨hp, hcheck⟩
    rw [Located.pfx] at hp
    split_ifs
    all_goals omega

end MessagePack

/-- Which values that are declared valid fit: the sizes leave out the header of the array, which
is one octet, and the checks of the prefixes refuse the greatest one. -/
theorem packed_sizes_iff (inetAssert : Bool) (dpack : DpackLib)
    (hdpack : dpack.FollowsMessagePack) :
  (∀ svc : InSvc, 1 ≤ svc.port →
      (Fits (hedEncInSvc inetAssert dpack) (hedDecInSvc dpack) (hedInSvcPackedSizeMin dpack)
          (hedInSvcPackedSizeMax dpack) svc
        ↔ svc.addr.sAddr.toNat < 65536 ∨ svc.port.toNat < 256))
    ∧ (∀ svc : In6Svc, 1 ≤ svc.port →
      (Fits (hedEncIn6Svc inetAssert dpack) (hedDecIn6Svc dpack) (hedIn6SvcPackedSizeMin dpack)
          (hedIn6SvcPackedSizeMax dpack) svc
        ↔ svc.port.toNat < 256))
    ∧ (∀ net : InNet, net.pfx.val ≤ 32
      → (∀ ret, hedInNetCheckAddrPrefix net = some ret → ret = 0) →
      (Fits (hedEncInNet inetAssert dpack) (hedDecInNet dpack) (hedInNetPackedSizeMin dpack)
          (hedInNetPackedSizeMax dpack) net
        ↔ net.pfx.val < 32))
    ∧ ∀ net : In6Net, net.pfx.val ≤ 128 → hedIn6NetCheckAddrPrefix net = some 0 →
      (Fits (hedEncIn6Net inetAssert dpack) (hedDecIn6Net dpack) (hedIn6NetPackedSizeMin dpack)
          (hedIn6NetPackedSizeMax dpack) net
        ↔ net.pfx.val < 128)
  := by
  refine ⟨?_, ?_, ?_, ?_⟩
  · intro svc h
    apply fits_in_svc_iff hdpack inetAssert h
  · intro svc h
    apply fits_in6_svc_iff hdpack inetAssert h
  · intro net _ hcheck
    apply fits_in_net_iff hdpack inetAssert hcheck
  · intro net _ hcheck
    apply fits_in6_net_iff hdpack inetAssert hcheck

theorem packed_sizes_messagePack :
  Fits (hedEncInSvc true messagePackLib) (hedDecInSvc messagePackLib)
      (hedInSvcPackedSizeMin messagePackLib) (hedInSvcPackedSizeMax messagePackLib)
      ⟨⟨0x0000A8C0⟩, 8080⟩
    ∧ Fits (hedEncIn6Svc true messagePackLib) (hedDecIn6Svc messagePackLib)
      (hedIn6SvcPackedSizeMin messagePackLib) (hedIn6SvcPackedSizeMax messagePackLib)
      ⟨.ofBytes [0x20, 0x01], 80⟩
    ∧ Fits (hedEncInNet true messagePackLib) (hedDecInNet messagePackLib)
      (hedInNetPackedSizeMin messagePackLib) (hedInNetPackedSizeMax messagePackLib)
      ⟨⟨0⟩, 8⟩
    ∧ Fits (hedEncIn6Net true messagePackLib) (hedDecIn6Net messagePackLib)
      (hedIn6NetPackedSizeMin messagePackLib) (hedIn6NetPackedSizeMax messagePackLib)
      ⟨.ofBytes [0x20, 0x01], 16⟩
  := by
  obtain ⟨hsvc, hsvc6, hnet, hnet6⟩ :=
    packed_sizes_iff true messagePackLib messagePackLib_followsMessagePack
  refine ⟨?_, ?_, ?_, ?_⟩
  · exact (hsvc _ (by decide)).mpr (by decide)
  · exact (hsvc6 _ (by decide)).mpr (by decide)
  · apply (hnet _ (by decide) _).mpr (by decide)
    intro ret hret
    have hcheck : hedInNetCheckAddrPrefix ⟨⟨0⟩, 8⟩ = some 0 := by decide
    rw [hcheck] at hret
    exact (Option.some.inj hret).symm
  · exact (hnet6 _ (by decide) (by decide)).mpr (by decide)

/-- The message of the service 192.168.1.1:8080 has nine octets, where eight are declared. -/
theorem packed_size_too_small :
  ¬ Fits (hedEncInSvc true messagePackLib) (hedDecInSvc messagePackLib)
    (hedInSvcPackedSizeMin messagePackLib) (hedInSvcPackedSizeMax messagePackLib)
    ⟨⟨0x0101A8C0⟩, 8080⟩
  := by
  rintro ⟨b, hencode, _⟩
  have hcode : (hedEncInSvc true messagePackLib ⟨⟨0x0101A8C0⟩, 8080⟩ ⟨[], 8⟩).map Prod.fst
      = some (-EMSGSIZE.code) := by decide
  have hzero : (hedEncInSvc true messagePackLib ⟨⟨0x0101A8C0⟩, 8080⟩ ⟨[], 8⟩).map Prod.fst
      = some 0 := congrArg (Option.map Prod.fst) hencode
  rw [hcode] at hzero
  exact absurd hzero (by decide)

end Hed
