import Hed.Inet.Code

/-!
# What encodings write and decodings read

The values of the messages, each with its form, the function that encodes it and the one that
decodes it.  Under the laws that dpack promises, encoding a structure writes the forms of its
fields one after the other, if there is room for them, and decoding reads them back.
-/

namespace Hed

/-! ### Encodings -/

/-- The encoding writes some bytes if there is room for them, and else returns an error. -/
def Puts (p : Encoding) (b : Bytes) : Prop :=
  ∀ encoder, ∃ ret encoder', p encoder = some (ret, encoder')
    ∧ (ret = 0 ↔ b.length ≤ encoder.room) ∧ (ret = 0 → encoder' = encoder.put b)

/-- The encoding returns an error. -/
def Refuses (p : Encoding) : Prop :=
  ∀ encoder, ∃ ret encoder', p encoder = some (ret, encoder') ∧ ret ≠ 0

theorem Puts.eq_some_zero_iff {p : Encoding} {b : Bytes} (h : Puts p b)
    {encoder encoder' : Encoder} :
  p encoder = some (0, encoder') ↔ b.length ≤ encoder.room ∧ encoder' = encoder.put b
  := by
  obtain ⟨ret, out, hp, hret, hput⟩ := h encoder
  rw [hp, Option.some_inj, Prod.mk_inj]
  constructor
  · rintro ⟨rfl, rfl⟩
    use hret.mp rfl, hput rfl
  · rintro ⟨hroom, rfl⟩
    have hzero := hret.mpr hroom
    use hzero, hput hzero

theorem Refuses.ne_some_zero {p : Encoding} (h : Refuses p) (encoder encoder' : Encoder) :
  p encoder ≠ some (0, encoder')
  := by
  obtain ⟨ret, out, hp, hret⟩ := h encoder
  rw [hp]
  rintro ⟨⟩
  contradiction

/-- Going on after what an encoding did. -/
theorem Encoding.andThen_eq {p q : Encoding} {encoder encoder' : Encoder} {ret : ℤ}
    (h : p encoder = some (ret, encoder')) :
  p.andThen q encoder = if ret ≠ 0 then some (ret, encoder') else q encoder'
  := by
  rw [andThen, h]
  rfl

theorem Puts.andThen {p q : Encoding} {b c : Bytes} (hp : Puts p b) (hq : Puts q c) :
  Puts (p.andThen q) (b ++ c)
  := by
  intro encoder
  obtain ⟨ret, out, hpeq, hret, hput⟩ := hp encoder
  rw [Encoding.andThen_eq hpeq, List.length_append]
  split_ifs with hne
  · use ret, out, rfl
    constructor
    · constructor
      · intro hzero
        contradiction
      · intro hroom
        apply hret.mpr (by omega)
    · intro hzero
      contradiction
  · rw [ne_eq, not_not] at hne
    have hroom := hret.mp hne
    obtain rfl := hput hne
    obtain ⟨ret', out', hqeq, hret', hput'⟩ := hq (encoder.put b)
    use ret', out', hqeq
    constructor
    · have hleft : (encoder.put b).room = encoder.room - b.length := rfl
      rw [hret', hleft]
      constructor
      · intro _
        omega
      · intro _
        omega
    · rw [← Encoder.put_put]
      apply hput'

theorem Refuses.andThen {p : Encoding} (hp : Refuses p) (q : Encoding) :
  Refuses (p.andThen q)
  := by
  intro encoder
  obtain ⟨ret, out, hpeq, hne⟩ := hp encoder
  use ret, out
  rw [Encoding.andThen_eq hpeq, if_pos hne]
  use rfl

theorem Puts.andThen_refuses {p q : Encoding} {b : Bytes} (hp : Puts p b) (hq : Refuses q) :
  Refuses (p.andThen q)
  := by
  intro encoder
  obtain ⟨ret, out, hpeq, _⟩ := hp encoder
  rw [Encoding.andThen_eq hpeq]
  split_ifs with hne
  · use ret, out
  · apply hq out

theorem refuses_code {ret : ℤ} (h : ret ≠ 0) :
  Refuses (fun encoder => some (ret, encoder))
  := by
  intro encoder
  use ret, encoder

/-! ### Values with their forms -/

/-- A kind of value: its form in a message, and the functions that encode and decode it. -/
structure Codec (α : Type) where
  form : α → Bytes
  encode : α → Encoding
  decode : Decoding α

/-- Encoding writes the form, and decoding reads it back. -/
structure Codec.Lawful {α : Type} (c : Codec α) : Prop where
  puts : ∀ v, Puts (c.encode v) (c.form v)
  reads : ∀ v rest, c.decode ⟨c.form v ++ rest⟩ = ((0, v), ⟨rest⟩)

namespace DpackLib

variable (dpack : DpackLib)

def uintCodec : Codec UInt32 where
  form := dpack.uint
  encode v encoder := some (dpack.encodeUint encoder v)
  decode := dpack.decodeUint

def uint8Codec : Codec Byte where
  form := dpack.uint8
  encode v encoder := some (dpack.encodeUint8 encoder v)
  decode := dpack.decodeUint8

def uint16Codec : Codec UInt16 where
  form := dpack.uint16
  encode v encoder := some (dpack.encodeUint16 encoder v)
  decode := dpack.decodeUint16

def inAddrCodec : Codec InAddr where
  form addr := dpack.uint addr.sAddr
  encode := hedEncodeInAddr dpack
  decode := hedDecodeInAddr dpack

def in6AddrCodec : Codec In6Addr where
  form addr := dpack.bin addr.s6Addr
  encode := hedEncodeIn6Addr dpack
  decode := hedDecodeIn6Addr dpack

/-- What dpack promises for the values used here: encoding writes them if there is room, and
decoding undoes encoding. -/
structure Inverts : Prop where
  array : Puts (beginStruct dpack) (dpack.array 2)
  arrayCount : ∀ rest, dpack.arrayDecodeCountEqu ⟨dpack.array 2 ++ rest⟩ 2 = (0, ⟨rest⟩)
  uint : dpack.uintCodec.Lawful
  uint8 : dpack.uint8Codec.Lawful
  uint16 : dpack.uint16Codec.Lawful
  bin : ∀ b : Bytes, b.length = 16 →
    Puts (fun encoder => some (dpack.encodeBin encoder b)) (dpack.bin b)
  bincpy : ∀ b rest : Bytes, b.length = 16 →
    dpack.decodeBincpyEqu ⟨dpack.bin b ++ rest⟩ 16 = ((16, b), ⟨rest⟩)

variable {dpack}

theorem Inverts.inAddr (h : dpack.Inverts) :
  dpack.inAddrCodec.Lawful
  := by
  constructor
  · rintro ⟨sAddr⟩
    apply h.uint.puts sAddr
  · rintro ⟨sAddr⟩ rest
    have hread : dpack.decodeUint ⟨dpack.uint sAddr ++ rest⟩ = ((0, sAddr), ⟨rest⟩) :=
      h.uint.reads sAddr rest
    simp only [inAddrCodec, hedDecodeInAddr, hread]

theorem ofBytes_s6Addr (addr : In6Addr) :
  In6Addr.ofBytes addr.s6Addr = addr
  := by
  obtain ⟨b, hb⟩ := addr
  rw [In6Addr.ofBytes, In6Addr.mk.injEq]
  apply List.take_left' hb

theorem Inverts.in6Addr (h : dpack.Inverts) :
  dpack.in6AddrCodec.Lawful
  := by
  constructor
  · intro addr
    apply h.bin addr.s6Addr addr.length_s6Addr
  · intro addr rest
    have hread := h.bincpy addr.s6Addr rest addr.length_s6Addr
    have hcode : ¬(16 : ℤ) < 0 := by decide
    simp only [in6AddrCodec, hedDecodeIn6Addr, hread, hcode, if_false, if_true, ofBytes_s6Addr]

end DpackLib

/-! ### Structures -/

section Structures

variable {α β : Type} (dpack : DpackLib) (addr : Codec α) (extra : Codec β)

/-- The form of a structure: the header of an array of two, and the forms of its fields. -/
def structForm (value : Located α β) : Bytes :=
  dpack.array 2 ++ (addr.form value.addr ++ extra.form value.extra)

/-- A message holds the fields of a structure, before some rest. -/
def Holds (decoder : Decoder) (value : Located α β) (rest : Decoder) : Prop :=
  ∃ d d', dpack.arrayDecodeCountEqu decoder 2 = (0, d) ∧ addr.decode d = ((0, value.addr), d')
    ∧ extra.decode d' = ((0, value.extra), rest)

variable {dpack addr extra} {chk : β → ℤ} {check : Located α β → Option ℤ}

/-- What a message holds is what the functions that decode the fields return. -/
theorem holds_iff {decoder d d' d'' rest : Decoder} {ret ret' ret'' : ℤ} {a : α} {b : β}
    {value : Located α β} (hcount : dpack.arrayDecodeCountEqu decoder 2 = (ret, d))
    (haddr : addr.decode d = ((ret', a), d')) (hextra : extra.decode d' = ((ret'', b), d'')) :
  Holds dpack addr extra decoder value rest
    ↔ ret = 0 ∧ ret' = 0 ∧ ret'' = 0 ∧ value = ⟨a, b⟩ ∧ rest = d''
  := by
  obtain ⟨a', b'⟩ := value
  constructor
  · rintro ⟨e, e', hcount', haddr', hextra'⟩
    rw [hcount] at hcount'
    obtain ⟨rfl, rfl⟩ := Prod.mk.inj hcount'
    rw [haddr] at haddr'
    cases haddr'
    rw [hextra] at hextra'
    cases hextra'
    simp
  · rintro ⟨rfl, rfl, rfl, ⟨⟩, rfl⟩
    use d, d'

theorem Holds.unique {decoder : Decoder} {value value' : Located α β} {rest rest' : Decoder}
    (h : Holds dpack addr extra decoder value rest)
    (h' : Holds dpack addr extra decoder value' rest') :
  value = value' ∧ rest = rest'
  := by
  obtain ⟨d, d', hcount, haddr, hextra⟩ := h
  obtain ⟨_, _, _, rfl, rfl⟩ := (holds_iff hcount haddr hextra).mp h'
  use rfl

theorem holds_structForm (hdpack : dpack.Inverts) (haddr : addr.Lawful) (hextra : extra.Lawful)
    (value : Located α β) (rest : Bytes) :
  Holds dpack addr extra ⟨structForm dpack addr extra value ++ rest⟩ value ⟨rest⟩
  := by
  rw [structForm, List.append_assoc, List.append_assoc]
  exact ⟨_, _, hdpack.arrayCount _, haddr.reads value.addr _, hextra.reads value.extra rest⟩

theorem chkFields_of_zero {value : Located α β} {rest : Option ℤ} (h : chk value.extra = 0) :
  chkFields (fun _ => 0) chk value rest = rest
  := by
  simp [chkFields, h]

variable (dpack addr extra chk check) in
/-- A structure is decoded from the messages that hold it, if it passes the checks. -/
theorem decStruct_eq_some_zero_iff {decoder rest : Decoder} {value value' : Located α β} :
  decStruct dpack addr.decode (decScalar chk extra.decode)
      (fun v => chkFields (fun _ => 0) chk v (check v)) decoder value = some ((0, value'), rest)
    ↔ Holds dpack addr extra decoder value' rest ∧ chk value'.extra = 0 ∧ check value' = some 0
  := by
  rcases hcount : dpack.arrayDecodeCountEqu decoder 2 with ⟨ret, d⟩
  rcases haddr : addr.decode d with ⟨⟨ret', a⟩, d'⟩
  rcases hextra : extra.decode d' with ⟨⟨ret'', b⟩, d''⟩
  rw [holds_iff hcount haddr hextra, decStruct, hcount]
  simp only [haddr, decScalar, hextra]
  split_ifs with h h' h'' hchk
  · simp [h]
  · simp [h']
  · simp [h'']
  · constructor
    · intro heq
      exact absurd (congrArg (fun r => r.1.1) (Option.some.inj heq)) hchk
    · rintro ⟨⟨_, _, _, rfl, rfl⟩, hzero, _⟩
      contradiction
  · rw [not_not] at h h' h'' hchk
    rw [chkFields_of_zero hchk, Option.map_eq_some_iff]
    constructor
    · rintro ⟨code, hcheck, heq⟩
      cases heq
      exact ⟨⟨h, h', h'', rfl, rfl⟩, hchk, hcheck⟩
    · rintro ⟨⟨_, _, _, rfl, rfl⟩, _, hcheck⟩
      use 0, hcheck

variable (addr extra chk check) in
/-- Encoding a structure that passes the checks writes its form. -/
theorem encStruct_puts (inetAssert : Bool) (hdpack : dpack.Inverts) (haddr : addr.Lawful)
    {encode : Encoder → β → ℤ × Encoder}
    (hextra : ∀ v, Puts (fun encoder => some (encode encoder v)) (extra.form v))
    {value : Located α β} (hchk : chk value.extra = 0) (hcheck : check value = some 0) :
  Puts (encStruct inetAssert dpack (fun v => chkFields (fun _ => 0) chk v (check v))
      addr.encode (encScalar inetAssert chk encode) value)
    (structForm dpack addr extra value)
  := by
  have hassert : ¬(inetAssert = true
      ∧ chkFields (fun _ => 0) chk value (check value) ≠ some 0) := by
    rw [chkFields_of_zero hchk, hcheck]
    simp
  have hscalar : encScalar inetAssert chk encode value.extra
      = fun encoder => some (encode encoder value.extra) := by
    funext encoder
    rw [encScalar, if_neg (by simp [hchk])]
  have hputs := hdpack.array.andThen ((haddr.puts value.addr).andThen (hextra value.extra))
  intro encoder
  rw [encStruct, if_neg hassert, hscalar]
  apply hputs

/-! ### Structures in JSON -/

/-- json-c when no allocation fails. -/
structure JsonC.Allocates (json : JsonC) : Prop where
  newObject : json.newObject = some (.object [])
  newString : ∀ s, json.newString s = some (.string s)
  newInt : ∀ n, json.newInt n = some (.int n)
  objectAdd : ∀ fields key obj, (∀ field ∈ fields, field.1 ≠ key) →
    json.objectAdd (.object fields) key obj = (0, .object (fields ++ [(key, obj)]))

/-- The object of a structure. -/
def structObject (buf : Text) (key : Text) (n : ℤ) : JsonObject :=
  .object [(addrKey, .string buf), (key, .int n)]

variable {json : JsonC}

variable (chk) in
theorem decScalarToJson_eq (hjson : json.Allocates) {decode : Decoding β} (toInt : β → ℤ)
    {decoder rest : Decoder} {ret : ℤ} {b : β} (h : decode decoder = ((ret, b), rest)) :
  decScalarToJson json chk decode toInt decoder
    = (if ret ≠ 0 then .error (some (-ret)) else if chk b ≠ 0 then .error (some (-chk b))
        else .ok (.int (toInt b)), rest)
  := by
  rw [decScalarToJson, h]
  simp only [hjson.newInt]
  split_ifs
  · rfl
  · rfl
  · rfl

theorem decodeAddrToJson_eq (hjson : json.Allocates) (inet : Presentation α)
    {decode : Decoding α} {decoder rest : Decoder} {a : α} {buf : Text}
    (h : decode decoder = ((0, a), rest)) (hntop : inet.inetNtop a = .ok buf) :
  decodeAddrToJson json inet (fun _ => 0) decode decoder = (.ok (.string buf), rest)
  := by
  rw [decodeAddrToJson, h]
  simp only [hntop, hjson.newString]
  rfl

variable (dpack addr extra chk) in
/-- A message converts to JSON if it holds a structure whose second field passes its check;
the check of the structure is not made. -/
theorem decStructToJson_eq_ok_iff (hjson : json.Allocates) {inet : Presentation α}
    (hinet : ∀ a, ∃ buf, inet.inetNtop a = .ok buf) {key : Text} (hkey : addrKey ≠ key)
    (toInt : β → ℤ) {decoder rest : Decoder} {obj : JsonObject} :
  decStructToJson dpack json (decodeAddrToJson json inet (fun _ => 0) addr.decode) key
      (decScalarToJson json chk extra.decode toInt) decoder = (.ok obj, rest)
    ↔ ∃ value buf, Holds dpack addr extra decoder value rest ∧ chk value.extra = 0
      ∧ inet.inetNtop value.addr = .ok buf ∧ obj = structObject buf key (toInt value.extra)
  := by
  rcases hcount : dpack.arrayDecodeCountEqu decoder 2 with ⟨ret, d⟩
  rcases haddr : addr.decode d with ⟨⟨ret', a⟩, d'⟩
  rcases hextra : extra.decode d' with ⟨⟨ret'', b⟩, d''⟩
  obtain ⟨buf, hntop⟩ := hinet a
  have hfirst (o : JsonObject) : json.objectAdd (.object []) addrKey o
      = (0, .object [(addrKey, o)]) := by
    apply hjson.objectAdd
    simp
  have hsecond (o o' : JsonObject) : json.objectAdd (.object [(addrKey, o)]) key o'
      = (0, .object [(addrKey, o), (key, o')]) := by
    apply hjson.objectAdd
    simpa using hkey
  have hscalar := decScalarToJson_eq chk hjson toInt hextra
  simp only [holds_iff hcount haddr hextra]
  rw [decStructToJson, hjson.newObject]
  simp only [hcount]
  rcases eq_or_ne ret 0 with rfl | hret
  · rcases eq_or_ne ret' 0 with rfl | hret'
    · simp only [decodeAddrToJson_eq hjson inet haddr hntop, hfirst, hscalar]
      rcases eq_or_ne ret'' 0 with rfl | hret''
      · rcases eq_or_ne (chk b) 0 with hchk | hchk
        · constructor
          · intro h
            simp only [hchk, hsecond] at h
            cases h
            use ⟨a, b⟩, buf, ⟨trivial, trivial, rfl, rfl, rfl⟩, hchk, hntop
            rfl
          · rintro ⟨_, buf', ⟨_, _, _, rfl, rfl⟩, _, hntop', rfl⟩
            rw [hntop] at hntop'
            obtain rfl := Except.ok.inj hntop'
            simp [hchk, hsecond, structObject]
        · simp [hchk]
      · simp [hret'']
    · simp [hret', decodeAddrToJson, haddr]
  · simp [hret]

theorem refuses_encodeAddrFromJson {inet : Presentation α} (encode : α → Encoding) {s : Text}
    (h : ∀ a, inet.inetPton (cString s) ≠ .ok (some a)) :
  Refuses (encodeAddrFromJson inet (fun _ => 0) encode (.string s))
  := by
  intro encoder
  rw [encodeAddrFromJson]
  rcases hpton : inet.inetPton (cString s) with e | _ | a
  · use -e.code, encoder, rfl
    apply Int.neg_ne_zero.mpr e.ne_zero
  · use -EINVAL.code, encoder, rfl
    decide
  · exact absurd hpton (h a)

variable (addr extra chk) in
/-- From JSON a structure is encoded if its address is one and its second field passes its
check; the check of the structure is not made. -/
theorem encStructFromJson_eq_some_zero_iff (hdpack : dpack.Inverts) (haddr : addr.Lawful)
    {encode : Encoder → β → ℤ × Encoder}
    (hextra : ∀ v, Puts (fun encoder => some (encode encoder v)) (extra.form v))
    (inet : Presentation α) {object : JsonObject} {key s : Text} {n m : ℤ}
    (hs : jsonObjectObjectGet object addrKey = some (.string s))
    (hn : jsonObjectObjectGet object key = some (.int n)) (hint : json.getInt (.int n) = (m, 0))
    (ofInt : ℤ → β) {encoder encoder' : Encoder} :
  encStructFromJson dpack (encodeAddrFromJson inet (fun _ => 0) addr.encode) key
      (encScalarFromJson json chk ofInt encode) object encoder = some (0, encoder')
    ↔ ∃ a, inet.inetPton (cString s) = .ok (some a) ∧ chk (ofInt m) = 0
      ∧ (structForm dpack addr extra ⟨a, ofInt m⟩).length ≤ encoder.room
      ∧ encoder' = encoder.put (structForm dpack addr extra ⟨a, ofInt m⟩)
  := by
  have hfirst : encField object addrKey (encodeAddrFromJson inet (fun _ => 0) addr.encode)
      = encodeAddrFromJson inet (fun _ => 0) addr.encode (.string s) := by
    rw [encField, hs]
  have hsecond : encField object key (encScalarFromJson json chk ofInt encode)
      = fun encoder => if chk (ofInt m) ≠ 0 then some (chk (ofInt m), encoder)
        else some (encode encoder (ofInt m)) := by
    funext encoder
    rw [encField, hn]
    simp only [encScalarFromJson, hint]
    rfl
  rw [encStructFromJson, hfirst, hsecond]
  by_cases hpton : ∃ a, inet.inetPton (cString s) = .ok (some a)
  · obtain ⟨a, hpton⟩ := hpton
    have haddress : encodeAddrFromJson inet (fun _ => 0) addr.encode (.string s)
        = addr.encode a := by
      funext encoder
      rw [encodeAddrFromJson, hpton]
      rfl
    rw [haddress]
    rcases eq_or_ne (chk (ofInt m)) 0 with hchk | hchk
    · have hputs := hdpack.array.andThen ((haddr.puts a).andThen (hextra (ofInt m)))
      simp only [hchk, ne_eq, not_true_eq_false, if_false]
      rw [hputs.eq_some_zero_iff]
      simp [hpton, structForm]
    · have hrefuses := hdpack.array.andThen_refuses
        ((haddr.puts a).andThen_refuses (refuses_code hchk))
      simp only [hchk, ne_eq, not_false_eq_true, if_true]
      simp [hrefuses.ne_some_zero]
  · have hnone : ∀ a, inet.inetPton (cString s) ≠ .ok (some a) := not_exists.mp hpton
    have hrefuses (q : Encoding) := hdpack.array.andThen_refuses
      ((refuses_encodeAddrFromJson addr.encode hnone).andThen q)
    constructor
    · intro heq
      exact absurd heq ((hrefuses _).ne_some_zero encoder encoder')
    · rintro ⟨a, ha, _⟩
      exact absurd ⟨a, ha⟩ hpton

end Structures

end Hed
