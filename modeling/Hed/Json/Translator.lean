import Hed.Inet.Codec

/-!
# Translations between JSON and messages

The conversions of a type come in pairs: a function that encodes an object of JSON into a message
and one that decodes a message to an object of JSON.  A `Translator` is such a pair together with
what it is about: the values of the type, the objects that denote them and the messages that hold
them.  It is faithful if both functions keep the value.  Then translating there and back again
gives what was there at first, up to the way it is written.
-/

namespace Hed

/-- Two functions between JSON and messages, and the values that they translate.  `Holds` says
what a message holds before some rest, and `Valid` which values there are. -/
structure Translator (α : Type) where
  Valid : α → Prop
  form : α → Bytes
  Holds : Decoder → α → Decoder → Prop
  object : α → JsonObject
  read : JsonObject → Option α
  fromJson : JsonObject → Encoding
  toJson : ToJson

/-- The encoding does not succeed: it returns an error, or an assertion fails. -/
def Declines (p : Encoding) : Prop := ∀ encoder encoder', p encoder ≠ some (0, encoder')

theorem Refuses.declines {p : Encoding} (h : Refuses p) :
  Declines p
  := h.ne_some_zero

/-- What encoding in two steps to the end takes. -/
theorem Encoding.andThen_eq_some_zero {p q : Encoding} {encoder encoder' : Encoder}
    (h : p.andThen q encoder = some (0, encoder')) :
  ∃ out, p encoder = some (0, out) ∧ q out = some (0, encoder')
  := by
  obtain ⟨⟨ret, out⟩, hp, hnext⟩ := Option.bind_eq_some_iff.mp h
  split_ifs at hnext with hret
  · cases hnext
    contradiction
  · rw [ne_eq, not_not] at hret
    obtain rfl : ret = 0 := hret
    use out, hp, hnext

theorem Declines.andThen {p : Encoding} (hp : Declines p) (q : Encoding) :
  Declines (p.andThen q)
  := by
  intro encoder encoder' h
  obtain ⟨out, hout, _⟩ := Encoding.andThen_eq_some_zero h
  apply hp encoder out hout

theorem Declines.after {q : Encoding} (hq : Declines q) (p : Encoding) :
  Declines (p.andThen q)
  := by
  intro encoder encoder' h
  obtain ⟨out, _, hout⟩ := Encoding.andThen_eq_some_zero h
  apply hq out encoder' hout

namespace Translator

variable {α β : Type}

/-- Both functions keep the value. -/
structure Faithful (t : Translator α) : Prop where
  writes : ∀ obj v, t.read obj = some v → Puts (t.fromJson obj) (t.form v)
  declines : ∀ obj, t.read obj = none → Declines (t.fromJson obj)
  shows : ∀ decoder rest obj, t.toJson decoder = (.ok obj, rest)
    ↔ ∃ v, t.Holds decoder v rest ∧ t.Valid v ∧ obj = t.object v
  holds_form : ∀ v rest, t.Valid v → t.Holds ⟨t.form v ++ rest⟩ v ⟨rest⟩
  unique : ∀ decoder v v' rest rest', t.Holds decoder v rest → t.Holds decoder v' rest' →
    v = v' ∧ rest = rest'
  valid_of_read : ∀ obj v, t.read obj = some v → t.Valid v
  read_object : ∀ v, t.Valid v → t.read (t.object v) = some v
  object_ne_null : ∀ v, t.object v ≠ .null

/-- The encoding writes some bytes wherever there is room for them. -/
def Writes (p : Encoding) (b : Bytes) : Prop :=
  ∀ encoder, b.length ≤ encoder.room → p encoder = some (0, encoder.put b)

/-- Translating there and back again.  What is encoded from JSON decodes to an object that is
encoded in the same way; what decodes to JSON is decoded to a value, and encoded from JSON it is a
message of that value; and what is decoded decodes to JSON, too. -/
structure RoundTrips (fromJson : JsonObject → Encoding) (toJson : ToJson)
    (Decodes : Decoder → α → Decoder → Prop) : Prop where
  json : ∀ obj encoder encoder', fromJson obj encoder = some (0, encoder') → ∃ b obj',
    encoder' = encoder.put b ∧ (∀ rest, toJson ⟨b ++ rest⟩ = (.ok obj', ⟨rest⟩))
      ∧ Writes (fromJson obj') b
  message : ∀ decoder rest obj, toJson decoder = (.ok obj, rest) → ∃ b v,
    Decodes decoder v rest ∧ Writes (fromJson obj) b ∧ Decodes ⟨b⟩ v ⟨[]⟩
  agree : ∀ decoder v rest, Decodes decoder v rest → ∃ obj, toJson decoder = (.ok obj, rest)

theorem writes_of_puts {p : Encoding} {b : Bytes} (h : Puts p b) :
  Writes p b
  := by
  intro encoder hroom
  apply h.eq_some_zero_iff.mpr
  use hroom

variable {t : Translator α}

/-- An object that denotes no value is not encoded. -/
theorem Faithful.exists_of_fromJson (h : t.Faithful) {obj : JsonObject}
    {encoder encoder' : Encoder} (hencode : t.fromJson obj encoder = some (0, encoder')) :
  ∃ v, t.read obj = some v ∧ encoder' = encoder.put (t.form v)
  := by
  cases hread : t.read obj with
  | none => exact absurd hencode (h.declines obj hread encoder encoder')
  | some v =>
      use v, rfl
      apply ((h.writes obj v hread).eq_some_zero_iff.mp hencode).2

/-- The message of a value decodes to the object of the value. -/
theorem Faithful.toJson_form (h : t.Faithful) {v : α} (hv : t.Valid v) (rest : Bytes) :
  t.toJson ⟨t.form v ++ rest⟩ = (.ok (t.object v), ⟨rest⟩)
  := by
  apply (h.shows _ _ _).mpr
  use v, h.holds_form v rest hv, hv

/-- The object of a value is encoded as the message of the value. -/
theorem Faithful.fromJson_object (h : t.Faithful) {v : α} (hv : t.Valid v) :
  Writes (t.fromJson (t.object v)) (t.form v)
  := by
  apply writes_of_puts
  apply h.writes
  apply h.read_object v hv

theorem Faithful.roundTrips (h : t.Faithful) {Decodes : Decoder → α → Decoder → Prop}
    (hdecodes : ∀ decoder v rest, Decodes decoder v rest
      ↔ t.Holds decoder v rest ∧ t.Valid v) :
  RoundTrips t.fromJson t.toJson Decodes
  := by
  constructor
  · intro obj encoder encoder' hencode
    obtain ⟨v, hread, hput⟩ := h.exists_of_fromJson hencode
    have hv := h.valid_of_read obj v hread
    use t.form v, t.object v, hput, h.toJson_form hv, h.fromJson_object hv
  · intro decoder rest obj hjson
    obtain ⟨v, hholds, hv, rfl⟩ := (h.shows _ _ _).mp hjson
    use t.form v, v, (hdecodes _ _ _).mpr ⟨hholds, hv⟩, h.fromJson_object hv
    apply (hdecodes _ _ _).mpr
    have hform := h.holds_form v [] hv
    rw [List.append_nil] at hform
    use hform, hv
  · intro decoder v rest hdecode
    obtain ⟨hholds, hv⟩ := (hdecodes _ _ _).mp hdecode
    use t.object v
    apply (h.shows _ _ _).mpr
    use v, hholds, hv

/-! ### Structures -/

section Structures

variable (dpack : DpackLib) (json : JsonC) (key : Text) (addr : Translator α)
  (extra : Translator β)

/-- The two fields of an object, when both denote values. -/
def readStruct (obj : JsonObject) : Option (Located α β) :=
  ((jsonObjectObjectGet obj addrKey).bind addr.read).bind (fun a =>
    ((jsonObjectObjectGet obj key).bind extra.read).map (fun b => ⟨a, b⟩))

/-- The translator of a structure: an array of two in a message, and an object with two fields in
JSON. -/
def struct : Translator (Located α β) where
  Valid v := addr.Valid v.addr ∧ extra.Valid v.extra
  form v := dpack.array 2 ++ (addr.form v.addr ++ extra.form v.extra)
  Holds decoder v rest := ∃ d d', dpack.arrayDecodeCountEqu decoder 2 = (0, d)
    ∧ addr.Holds d v.addr d' ∧ extra.Holds d' v.extra rest
  object v := .object [(addrKey, addr.object v.addr), (key, extra.object v.extra)]
  read := readStruct key addr extra
  fromJson := encStructFromJson dpack addr.fromJson key extra.fromJson
  toJson := decStructToJson dpack json addr.toJson key extra.toJson

variable {dpack json key addr extra}

theorem encField_of_get {object obj : JsonObject} {k : Text} {fromJson : JsonObject → Encoding}
    (h : jsonObjectObjectGet object k = some obj) :
  encField object k fromJson = fromJson obj
  := by
  rw [encField, h]

/-- A field that denotes a value is encoded as that value. -/
theorem Faithful.puts_field (h : t.Faithful) {object : JsonObject} {k : Text} {v : α}
    (hread : (jsonObjectObjectGet object k).bind t.read = some v) :
  Puts (encField object k t.fromJson) (t.form v)
  := by
  obtain ⟨obj, hobj, hv⟩ := Option.bind_eq_some_iff.mp hread
  rw [encField_of_get hobj]
  apply h.writes obj v hv

/-- A field that is missing or denotes no value is not encoded. -/
theorem Faithful.declines_field (h : t.Faithful) {object : JsonObject} {k : Text}
    (hread : (jsonObjectObjectGet object k).bind t.read = none) :
  Declines (encField object k t.fromJson)
  := by
  cases hget : jsonObjectObjectGet object k with
  | none =>
      rw [encField, hget]
      apply Refuses.declines
      apply refuses_code
      decide
  | some obj =>
      rw [hget] at hread
      rw [encField_of_get hget]
      apply h.declines obj hread

/-- What the decoder of a structure to JSON does when memory does not run out. -/
theorem decStructToJson_iff (hjson : json.Allocates) (hkey : addrKey ≠ key)
    {addrToJson extraToJson : ToJson} {decoder rest : Decoder} {obj : JsonObject} :
  decStructToJson dpack json addrToJson key extraToJson decoder = (.ok obj, rest)
    ↔ ∃ d d' o o', dpack.arrayDecodeCountEqu decoder 2 = (0, d) ∧ addrToJson d = (.ok o, d')
      ∧ extraToJson d' = (.ok o', rest) ∧ obj = .object [(addrKey, o), (key, o')]
  := by
  have hfirst (o : JsonObject) : json.objectAdd (.object []) addrKey o
      = (0, .object [(addrKey, o)]) := by
    apply hjson.objectAdd
    simp
  have hsecond (o o' : JsonObject) : json.objectAdd (.object [(addrKey, o)]) key o'
      = (0, .object [(addrKey, o), (key, o')]) := by
    apply hjson.objectAdd
    simpa using hkey
  rw [decStructToJson, hjson.newObject]
  rcases hcount : dpack.arrayDecodeCountEqu decoder 2 with ⟨ret, d⟩
  rcases eq_or_ne ret 0 with rfl | hret
  · rcases haddr : addrToJson d with ⟨e | o, d'⟩
    · simp [haddr]
    · rcases hextra : extraToJson d' with ⟨e | o', d''⟩
      · simp [haddr, hfirst, hextra]
      · simp only [haddr, hfirst, hextra, hsecond]
        constructor
        · rintro ⟨⟩
          use d, d', o, o', rfl, haddr, hextra
        · rintro ⟨d₁, d₁', o₁, o₁', ⟨⟩, haddr', hextra', rfl⟩
          rw [haddr] at haddr'
          cases haddr'
          rw [hextra] at hextra'
          cases hextra'
          rfl
  · simp [hret]

/-- A field that is found is there, unless it is null. -/
theorem get_of_find {fields : List (Text × JsonObject)} {k : Text} {o : JsonObject}
    (h : fields.find? (fun field => field.1 = k) = some (k, o)) (ho : o ≠ .null) :
  jsonObjectObjectGet (.object fields) k = some o
  := by
  simp only [jsonObjectObjectGet, h]

theorem Faithful.struct (hdpack : dpack.Inverts) (hjson : json.Allocates) (hkey : addrKey ≠ key)
    (haddr : addr.Faithful) (hextra : extra.Faithful) :
  (struct dpack json key addr extra).Faithful
  := by
  constructor
  · intro obj v hread
    obtain ⟨a, ha, hread⟩ := Option.bind_eq_some_iff.mp hread
    obtain ⟨b, hb, rfl⟩ := Option.map_eq_some_iff.mp hread
    apply hdpack.array.andThen
    apply (haddr.puts_field ha).andThen (hextra.puts_field hb)
  · intro obj hread
    have hfrom : (Translator.struct dpack json key addr extra).fromJson obj
        = (beginStruct dpack).andThen ((encField obj addrKey addr.fromJson).andThen
          (encField obj key extra.fromJson)) := rfl
    rw [hfrom]
    apply Declines.after
    cases ha : (jsonObjectObjectGet obj addrKey).bind addr.read with
    | none => apply (haddr.declines_field ha).andThen
    | some a =>
        have hb : (jsonObjectObjectGet obj key).bind extra.read = none := by
          simpa [Translator.struct, readStruct, ha] using hread
        apply (hextra.declines_field hb).after
  · intro decoder rest obj
    constructor
    · intro h
      obtain ⟨d, d', o, o', hcount, ho, ho', rfl⟩ := (decStructToJson_iff hjson hkey).mp h
      obtain ⟨a, hholds, ha, rfl⟩ := (haddr.shows _ _ _).mp ho
      obtain ⟨b, hholds', hb, rfl⟩ := (hextra.shows _ _ _).mp ho'
      exact ⟨⟨a, b⟩, ⟨d, d', hcount, hholds, hholds'⟩, ⟨ha, hb⟩, rfl⟩
    · rintro ⟨⟨a, b⟩, ⟨d, d', hcount, hholds, hholds'⟩, ⟨ha, hb⟩, rfl⟩
      apply (decStructToJson_iff hjson hkey).mpr
      use d, d', addr.object a, extra.object b, hcount
      use (haddr.shows _ _ _).mpr ⟨a, hholds, ha, rfl⟩
      use (hextra.shows _ _ _).mpr ⟨b, hholds', hb, rfl⟩
      rfl
  · rintro ⟨a, b⟩ rest ⟨ha, hb⟩
    have hform : dpack.array 2 ++ (addr.form a ++ extra.form b) ++ rest
        = dpack.array 2 ++ (addr.form a ++ (extra.form b ++ rest)) := by simp
    use ⟨addr.form a ++ (extra.form b ++ rest)⟩, ⟨extra.form b ++ rest⟩
    constructor
    · apply Eq.trans (congrArg (fun b => dpack.arrayDecodeCountEqu ⟨b⟩ 2) hform)
      apply hdpack.arrayCount
    · use haddr.holds_form a _ ha, hextra.holds_form b rest hb
  · rintro decoder ⟨a, b⟩ ⟨a', b'⟩ rest rest' ⟨d, d', hcount, ha, hb⟩ ⟨e, e', hcount', ha', hb'⟩
    obtain ⟨-, rfl⟩ := Prod.mk.inj (hcount.symm.trans hcount')
    obtain ⟨rfl, rfl⟩ := haddr.unique _ _ _ _ _ ha ha'
    obtain ⟨rfl, rfl⟩ := hextra.unique _ _ _ _ _ hb hb'
    use rfl
  · intro obj v hread
    obtain ⟨a, ha, hread⟩ := Option.bind_eq_some_iff.mp hread
    obtain ⟨b, hb, rfl⟩ := Option.map_eq_some_iff.mp hread
    obtain ⟨o, -, ha⟩ := Option.bind_eq_some_iff.mp ha
    obtain ⟨o', -, hb⟩ := Option.bind_eq_some_iff.mp hb
    exact ⟨haddr.valid_of_read o a ha, hextra.valid_of_read o' b hb⟩
  · rintro ⟨a, b⟩ ⟨ha, hb⟩
    have hget : jsonObjectObjectGet (.object [(addrKey, addr.object a), (key, extra.object b)])
        addrKey = some (addr.object a) := by
      apply get_of_find _ (haddr.object_ne_null a)
      simp
    have hget' : jsonObjectObjectGet (.object [(addrKey, addr.object a), (key, extra.object b)])
        key = some (extra.object b) := by
      apply get_of_find _ (hextra.object_ne_null b)
      simp [hkey]
    simp [Translator.struct, readStruct, hget, hget', haddr.read_object a ha,
      hextra.read_object b hb]
  · rintro v ⟨⟩

end Structures

end Translator

end Hed
