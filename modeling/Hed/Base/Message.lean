import Hed.Lmdb.World

/-!
# Messages

What the conversions of `base-impl.c` read and write: the encoders and the decoders of dpack,
the objects of json-c, and the bytes of the integers of the host.
-/

namespace Hed

def ENOMSG : Errno := ⟨42, by decide⟩
def EPROTO : Errno := ⟨71, by decide⟩
def EMSGSIZE : Errno := ⟨90, by decide⟩

/-! ### Bytes -/

/-- The lowest `k` bytes of a number, on a little-endian host. -/
def leBytes : ℕ → ℕ → Bytes
  | 0, _ => []
  | k + 1, n => ⟨n % 256, Nat.mod_lt _ (by decide)⟩ :: leBytes k (n / 256)

/-- The number whose bytes these are. -/
def ofLeBytes : Bytes → ℕ
  | [] => 0
  | b :: rest => b.val + 256 * ofLeBytes rest

@[simp]
theorem length_leBytes (k n : ℕ) :
  (leBytes k n).length = k
  := by
  induction k generalizing n with
  | zero => rfl
  | succ k ih => rw [leBytes, List.length_cons, ih]

theorem ofLeBytes_leBytes (k n : ℕ) :
  ofLeBytes (leBytes k n) = n % 256 ^ k
  := by
  induction k generalizing n with
  | zero => rw [leBytes, ofLeBytes, pow_zero, Nat.mod_one]
  | succ k ih =>
      rw [leBytes, ofLeBytes, ih, pow_succ', Nat.mod_mul]

/-- The bytes of a 64-bit integer. -/
def int64Bytes (n : Int64) : Bytes := leBytes 8 n.toUInt64.toNat

/-- The 64-bit integer of some bytes. -/
def int64OfBytes (b : Bytes) : Int64 := (UInt64.ofNat (ofLeBytes b)).toInt64

theorem int64OfBytes_int64Bytes (n : Int64) :
  int64OfBytes (int64Bytes n) = n
  := by
  have hlt : n.toUInt64.toNat < 256 ^ 8 := n.toUInt64.toNat_lt
  rw [int64OfBytes, int64Bytes, ofLeBytes_leBytes, Nat.mod_eq_of_lt hlt, UInt64.ofNat_toNat,
    Int64.toInt64_toUInt64]

/-! ### Encoders and decoders -/

/-- An encoder: what it wrote, and the room that is left in its buffer. -/
structure Encoder where
  written : Bytes
  room : ℕ
  deriving DecidableEq

/-- A decoder: what is left for it to read. -/
structure Decoder where
  input : Bytes
  deriving DecidableEq

/-- The encoder after it wrote some bytes. -/
def Encoder.put (encoder : Encoder) (b : Bytes) : Encoder :=
  ⟨encoder.written ++ b, encoder.room - b.length⟩

@[simp]
theorem Encoder.put_put (encoder : Encoder) (b c : Bytes) :
  (encoder.put b).put c = encoder.put (b ++ c)
  := by
  rw [put, put, put, List.append_assoc, List.length_append, Nat.sub_sub]

/-- What an encoder wrote last is known from what it has written. -/
theorem Encoder.put_inj {encoder : Encoder} {b b' : Bytes} (h : encoder.put b = encoder.put b') :
  b = b'
  := List.append_cancel_left (congrArg Encoder.written h)

/-- The binary values of dpack: `DPACK_BIN_SIZE`, the form of a value in a message,
`dpack_encode_bin`, and `dpack_decode_bincpy_equ`, which returns the size of what it copies or
a negative code. -/
structure Dpack where
  binSize : ℕ → ℕ
  bin : Bytes → Bytes
  encodeBin : Encoder → Bytes → ℤ × Encoder
  decodeBincpyEqu : Decoder → ℕ → (ℤ × Bytes) × Decoder

/-- What dpack promises for binary values of a fixed size: encoding writes one if there is
room for it, and decoding reads back the one that is written. -/
structure Dpack.Inverts (dpack : Dpack) (size : ℕ) : Prop where
  encode : ∀ (encoder : Encoder) (b : Bytes), b.length = size →
    dpack.binSize size ≤ encoder.room → dpack.encodeBin encoder b = (0, encoder.put (dpack.bin b))
  decode : ∀ b rest : Bytes, b.length = size →
    dpack.decodeBincpyEqu ⟨dpack.bin b ++ rest⟩ size = (((size : ℤ), b), ⟨rest⟩)

/-- Two values of the size that have one form are the same. -/
theorem Dpack.Inverts.bin_inj {dpack : Dpack} {size : ℕ} (h : dpack.Inverts size) {b b' : Bytes}
    (hb : b.length = size) (hb' : b'.length = size) (heq : dpack.bin b = dpack.bin b') :
  b = b'
  := by
  have hread := h.decode b [] hb
  rw [heq, h.decode b' [] hb'] at hread
  exact (congrArg (fun r => r.1.2) hread).symm

/-- The binary values of MessagePack that have less than 256 bytes. -/
def messagePack : Dpack where
  binSize size := size + 2
  bin b := 0xc4 :: ⟨b.length % 256, Nat.mod_lt _ (by decide)⟩ :: b
  encodeBin encoder b :=
    if encoder.room < b.length + 2 then (-EMSGSIZE.code, encoder)
    else (0, encoder.put (0xc4 :: ⟨b.length % 256, Nat.mod_lt _ (by decide)⟩ :: b))
  decodeBincpyEqu decoder size :=
    match decoder.input with
    | tag :: n :: rest =>
        if tag ≠ 0xc4 ∨ n.val ≠ size then ((-ENOMSG.code, []), decoder)
        else if rest.length < size then ((-EPROTO.code, []), decoder)
        else (((size : ℤ), rest.take size), ⟨rest.drop size⟩)
    | _ => ((-EPROTO.code, []), decoder)

theorem messagePack_inverts {size : ℕ} (h : size < 256) :
  messagePack.Inverts size
  := by
  constructor
  · rintro encoder b rfl hroom
    exact if_neg (not_lt.mpr hroom)
  · rintro b rest rfl
    have hmod : b.length % 256 = b.length := Nat.mod_eq_of_lt h
    have htag : ¬((0xc4 : Byte) ≠ 0xc4 ∨ b.length % 256 ≠ b.length) := by simp [hmod]
    have hleft : ¬(b ++ rest).length < b.length := by simp
    simp only [messagePack, List.cons_append]
    rw [if_neg htag, if_neg hleft, List.take_left, List.drop_left]

/-! ### Json -/

/-- The characters of a string. -/
abbrev Text := List Char

/-- An object of json-c, with the values that are read here. -/
inductive JsonObject where
  | null
  | boolean
  | double
  | int (n : ℤ)
  | object (fields : List (Text × JsonObject))
  | array
  | string (s : Text)

/-- What the code of C sees of a string: the characters before the first that is zero. -/
def cString (s : Text) : Text := s.takeWhile (fun c => c ≠ '\x00')

end Hed
