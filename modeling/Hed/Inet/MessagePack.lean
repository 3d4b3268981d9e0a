import Hed.Inet.Codec
import Hed.Prelude.MsgPack

/-!
# dpack and MessagePack

The messages of dpack are those of MessagePack, and the macros for the sizes of its scalars are
the sizes of the least and of the greatest value.  Here also are functions that do what those
of dpack do, which read and write MessagePack.
-/

namespace Hed

/-- dpack follows MessagePack. -/
structure DpackLib.FollowsMessagePack (dpack : DpackLib) : Prop extends dpack.Inverts where
  arrayForm : dpack.array 2 = MsgPack.array 2
  uintForm : ∀ v, dpack.uint v = MsgPack.uint v.toNat
  uint8Form : ∀ v, dpack.uint8 v = MsgPack.uint v.val
  uint16Form : ∀ v, dpack.uint16 v = MsgPack.uint v.toNat
  binForm : ∀ b : Bytes, b.length = 16 → (dpack.bin b).length = 18
  binSize : dpack.binSize 16 = 18
  uintSizeMin : dpack.uintSizeMin = (MsgPack.uint 0).length
  uintSizeMax : dpack.uintSizeMax = (MsgPack.uint (2 ^ 32 - 1)).length
  uint8SizeMin : dpack.uint8SizeMin = (MsgPack.uint 0).length
  uint8SizeMax : dpack.uint8SizeMax = (MsgPack.uint (2 ^ 8 - 1)).length
  uint16SizeMin : dpack.uint16SizeMin = (MsgPack.uint 0).length
  uint16SizeMax : dpack.uint16SizeMax = (MsgPack.uint (2 ^ 16 - 1)).length

/-! ### Reading and writing MessagePack -/

/-- Write some bytes if there is room for them. -/
def putForm (encoder : Encoder) (b : Bytes) : ℤ × Encoder :=
  if encoder.room < b.length then (-EMSGSIZE.code, encoder) else (0, encoder.put b)

theorem puts_putForm (b : Bytes) :
  Puts (fun encoder => some (putForm encoder b)) b
  := by
  intro encoder
  simp only [putForm]
  split_ifs with hroom
  · use -EMSGSIZE.code, encoder, rfl
    constructor
    · constructor
      · intro hcode
        exact absurd hcode (by decide)
      · omega
    · intro hcode
      exact absurd hcode (by decide)
  · use 0, encoder.put b, rfl
    constructor
    · constructor
      · omega
      · intro _
        rfl
    · intro _
      rfl

/-- Read an unsigned integer up to a maximum. -/
def decodeUpTo (max : ℕ) (decoder : Decoder) : (ℤ × ℕ) × Decoder :=
  match MsgPack.readUint decoder.input with
  | none => ((-EPROTO.code, 0), decoder)
  | some (n, rest) =>
      if max < n then ((-ENOMSG.code, 0), decoder) else ((0, n), ⟨rest⟩)

theorem decodeUpTo_uint {max n : ℕ} (hn : n ≤ max) (hmax : max < 256 ^ 8) (rest : Bytes) :
  decodeUpTo max ⟨MsgPack.uint n ++ rest⟩ = ((0, n), ⟨rest⟩)
  := by
  have hread : MsgPack.readUint (MsgPack.uint n ++ rest) = some (n, rest) :=
    MsgPack.readUint_uint (by omega) rest
  rw [decodeUpTo]
  simp only [hread, not_lt.mpr hn, if_false]

/-- Read the header of an array of a given size. -/
def decodeCount (decoder : Decoder) (n : ℕ) : ℤ × Decoder :=
  match MsgPack.readArray decoder.input with
  | none => (-EPROTO.code, decoder)
  | some (m, rest) => if m = n then (0, ⟨rest⟩) else (-ENOMSG.code, decoder)

/-- The value that a function decodes, as another type. -/
def decodeAs {α β : Type} (f : α → β) (decode : Decoding α) : Decoding β := fun decoder =>
  ((((decode decoder).1).1, f ((decode decoder).1).2), (decode decoder).2)

/-- The functions of dpack for MessagePack. -/
def messagePackLib : DpackLib where
  toDpack := messagePack
  uintSizeMin := 1
  uintSizeMax := 5
  uint8SizeMin := 1
  uint8SizeMax := 2
  uint16SizeMin := 1
  uint16SizeMax := 3
  array := MsgPack.array
  uint v := MsgPack.uint v.toNat
  uint8 v := MsgPack.uint v.val
  uint16 v := MsgPack.uint v.toNat
  arrayBeginEncode encoder n := putForm encoder (MsgPack.array n)
  encodeUint encoder v := putForm encoder (MsgPack.uint v.toNat)
  encodeUint8 encoder v := putForm encoder (MsgPack.uint v.val)
  encodeUint16 encoder v := putForm encoder (MsgPack.uint v.toNat)
  arrayDecodeCountEqu := decodeCount
  decodeUint := decodeAs UInt32.ofNat (decodeUpTo (2 ^ 32 - 1))
  decodeUint8 := decodeAs (Fin.ofNat 256) (decodeUpTo (2 ^ 8 - 1))
  decodeUint16 := decodeAs UInt16.ofNat (decodeUpTo (2 ^ 16 - 1))

/-- Unsigned integers of a type that has some maximum are written and read back. -/
theorem lawful_uint {α : Type} {max : ℕ} (hmax : max < 256 ^ 8) {toNat : α → ℕ} {ofNat : ℕ → α}
    (hle : ∀ v, toNat v ≤ max) (hinv : ∀ v, ofNat (toNat v) = v) :
  Codec.Lawful ⟨fun v => MsgPack.uint (toNat v),
    fun v encoder => some (putForm encoder (MsgPack.uint (toNat v))),
    decodeAs ofNat (decodeUpTo max)⟩
  := by
  constructor
  · intro v
    apply puts_putForm
  · intro v rest
    have hread := decodeUpTo_uint (hle v) hmax rest
    simp only [decodeAs, hread, hinv]

theorem messagePackLib_inverts :
  messagePackLib.Inverts
  := by
  constructor
  · apply puts_putForm
  · intro rest
    have hread : MsgPack.readArray (MsgPack.array 2 ++ rest) = some (2, rest) :=
      MsgPack.readArray_array (by decide) rest
    simp only [messagePackLib, decodeCount, hread, if_true]
  · apply lawful_uint
    · decide
    · intro v
      have hlt := v.toNat_lt
      omega
    · intro v
      apply UInt32.ofNat_toNat
  · apply lawful_uint
    · decide
    · intro v
      have hlt := v.isLt
      omega
    · intro v
      apply Fin.ofNat_val_eq_self
  · apply lawful_uint
    · decide
    · intro v
      have hlt := v.toNat_lt
      omega
    · intro v
      apply UInt16.ofNat_toNat
  · intro b _
    apply puts_putForm (messagePack.bin b)
  · intro b rest hb
    apply (messagePack_inverts (by decide)).decode b rest hb

/-- These functions follow MessagePack. -/
theorem messagePackLib_followsMessagePack :
  messagePackLib.FollowsMessagePack
  := by
  constructor
  · apply messagePackLib_inverts
  · rfl
  · intro v
    rfl
  · intro v
    rfl
  · intro v
    rfl
  · intro b hb
    have hlength : (messagePack.bin b).length = b.length + 2 := rfl
    apply hlength.trans
    omega
  · rfl
  · rfl
  · rfl
  · rfl
  · rfl
  · rfl
  · rfl

end Hed
