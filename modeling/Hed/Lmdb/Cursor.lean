import Hed.Lmdb.Calls
import Hed.Prelude.Sum

/-!
# Cursors

The calls for walking through a table, beside the other calls.  A cursor is on an entry of its
table, which it knows by the key: it stays on the entry when another one is deleted.  It reads
the transaction that it was opened in, as that is when it reads.
-/

namespace Hed

/-- An `MDB_cursor`: its identity, its table, and the key of the entry it is on, once it is on
one. -/
structure Cursor where
  id : ℕ
  dbi : Dbi
  key : Option Bytes
  deriving DecidableEq

/-- The operations of `mdb_cursor_get` that are used. -/
inductive CursorOp where
  | first
  | getCurrent
  | next
  deriving DecidableEq

/-- The cursor, on an entry. -/
def Cursor.on (cursor : Cursor) (entry : Bytes × Bytes) : Cursor :=
  { cursor with key := some entry.1 }

/-- Put a cursor on an entry and read it, if there is one. -/
def Cursor.move (cursor : Cursor) (entry : Option (Bytes × Bytes)) :
    Except Errno ((Bytes × Bytes) × Cursor) :=
  match entry with
  | none => .error MDB_NOTFOUND
  | some entry => .ok (entry, cursor.on entry)

/-- Move a cursor in the table of a transaction, and read the entry it is then on.  What a cursor
reads where its own entry has been deleted is not relied on. -/
def Txn.cursorGet (txn : Txn) (cursor : Cursor) (op : CursorOp) :
    Except Errno ((Bytes × Bytes) × Cursor) :=
  let t := (txn.content.get cursor.dbi).getD ∅
  match op, cursor.key with
  | .first, _ => cursor.move t.first
  | .next, none => cursor.move t.first
  | .next, some key => cursor.move (t.next key)
  | .getCurrent, none => .error EINVAL
  | .getCurrent, some key => cursor.move ((t.get key).map (fun value => (key, value)))

/-- The further calls. -/
inductive CursorCall where
  | free
  | mdbCursorOpen (txn : Txn) (dbi : Dbi)
  | mdbCursorGet (txn : Txn) (cursor : Cursor) (op : CursorOp)
  | mdbCursorClose (cursor : Cursor)
  deriving DecidableEq

/-- What each of them replies.  As the other calls do, `mdb_cursor_get` replies with the object
that it changes. -/
def CursorCall.Reply : CursorCall → Type
  | .free => Unit
  | .mdbCursorOpen _ _ => Except Errno Cursor
  | .mdbCursorGet _ _ _ => Except Errno ((Bytes × Bytes) × Cursor)
  | .mdbCursorClose _ => Unit

/-- All the calls. -/
abbrev cursorCalls : Signature := calls.sum ⟨CursorCall, CursorCall.Reply⟩

/-- The cursors that are open, and the identity of the next one. -/
structure Cursors where
  live : List ℕ
  next : ℕ
  deriving DecidableEq

/-- What a further call does, and its reply. -/
def handleCursor : Program.Handler ⟨CursorCall, CursorCall.Reply⟩ Fate (World × Cursors) :=
  fun f c s =>
    match c with
    | .free => ((), s.1.release .block, s.2)
    | .mdbCursorOpen _ dbi =>
        attempt f s (.ok ⟨s.2.next, dbi, none⟩, s.1, ⟨s.2.next :: s.2.live, s.2.next + 1⟩)
    | .mdbCursorGet txn cursor op => attempt f s (txn.cursorGet cursor op, s)
    | .mdbCursorClose cursor => ((), s.1, { s.2 with live := s.2.live.erase cursor.id })

/-- What a call does, and its reply. -/
abbrev handleAll : Program.Handler cursorCalls Fate (World × Cursors) :=
  Program.sumHandler handle handleCursor

/-- The further calls that report whether they succeeded. -/
def CursorCall.fallible : CursorCall → Bool
  | .mdbCursorOpen _ _ => true
  | .mdbCursorGet _ _ _ => true
  | _ => false

/-- The environment made a call of LMDB fail. -/
def lmdbFailed (e : Program.Event cursorCalls Fate) : Bool :=
  match e.call with
  | .inl .malloc => false
  | .inl c => c.fallible && e.fate != .ok
  | .inr c => c.fallible && e.fate != .ok

/-- No call of LMDB in the trace was made to fail. -/
def LmdbSucceeds (t : List (Program.Event cursorCalls Fate)) : Prop :=
  ∀ e ∈ t, lmdbFailed e = false

theorem lmdbSucceeds_of_ok {t : List (Program.Event cursorCalls Fate)}
    (h : ∀ e ∈ t, e.fate = .ok) :
  LmdbSucceeds t
  := by
  rintro ⟨c, fate⟩ he
  obtain rfl : fate = .ok := h _ he
  rcases c with c | c
  · cases c
    all_goals rfl
  · cases c
    all_goals rfl

/-- What holds after a program if LMDB does not fail. -/
abbrev wpLmdb {α : Type} (p : Program cursorCalls α)
    (Q : List (Program.Event cursorCalls Fate) → α → World × Cursors → Prop)
    (s : World × Cursors) : Prop :=
  Program.wpOn handleAll (fun e => lmdbFailed e = false) p Q s

/-! ### The calls as programs -/

section Rules

open Program

variable {s : World × Cursors}

def free : Program cursorCalls Unit := ask (S := cursorCalls) (.inr .free)

def mdbCursorOpen (txn : Txn) (dbi : Dbi) : Program cursorCalls (Except Errno Cursor) :=
  ask (S := cursorCalls) (.inr (.mdbCursorOpen txn dbi))

theorem wpLmdb_mdbCursorOpen (txn : Txn) (dbi : Dbi) :
  wpLmdb (mdbCursorOpen txn dbi) (fun _ ret _ => ret = .ok ⟨s.2.next, dbi, none⟩) s
  := by
  apply wpOn_ask
  rintro (_ | ⟨e, left⟩) hok
  · rfl
  · contradiction

def mdbCursorGet (txn : Txn) (cursor : Cursor) (op : CursorOp) :
    Program cursorCalls (Except Errno ((Bytes × Bytes) × Cursor)) :=
  ask (S := cursorCalls) (.inr (.mdbCursorGet txn cursor op))

theorem wpLmdb_mdbCursorGet (txn : Txn) (cursor : Cursor) (op : CursorOp) :
  wpLmdb (mdbCursorGet txn cursor op) (fun _ ret _ => ret = txn.cursorGet cursor op) s
  := by
  apply wpOn_ask
  rintro (_ | ⟨e, left⟩) hok
  · rfl
  · contradiction

def mdbCursorClose (cursor : Cursor) : Program cursorCalls Unit :=
  ask (S := cursorCalls) (.inr (.mdbCursorClose cursor))

end Rules

end Hed
