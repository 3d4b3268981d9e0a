import Hed.Prelude.OrderedMap
import Mathlib.Algebra.Ring.Nat
import Mathlib.Data.List.Lex
import Mathlib.Order.Fin.Basic

/-!
# The world of the repository

What the repository code works on: the content of LMDB tables, the data file and its
backup, the handles of LMDB, and the resources a process holds.

Of LMDB this takes what it is documented to do.  A table has one record for each key, and no
key is empty; a transaction works on a content of its own; only what can write creates tables
and changes records; an environment that can write creates the data file when that is missing
or empty.  It simplifies the rest.  Of a complete file it keeps what is read from it and not
the pages, and a file that is not complete is always refused, where LMDB may read one that
lacks pages it does not need.  Keys, values and data files have no greatest size, and tables
are not counted against the limit of the environment: `MDB_BAD_VALSIZE` for a long key,
`MDB_MAP_FULL` and `MDB_DBS_FULL` are failures that a call can be made to have, no more.
-/

namespace Hed

/-- A `uint8_t`. -/
abbrev Byte := Fin 256

/-- There are bytes, which makes numbers name them. -/
instance Byte.neZero : NeZero 256 := ⟨by decide⟩

/-- A key, a value, or the name of a table. -/
abbrev Bytes := List Byte

/-- The bits of the flags of `open()` and of LMDB. -/
abbrev Flags := BitVec 32

def O_RDONLY : Flags := 0x0
def O_RDWR : Flags := 0x2
def O_ACCMODE : Flags := 0x3
def O_CREAT : Flags := 0x40
def O_TRUNC : Flags := 0x200
def O_CLOEXEC : Flags := 0x80000

def MDB_NOSUBDIR : Flags := 0x4000
def MDB_RDONLY : Flags := 0x20000
def MDB_CREATE : Flags := 0x40000

/-- An error code: a positive `errno`, a negative one, or a negative LMDB code. -/
structure Errno where
  code : ℤ
  ne_zero : code ≠ 0
  deriving DecidableEq

def ENOENT : Errno := ⟨2, by decide⟩
def ENOMEM : Errno := ⟨12, by decide⟩
def EACCES : Errno := ⟨13, by decide⟩
def EIO : Errno := ⟨5, by decide⟩
def EAGAIN : Errno := ⟨11, by decide⟩
def EINVAL : Errno := ⟨22, by decide⟩

def MDB_NOTFOUND : Errno := ⟨-30798, by decide⟩
def MDB_CORRUPTED : Errno := ⟨-30796, by decide⟩
def MDB_INVALID : Errno := ⟨-30793, by decide⟩
def MDB_BAD_VALSIZE : Errno := ⟨-30781, by decide⟩

/-- The return code of a call: zero, or the code of its error. -/
def rc {α : Type} : Except Errno α → ℤ
  | .ok _ => 0
  | .error e => e.code

/-! ### Content -/

/-- The records of a table, in the order of their keys. -/
abbrev Table := OrderedMap Bytes Bytes

/-- The named tables of a data file. -/
abbrev Content := OrderedMap Bytes Table

namespace Content

/-- The record of a table under a key. -/
def record (c : Content) (table key : Bytes) : Option Bytes :=
  (c.get table).bind (fun t => t.get key)

/-- Change a table, taken as empty when it does not exist. -/
def modify (c : Content) (table : Bytes) (f : Table → Table) : Content :=
  c.put table (f ((c.get table).getD ∅))

theorem record_eq (c : Content) (table key : Bytes) :
  c.record table key = ((c.get table).getD ∅).get key
  := by
  rw [record]
  cases c.get table with
  | none => rfl
  | some t => rfl

theorem record_put (c : Content) (table table' key : Bytes) (t : Table) :
  record (c.put table t) table' key
    = if table' = table then t.get key else c.record table' key
  := by
  rw [record, OrderedMap.get_put]
  split_ifs with h
  · rfl
  · rfl

theorem record_modify (c : Content) (table table' key : Bytes) (f : Table → Table) :
  record (c.modify table f) table' key
    = if table' = table then (f ((c.get table).getD ∅)).get key else c.record table' key
  := record_put c table table' key _

end Content

/-! ### Files, handles and resources -/

/-- A file LMDB is asked to read: empty, a complete data file, or bytes that it cannot read,
such as those a copy has written before it failed. -/
inductive DataFile where
  | blank
  | full (content : Content)
  | torn (part : Bytes) (ne_nil : part ≠ [])
  deriving DecidableEq

/-- The content LMDB reads from a file: a missing or empty file counts as no tables, and a
torn one cannot be read. -/
def DataFile.content : Option DataFile → Option Content
  | none => some ∅
  | some .blank => some ∅
  | some (.full c) => some c
  | some (.torn _ _) => none

/-- An `MDB_env`: its identity, and the flags it was opened with. -/
structure Env where
  id : ℕ
  flags : Flags
  deriving DecidableEq

/-- An `MDB_txn`: its identity, whether it is read-only, and the content it works on. -/
structure Txn where
  id : ℕ
  readonly : Bool
  content : Content
  deriving DecidableEq

/-- An `MDB_dbi`, which stands for the table it was opened for. -/
abbrev Dbi := Bytes

namespace Txn

/-- The transaction `txn` with the content `c`. -/
def withContent (txn : Txn) (c : Content) : Txn := { txn with content := c }

/-- Open the table `name`, creating it when `flags` say so. -/
def dbiOpen (txn : Txn) (name : Bytes) (flags : Flags) : Except Errno (Dbi × Txn) :=
  if name = [] then .error MDB_BAD_VALSIZE
  else if (txn.content.get name).isSome then .ok (name, txn)
  else if flags &&& MDB_CREATE = 0 then .error MDB_NOTFOUND
  else if txn.readonly then .error EACCES
  else .ok (name, txn.withContent (txn.content.put name ∅))

/-- Empty a table. -/
def drop (txn : Txn) (dbi : Dbi) : Except Errno Txn :=
  if txn.readonly then .error EACCES
  else .ok (txn.withContent (txn.content.put dbi ∅))

/-- Read a record. -/
def get (txn : Txn) (dbi : Dbi) (key : Bytes) : Except Errno Bytes :=
  if key = [] then .error MDB_BAD_VALSIZE
  else
    match txn.content.record dbi key with
    | none => .error MDB_NOTFOUND
    | some value => .ok value

/-- Write a record. -/
def put (txn : Txn) (dbi : Dbi) (key value : Bytes) : Except Errno Txn :=
  if key = [] then .error MDB_BAD_VALSIZE
  else if txn.readonly then .error EACCES
  else .ok (txn.withContent (txn.content.modify dbi (fun t => t.put key value)))

/-- Delete a record. -/
def del (txn : Txn) (dbi : Dbi) (key : Bytes) : Except Errno Txn :=
  if key = [] then .error MDB_BAD_VALSIZE
  else if txn.readonly then .error EACCES
  else if txn.content.record dbi key = none then .error MDB_NOTFOUND
  else .ok (txn.withContent (txn.content.modify dbi (fun t => t.erase key)))

/-- The number of records of a table. -/
def entries (txn : Txn) (dbi : Dbi) : ℕ := ((txn.content.get dbi).getD ∅).size

end Txn

/-- The strings `struct hed_repo` owns. -/
inductive Lvstr where
  | path
  | backup
  deriving DecidableEq

/-- What a process acquires and has to release. -/
inductive Resource where
  | env (id : ℕ)
  | txn (id : ℕ)
  | lvstr (s : Lvstr)
  | block
  deriving DecidableEq

/-- The files of a repository and what a process holds.  `data` is the file at the path of
the repository and `backup` the one at the path with the suffix `-backup`; `live` lists
what has been acquired and not been released, the latest first; `misuse` is set once
something is released that is not live; `next` is the identity of the next handle. -/
structure World where
  data : Option DataFile
  backup : Option DataFile
  live : List Resource
  misuse : Bool
  next : ℕ
  deriving DecidableEq

namespace World

/-- The committed content, if the data file can be read. -/
def content (w : World) : Option Content := DataFile.content w.data

/-- Acquire the resource `r`. -/
def acquire (w : World) (r : Resource) : World := { w with live := r :: w.live }

/-- Release the resource `r`. -/
def release (w : World) (r : Resource) : World :=
  if r ∈ w.live then { w with live := w.live.erase r } else { w with misuse := true }

@[simp]
theorem release_data (w : World) (r : Resource) :
  (w.release r).data = w.data
  := by
  rw [release]
  split_ifs with h
  · rfl
  · rfl

@[simp]
theorem release_backup (w : World) (r : Resource) :
  (w.release r).backup = w.backup
  := by
  rw [release]
  split_ifs with h
  · rfl
  · rfl

@[simp]
theorem release_content (w : World) (r : Resource) :
  (w.release r).content = w.content
  := by
  rw [content, release_data, content]

@[simp]
theorem release_acquire (w : World) (r : Resource) :
  (w.acquire r).release r = w
  := by
  have hmem : r ∈ (w.acquire r).live := List.mem_cons_self
  rw [release, if_pos hmem, acquire, List.erase_cons_head]

/-- Create or truncate the backup file. -/
def create (w : World) (flags : Flags) : World :=
  { w with backup := if flags &&& O_TRUNC ≠ 0 then some .blank else w.backup <|> some .blank }

/-- Write `file` to the backup file, if there still is one. -/
def writeBackup (w : World) (file : DataFile) : World :=
  { w with backup := w.backup.map (fun _ => file) }

/-- Copy the committed content to the backup file. -/
def copy (w : World) : Except Errno Unit × World :=
  match w.content with
  | none => (.error MDB_CORRUPTED, w)
  | some c => (.ok (), w.writeBackup (.full c))

/-- Move the backup file over the data file. -/
def rename (w : World) : Except Errno Unit × World :=
  match w.backup with
  | none => (.error ENOENT, w)
  | some file => (.ok (), { w with data := some file, backup := none })

/-- Remove the backup file. -/
def remove (w : World) : Except Errno Unit × World :=
  match w.backup with
  | none => (.error ENOENT, w)
  | some _ => (.ok (), { w with backup := none })

theorem remove_eq (w : World) :
  w.remove.2 = { w with backup := none }
  := by
  obtain ⟨data, backup, live, misuse, next⟩ := w
  cases backup with
  | none => rfl
  | some file => rfl

/-- Create an environment. -/
def envCreate (w : World) : Env × World :=
  (⟨w.next, 0⟩, { w.acquire (.env w.next) with next := w.next + 1 })

/-- Open an environment on the data file, which is created when it is missing or empty,
unless the environment is to be read-only. -/
def envOpen (w : World) (env : Env) (flags : Flags) : Except Errno Env × World :=
  match w.data with
  | some (.torn _ _) => (.error MDB_INVALID, w)
  | some (.full _) => (.ok { env with flags := flags }, w)
  | _ =>
      if flags &&& MDB_RDONLY ≠ 0 then (.error ENOENT, w)
      else (.ok { env with flags := flags }, { w with data := some (.full ∅) })

/-- The world after a transaction has begun. -/
def began (w : World) : World := { w.acquire (.txn w.next) with next := w.next + 1 }

@[simp]
theorem began_content (w : World) :
  w.began.content = w.content
  := rfl

@[simp]
theorem began_backup (w : World) :
  w.began.backup = w.backup
  := rfl

@[simp]
theorem began_live (w : World) :
  w.began.live = .txn w.next :: w.live
  := rfl

@[simp]
theorem began_misuse (w : World) :
  w.began.misuse = w.misuse
  := rfl

/-- Begin a transaction.  A read-only environment has read-only transactions only. -/
def txnBegin (w : World) (env : Env) (flags : Flags) : Except Errno Txn × World :=
  match w.content with
  | none => (.error MDB_CORRUPTED, w)
  | some c =>
      if env.flags &&& MDB_RDONLY ≠ 0 ∧ flags &&& MDB_RDONLY = 0 then (.error EACCES, w)
      else (.ok ⟨w.next, flags &&& MDB_RDONLY ≠ 0, c⟩, w.began)

/-- Publish the content of a transaction, unless it is read-only. -/
def publish (w : World) (txn : Txn) : World :=
  if txn.readonly then w else { w with data := some (.full txn.content) }

/-- An environment is opened for writing whenever the data file can be read, and then the
file holds its content. -/
theorem envOpen_writable (w : World) (env : Env) {flags : Flags}
    (hflags : flags &&& MDB_RDONLY = 0) :
  (∃ c, w.content = some c
    ∧ w.envOpen env flags = (.ok { env with flags := flags }, { w with data := some (.full c) }))
  ∨ (w.content = none ∧ w.envOpen env flags = (.error MDB_INVALID, w))
  := by
  obtain ⟨data, backup, live, misuse, next⟩ := w
  rcases data with _ | _ | c | ⟨part, hne⟩
  · left
    use ∅, rfl
    simp only [envOpen, hflags, ne_eq, not_true_eq_false, if_false]
  · left
    use ∅, rfl
    simp only [envOpen, hflags, ne_eq, not_true_eq_false, if_false]
  · left
    use c, rfl
    rfl
  · right
    use rfl
    rfl

/-- A writable environment begins a transaction on the committed content. -/
theorem txnBegin_writable {w : World} {env : Env} {c : Content} (hc : w.content = some c)
    (henv : env.flags &&& MDB_RDONLY = 0) :
  w.txnBegin env 0 = (.ok ⟨w.next, false, c⟩, w.began)
  := by
  simp [txnBegin, hc, henv]

theorem copy_of_content {w : World} {c : Content} (hc : w.content = some c) :
  w.copy = (.ok (), w.writeBackup (.full c))
  := by
  simp only [copy, hc]

/-- Releasing what was acquired last leaves nothing of it. -/
theorem release_live_cons {w : World} {r : Resource} {rest : List Resource}
    (h : w.live = r :: rest) :
  (w.release r).live = rest
  := by
  rw [release, h, if_pos List.mem_cons_self]
  exact List.erase_cons_head r rest

theorem release_misuse_cons {w : World} {r : Resource} {rest : List Resource}
    (h : w.live = r :: rest) :
  (w.release r).misuse = w.misuse
  := by
  rw [release, h, if_pos List.mem_cons_self]

end World

end Hed
