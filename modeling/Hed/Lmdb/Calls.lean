import Hed.Lmdb.World
import Hed.Prelude.Program

/-!
# External calls

The calls `repo.c` makes to LMDB, to the system and to the string library, with what each
does to the world when it succeeds and when it fails.  Of LMDB this takes only its
documented behaviour: a transaction works on a private copy of the committed content, a
commit replaces the committed content by that copy or fails and leaves it, a copy of an
environment is one of its committed content, and read-only environments and transactions
refuse writes.  Of `ufile` it takes that `ufile_new` opens the file as `open()` does with the
same flags, or fails and leaves it, and that `ufile_close` leaves it.  `handle` is the one
definition of it; after it come the calls as programs, each with the rule that says what can
follow it.

Any call can fail, with any code.  Two things are simplified.  `mdb_env_set_maxdbs` has no
effect, as tables are not counted: `mdb_dbi_open` fails with `MDB_DBS_FULL` only when it is
made to.  And `mdb_env_copyfd` never waits, where LMDB holds up writers, and waits for the one
there is, while it takes its snapshot.
-/

namespace Hed

/-- The calls `repo.c` makes to LMDB, to the system and to the string library. -/
inductive Call where
  | malloc
  | strollLvstrInitCede (s : Lvstr)
  | strollLvstrInitDup (s : Lvstr)
  | strollLvstrFini (s : Lvstr)
  | ufileNew (flags : Flags) (mode : ℕ)
  | ufileClose
  | rename
  | remove
  | mdbEnvCreate
  | mdbEnvSetMaxdbs (env : Env) (dbs : ℕ)
  | mdbEnvOpen (env : Env) (flags : Flags) (mode : ℕ)
  | mdbEnvClose (env : Env)
  | mdbEnvCopyfd (env : Env)
  | mdbTxnBegin (env : Env) (flags : Flags)
  | mdbTxnCommit (txn : Txn)
  | mdbTxnAbort (txn : Txn)
  | mdbDbiOpen (txn : Txn) (name : Bytes) (flags : Flags)
  | mdbDrop (txn : Txn) (dbi : Dbi)
  | mdbGet (txn : Txn) (dbi : Dbi) (key : Bytes)
  | mdbPut (txn : Txn) (dbi : Dbi) (key value : Bytes)
  | mdbDel (txn : Txn) (dbi : Dbi) (key : Bytes)
  | mdbStat (txn : Txn) (dbi : Dbi)
  deriving DecidableEq

/-- What each call replies.  A call that changes an object through a pointer replies with
the object as it is afterwards. -/
def Call.Reply : Call → Type
  | .malloc => Bool
  | .strollLvstrInitCede _ => Except Errno Unit
  | .strollLvstrInitDup _ => Except Errno Unit
  | .strollLvstrFini _ => Unit
  | .ufileNew _ _ => Except Errno Unit
  | .ufileClose => Unit
  | .rename => Except Errno Unit
  | .remove => Except Errno Unit
  | .mdbEnvCreate => Except Errno Env
  | .mdbEnvSetMaxdbs _ _ => Except Errno Unit
  | .mdbEnvOpen _ _ _ => Except Errno Env
  | .mdbEnvClose _ => Unit
  | .mdbEnvCopyfd _ => Except Errno Unit
  | .mdbTxnBegin _ _ => Except Errno Txn
  | .mdbTxnCommit _ => Except Errno Unit
  | .mdbTxnAbort _ => Unit
  | .mdbDbiOpen _ _ _ => Except Errno (Dbi × Txn)
  | .mdbDrop _ _ => Except Errno Txn
  | .mdbGet _ _ _ => Except Errno Bytes
  | .mdbPut _ _ _ _ => Except Errno Txn
  | .mdbDel _ _ _ => Except Errno Txn
  | .mdbStat _ _ => Except Errno ℕ

/-- The calls that report whether they succeeded. -/
def Call.fallible : Call → Bool
  | .strollLvstrFini _ => false
  | .ufileClose => false
  | .mdbEnvClose _ => false
  | .mdbTxnAbort _ => false
  | _ => true

/-- The signature of the external calls. -/
abbrev calls : Signature where
  Call := Call
  Reply := Call.Reply

/-- What the environment does to a call: let it do its work, or make it fail with an error
code.  A failing copy leaves `left` in the file it writes, which is what it has written until
then; no other call takes notice of it. -/
inductive Fate where
  | ok
  | fail (e : Errno) (left : DataFile)
  deriving DecidableEq

instance : Inhabited Fate := ⟨.ok⟩

/-- The environment made the call fail. -/
def failed (e : Program.Event calls Fate) : Bool :=
  e.call.fallible && e.fate != .ok

/-- No call of the trace was made to fail. -/
def Clean (t : List (Program.Event calls Fate)) : Prop := ∀ e ∈ t, failed e = false

/-- Let a call do its work, or fail without effect. -/
def attempt {α σ : Type} (f : Fate) (w : σ) (work : Except Errno α × σ) :
    Except Errno α × σ :=
  match f with
  | .ok => work
  | .fail e _ => (.error e, w)

/-- What a call does to the world, and its reply. -/
def handle : Program.Handler calls Fate World := fun f c w =>
  match c with
  | .malloc =>
      match f with
      | .ok => (true, w.acquire .block)
      | .fail _ _ => (false, w)
  | .strollLvstrInitCede s => attempt f w (.ok (), (w.release .block).acquire (.lvstr s))
  | .strollLvstrInitDup s => attempt f w (.ok (), w.acquire (.lvstr s))
  | .strollLvstrFini s => ((), w.release (.lvstr s))
  | .ufileNew flags _ => attempt f w (.ok (), w.create flags)
  | .ufileClose => ((), w)
  | .rename => attempt f w w.rename
  | .remove => attempt f w w.remove
  | .mdbEnvCreate => attempt f w (.ok w.envCreate.1, w.envCreate.2)
  | .mdbEnvSetMaxdbs _ _ => attempt f w (.ok (), w)
  | .mdbEnvOpen env flags _ => attempt f w (w.envOpen env flags)
  | .mdbEnvClose env => ((), w.release (.env env.id))
  | .mdbEnvCopyfd _ =>
      match f with
      | .ok => w.copy
      | .fail e left => (.error e, w.writeBackup left)
  | .mdbTxnBegin env flags => attempt f w (w.txnBegin env flags)
  | .mdbTxnCommit txn =>
      attempt f (w.release (.txn txn.id)) (.ok (), (w.release (.txn txn.id)).publish txn)
  | .mdbTxnAbort txn => ((), w.release (.txn txn.id))
  | .mdbDbiOpen txn name flags => attempt f w (txn.dbiOpen name flags, w)
  | .mdbDrop txn dbi => attempt f w (txn.drop dbi, w)
  | .mdbGet txn dbi key => attempt f w (txn.get dbi key, w)
  | .mdbPut txn dbi key value => attempt f w (txn.put dbi key value, w)
  | .mdbDel txn dbi key => attempt f w (txn.del dbi key, w)
  | .mdbStat txn dbi => attempt f w (.ok (txn.entries dbi), w)

/-- Fates are successes and failures. -/
theorem Fate.forall {P : Fate → Prop} :
  (∀ f, P f) ↔ P .ok ∧ ∀ e left, P (.fail e left)
  := by
  constructor
  · intro h
    use h .ok
    intro e left
    apply h
  · rintro ⟨hok, hfail⟩ f
    cases f with
    | ok => apply hok
    | fail e left => apply hfail

/-! ### The calls as programs -/

section Rules

open Program

variable {w : World}

def malloc : Program calls Bool := ask (S := calls) .malloc

theorem wp_malloc {Q : List (Event calls Fate) → Bool → World → Prop} :
  wp handle malloc Q w
    ↔ Q [⟨.malloc, .ok⟩] true (w.acquire .block)
      ∧ ∀ e left, Q [⟨.malloc, .fail e left⟩] false w
  := Fate.forall

def strollLvstrInitCede (s : Lvstr) : Program calls (Except Errno Unit) :=
  ask (S := calls) (.strollLvstrInitCede s)

theorem wp_strollLvstrInitCede (s : Lvstr)
    {Q : List (Event calls Fate) → Except Errno Unit → World → Prop} :
  wp handle (strollLvstrInitCede s) Q w
    ↔ Q [⟨.strollLvstrInitCede s, .ok⟩] (.ok ()) ((w.release .block).acquire (.lvstr s))
      ∧ ∀ e left, Q [⟨.strollLvstrInitCede s, .fail e left⟩] (.error e) w
  := Fate.forall

def strollLvstrInitDup (s : Lvstr) : Program calls (Except Errno Unit) :=
  ask (S := calls) (.strollLvstrInitDup s)

theorem wp_strollLvstrInitDup (s : Lvstr)
    {Q : List (Event calls Fate) → Except Errno Unit → World → Prop} :
  wp handle (strollLvstrInitDup s) Q w
    ↔ Q [⟨.strollLvstrInitDup s, .ok⟩] (.ok ()) (w.acquire (.lvstr s))
      ∧ ∀ e left, Q [⟨.strollLvstrInitDup s, .fail e left⟩] (.error e) w
  := Fate.forall

def strollLvstrFini (s : Lvstr) : Program calls Unit := ask (S := calls) (.strollLvstrFini s)

def ufileNew (flags : Flags) (mode : ℕ) : Program calls (Except Errno Unit) :=
  ask (S := calls) (.ufileNew flags mode)

theorem wp_ufileNew (flags : Flags) (mode : ℕ)
    {Q : List (Event calls Fate) → Except Errno Unit → World → Prop} :
  wp handle (ufileNew flags mode) Q w
    ↔ Q [⟨.ufileNew flags mode, .ok⟩] (.ok ()) (w.create flags)
      ∧ ∀ e left, Q [⟨.ufileNew flags mode, .fail e left⟩] (.error e) w
  := Fate.forall

def ufileClose : Program calls Unit := ask (S := calls) .ufileClose

theorem wp_ufileClose {Q : List (Event calls Fate) → Unit → World → Prop} :
  wp handle ufileClose Q w ↔ ∀ f, Q [⟨.ufileClose, f⟩] () w
  := Iff.rfl

def rename : Program calls (Except Errno Unit) :=
  ask (S := calls) .rename

def remove : Program calls (Except Errno Unit) :=
  ask (S := calls) .remove

theorem wp_remove
    {Q : List (Event calls Fate) → Except Errno Unit → World → Prop} :
  wp handle remove Q w
    ↔ Q [⟨.remove, .ok⟩] w.remove.1 w.remove.2
      ∧ ∀ e left, Q [⟨.remove, .fail e left⟩] (.error e) w
  := Fate.forall

def mdbEnvCreate : Program calls (Except Errno Env) :=
  ask (S := calls) .mdbEnvCreate

theorem wp_mdbEnvCreate
    {Q : List (Event calls Fate) → Except Errno Env → World → Prop} :
  wp handle mdbEnvCreate Q w
    ↔ Q [⟨.mdbEnvCreate, .ok⟩] (.ok w.envCreate.1) w.envCreate.2
      ∧ ∀ e left, Q [⟨.mdbEnvCreate, .fail e left⟩] (.error e) w
  := Fate.forall

/-- As tables are not counted, this limits nothing. -/
def mdbEnvSetMaxdbs (env : Env) (dbs : ℕ) : Program calls (Except Errno Unit) :=
  ask (S := calls) (.mdbEnvSetMaxdbs env dbs)

theorem wp_mdbEnvSetMaxdbs (env : Env) (dbs : ℕ)
    {Q : List (Event calls Fate) → Except Errno Unit → World → Prop} :
  wp handle (mdbEnvSetMaxdbs env dbs) Q w
    ↔ Q [⟨.mdbEnvSetMaxdbs env dbs, .ok⟩] (.ok ()) w
      ∧ ∀ e left, Q [⟨.mdbEnvSetMaxdbs env dbs, .fail e left⟩] (.error e) w
  := Fate.forall

def mdbEnvOpen (env : Env) (flags : Flags) (mode : ℕ) : Program calls (Except Errno Env) :=
  ask (S := calls) (.mdbEnvOpen env flags mode)

theorem wp_mdbEnvOpen (env : Env) (flags : Flags) (mode : ℕ)
    {Q : List (Event calls Fate) → Except Errno Env → World → Prop} :
  wp handle (mdbEnvOpen env flags mode) Q w
    ↔ Q [⟨.mdbEnvOpen env flags mode, .ok⟩] (w.envOpen env flags).1 (w.envOpen env flags).2
      ∧ ∀ e left, Q [⟨.mdbEnvOpen env flags mode, .fail e left⟩] (.error e) w
  := Fate.forall

def mdbEnvClose (env : Env) : Program calls Unit := ask (S := calls) (.mdbEnvClose env)

theorem wp_mdbEnvClose (env : Env) {Q : List (Event calls Fate) → Unit → World → Prop} :
  wp handle (mdbEnvClose env) Q w ↔ ∀ f, Q [⟨.mdbEnvClose env, f⟩] () (w.release (.env env.id))
  := Iff.rfl

def mdbEnvCopyfd (env : Env) : Program calls (Except Errno Unit) :=
  ask (S := calls) (.mdbEnvCopyfd env)

theorem wp_mdbEnvCopyfd (env : Env)
    {Q : List (Event calls Fate) → Except Errno Unit → World → Prop} :
  wp handle (mdbEnvCopyfd env) Q w
    ↔ Q [⟨.mdbEnvCopyfd env, .ok⟩] w.copy.1 w.copy.2
      ∧ ∀ e left, Q [⟨.mdbEnvCopyfd env, .fail e left⟩] (.error e) (w.writeBackup left)
  := Fate.forall

def mdbTxnBegin (env : Env) (flags : Flags) : Program calls (Except Errno Txn) :=
  ask (S := calls) (.mdbTxnBegin env flags)

theorem wp_mdbTxnBegin (env : Env) (flags : Flags)
    {Q : List (Event calls Fate) → Except Errno Txn → World → Prop} :
  wp handle (mdbTxnBegin env flags) Q w
    ↔ Q [⟨.mdbTxnBegin env flags, .ok⟩] (w.txnBegin env flags).1 (w.txnBegin env flags).2
      ∧ ∀ e left, Q [⟨.mdbTxnBegin env flags, .fail e left⟩] (.error e) w
  := Fate.forall

def mdbTxnCommit (txn : Txn) : Program calls (Except Errno Unit) :=
  ask (S := calls) (.mdbTxnCommit txn)

theorem wp_mdbTxnCommit (txn : Txn)
    {Q : List (Event calls Fate) → Except Errno Unit → World → Prop} :
  wp handle (mdbTxnCommit txn) Q w
    ↔ Q [⟨.mdbTxnCommit txn, .ok⟩] (.ok ()) ((w.release (.txn txn.id)).publish txn)
      ∧ ∀ e left, Q [⟨.mdbTxnCommit txn, .fail e left⟩] (.error e) (w.release (.txn txn.id))
  := Fate.forall

def mdbTxnAbort (txn : Txn) : Program calls Unit := ask (S := calls) (.mdbTxnAbort txn)

theorem wp_mdbTxnAbort (txn : Txn) {Q : List (Event calls Fate) → Unit → World → Prop} :
  wp handle (mdbTxnAbort txn) Q w ↔ ∀ f, Q [⟨.mdbTxnAbort txn, f⟩] () (w.release (.txn txn.id))
  := Iff.rfl

def mdbDbiOpen (txn : Txn) (name : Bytes) (flags : Flags) :
    Program calls (Except Errno (Dbi × Txn)) :=
  ask (S := calls) (.mdbDbiOpen txn name flags)

theorem wp_mdbDbiOpen (txn : Txn) (name : Bytes) (flags : Flags)
    {Q : List (Event calls Fate) → Except Errno (Dbi × Txn) → World → Prop} :
  wp handle (mdbDbiOpen txn name flags) Q w
    ↔ Q [⟨.mdbDbiOpen txn name flags, .ok⟩] (txn.dbiOpen name flags) w
      ∧ ∀ e left, Q [⟨.mdbDbiOpen txn name flags, .fail e left⟩] (.error e) w
  := Fate.forall

def mdbDrop (txn : Txn) (dbi : Dbi) : Program calls (Except Errno Txn) :=
  ask (S := calls) (.mdbDrop txn dbi)

theorem wp_mdbDrop (txn : Txn) (dbi : Dbi)
    {Q : List (Event calls Fate) → Except Errno Txn → World → Prop} :
  wp handle (mdbDrop txn dbi) Q w
    ↔ Q [⟨.mdbDrop txn dbi, .ok⟩] (txn.drop dbi) w
      ∧ ∀ e left, Q [⟨.mdbDrop txn dbi, .fail e left⟩] (.error e) w
  := Fate.forall

def mdbGet (txn : Txn) (dbi : Dbi) (key : Bytes) : Program calls (Except Errno Bytes) :=
  ask (S := calls) (.mdbGet txn dbi key)

theorem wp_mdbGet (txn : Txn) (dbi : Dbi) (key : Bytes)
    {Q : List (Event calls Fate) → Except Errno Bytes → World → Prop} :
  wp handle (mdbGet txn dbi key) Q w
    ↔ Q [⟨.mdbGet txn dbi key, .ok⟩] (txn.get dbi key) w
      ∧ ∀ e left, Q [⟨.mdbGet txn dbi key, .fail e left⟩] (.error e) w
  := Fate.forall

def mdbPut (txn : Txn) (dbi : Dbi) (key value : Bytes) : Program calls (Except Errno Txn) :=
  ask (S := calls) (.mdbPut txn dbi key value)

theorem wp_mdbPut (txn : Txn) (dbi : Dbi) (key value : Bytes)
    {Q : List (Event calls Fate) → Except Errno Txn → World → Prop} :
  wp handle (mdbPut txn dbi key value) Q w
    ↔ Q [⟨.mdbPut txn dbi key value, .ok⟩] (txn.put dbi key value) w
      ∧ ∀ e left, Q [⟨.mdbPut txn dbi key value, .fail e left⟩] (.error e) w
  := Fate.forall

def mdbDel (txn : Txn) (dbi : Dbi) (key : Bytes) : Program calls (Except Errno Txn) :=
  ask (S := calls) (.mdbDel txn dbi key)

theorem wp_mdbDel (txn : Txn) (dbi : Dbi) (key : Bytes)
    {Q : List (Event calls Fate) → Except Errno Txn → World → Prop} :
  wp handle (mdbDel txn dbi key) Q w
    ↔ Q [⟨.mdbDel txn dbi key, .ok⟩] (txn.del dbi key) w
      ∧ ∀ e left, Q [⟨.mdbDel txn dbi key, .fail e left⟩] (.error e) w
  := Fate.forall

def mdbStat (txn : Txn) (dbi : Dbi) : Program calls (Except Errno ℕ) :=
  ask (S := calls) (.mdbStat txn dbi)

theorem wp_mdbStat (txn : Txn) (dbi : Dbi)
    {Q : List (Event calls Fate) → Except Errno ℕ → World → Prop} :
  wp handle (mdbStat txn dbi) Q w
    ↔ Q [⟨.mdbStat txn dbi, .ok⟩] (.ok (txn.entries dbi)) w
      ∧ ∀ e left, Q [⟨.mdbStat txn dbi, .fail e left⟩] (.error e) w
  := Fate.forall

end Rules

end Hed
