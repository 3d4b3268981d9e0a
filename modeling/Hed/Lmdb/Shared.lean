import Mathlib.Logic.Function.Basic
import Hed.Lmdb.Calls

/-!
# The world of several processes

Several processes work on the files of one repository.  What they share are files and the
names of two of them: a process that has opened a file keeps it when its name goes to another
file or to none, and what it writes then goes to the file it has opened.  Of the files of
LMDB a process can write to one at a time: the beginning of a transaction waits until the
writer has ended its own.  A copy of an environment does not wait, so that there are more
interleavings here than LMDB allows.  `Shared.handle` says what the calls do there; what a
process holds on its own is left out.
-/

namespace Hed

/-- A file, whatever its name. -/
abbrev Inode := ℕ

/-- The files the processes `ι` share.  `data` and `backup` are the files with the name of the
repository and with that name and the suffix `-backup`; `fresh` and all files from it on have
not been used yet.  For each process, `mapped` says which file an environment or a
transaction works on, given its identity, and `fd` which file it has opened last with
`ufile_new`.  `writer` is the process that has a transaction open that can write. -/
structure Shared (ι : Type) where
  files : Inode → DataFile
  data : Option Inode
  backup : Option Inode
  fresh : Inode
  mapped : ι → ℕ → Inode
  fd : ι → Inode
  writer : Option ι
  next : ℕ

namespace Shared

variable {ι : Type}

/-- The file with the name of the backup. -/
def backupFile (s : Shared ι) : Option DataFile := s.backup.map s.files

/-- The content of a file. -/
def content (s : Shared ι) (i : Inode) : Option Content := DataFile.content (some (s.files i))

/-- Write a file. -/
def write (s : Shared ι) (i : Inode) (file : DataFile) : Shared ι :=
  { s with files := Function.update s.files i file }

/-- Move the backup over the data file. -/
def rename (s : Shared ι) : Except Errno Unit × Shared ι :=
  match s.backup with
  | none => (.error ENOENT, s)
  | some i => (.ok (), { s with data := some i, backup := none })

/-- Remove the backup. -/
def remove (s : Shared ι) : Except Errno Unit × Shared ι :=
  match s.backup with
  | none => (.error ENOENT, s)
  | some _ => (.ok (), { s with backup := none })

/-- A transaction that could write has ended. -/
def unlock (s : Shared ι) (txn : Txn) : Shared ι :=
  if txn.readonly then s else { s with writer := none }

section Process

variable [DecidableEq ι] (p : ι)

/-- The environment or transaction `id` of the process works on the file `i`. -/
def map (s : Shared ι) (id : ℕ) (i : Inode) : Shared ι :=
  { s with mapped := Function.update s.mapped p (Function.update (s.mapped p) id i) }

/-- Open the backup, created or truncated. -/
def create (s : Shared ι) (flags : Flags) : Shared ι :=
  match s.backup with
  | none =>
      { s with
        files := Function.update s.files s.fresh .blank
        backup := some s.fresh
        fd := Function.update s.fd p s.fresh
        fresh := s.fresh + 1 }
  | some i =>
      { s with
        files := if flags &&& O_TRUNC ≠ 0 then Function.update s.files i .blank else s.files
        fd := Function.update s.fd p i }

/-- What a copy of an environment writes, if it writes anything. -/
def copied (s : Shared ι) (env : Env) : Fate → Option DataFile
  | .ok => (s.content (s.mapped p env.id)).map .full
  | .fail _ left => some left

/-- Copy an environment to the file the process has opened. -/
def copy (s : Shared ι) (env : Env) (f : Fate) : Except Errno Unit × Shared ι :=
  match s.copied p env f with
  | none => (.error MDB_CORRUPTED, s)
  | some file => (match f with | .ok => .ok () | .fail e _ => .error e, s.write (s.fd p) file)

/-- Open an environment on the file with the name of the repository, which is created when it
is missing or empty, unless the environment is to be read-only. -/
def envOpen (s : Shared ι) (env : Env) (flags : Flags) : Except Errno Env × Shared ι :=
  match s.data with
  | none =>
      if flags &&& MDB_RDONLY ≠ 0 then (.error ENOENT, s)
      else
        (.ok { env with flags := flags },
          { s.map p env.id s.fresh with
            files := Function.update s.files s.fresh (.full ∅)
            data := some s.fresh
            fresh := s.fresh + 1 })
  | some i =>
      match s.files i with
      | .torn _ _ => (.error MDB_INVALID, s)
      | .full _ => (.ok { env with flags := flags }, s.map p env.id i)
      | .blank =>
          if flags &&& MDB_RDONLY ≠ 0 then (.error ENOENT, s)
          else (.ok { env with flags := flags }, (s.write i (.full ∅)).map p env.id i)

/-- Begin a transaction on the content of the file of the environment. -/
def txnBegin (s : Shared ι) (env : Env) (flags : Flags) : Except Errno Txn × Shared ι :=
  match s.content (s.mapped p env.id) with
  | none => (.error MDB_CORRUPTED, s)
  | some c =>
      if env.flags &&& MDB_RDONLY ≠ 0 ∧ flags &&& MDB_RDONLY = 0 then (.error EACCES, s)
      else
        (.ok ⟨s.next, flags &&& MDB_RDONLY ≠ 0, c⟩,
          { s.map p s.next (s.mapped p env.id) with
            writer := if flags &&& MDB_RDONLY ≠ 0 then s.writer else some p
            next := s.next + 1 })

/-- Publish the content of a transaction, unless it is read-only. -/
def publish (s : Shared ι) (txn : Txn) : Shared ι :=
  if txn.readonly then s else s.write (s.mapped p txn.id) (.full txn.content)

/-- What a call of the process `p` does to the files, and its reply. -/
def handle : Program.Handler calls Fate (Shared ι) := fun f c s =>
  match c with
  | .malloc =>
      match f with
      | .ok => (true, s)
      | .fail _ _ => (false, s)
  | .strollLvstrInitCede _ => attempt f s (.ok (), s)
  | .strollLvstrInitDup _ => attempt f s (.ok (), s)
  | .strollLvstrFini _ => ((), s)
  | .ufileNew flags _ => attempt f s (.ok (), s.create p flags)
  | .ufileClose => ((), s)
  | .rename => attempt f s s.rename
  | .remove => attempt f s s.remove
  | .mdbEnvCreate => attempt f s (.ok ⟨s.next, 0⟩, { s with next := s.next + 1 })
  | .mdbEnvSetMaxdbs _ _ => attempt f s (.ok (), s)
  | .mdbEnvOpen env flags _ => attempt f s (s.envOpen p env flags)
  | .mdbEnvClose _ => ((), s)
  | .mdbEnvCopyfd env => s.copy p env f
  | .mdbTxnBegin env flags => attempt f s (s.txnBegin p env flags)
  | .mdbTxnCommit txn => attempt f (s.unlock txn) (.ok (), (s.publish p txn).unlock txn)
  | .mdbTxnAbort txn => ((), s.unlock txn)
  | .mdbDbiOpen txn name flags => attempt f s (txn.dbiOpen name flags, s)
  | .mdbDrop txn dbi => attempt f s (txn.drop dbi, s)
  | .mdbGet txn dbi key => attempt f s (txn.get dbi key, s)
  | .mdbPut txn dbi key value => attempt f s (txn.put dbi key value, s)
  | .mdbDel txn dbi key => attempt f s (txn.del dbi key, s)
  | .mdbStat txn dbi => attempt f s (.ok (txn.entries dbi), s)

/-- A transaction that can write begins only when no other one is open. -/
def waits (c : Call) (f : Fate) (s : Shared ι) : Bool :=
  match c, f with
  | .mdbTxnBegin _ flags, .ok => flags &&& MDB_RDONLY = 0 && s.writer.isSome
  | _, _ => false

/-- What a call writes to a file there is already, and to which.  Opening an environment is
none of it: what that writes leaves the content of the file. -/
def writes (f : Fate) (c : Call) (s : Shared ι) : Option (Inode × DataFile) :=
  match c with
  | .ufileNew flags _ =>
      if f = .ok ∧ flags &&& O_TRUNC ≠ 0 then s.backup.map (fun i => (i, .blank)) else none
  | .mdbEnvCopyfd env => (s.copied p env f).map (fun file => (s.fd p, file))
  | .mdbTxnCommit txn =>
      if f = .ok ∧ txn.readonly = false then some (s.mapped p txn.id, .full txn.content)
      else none
  | _ => none

end Process

end Shared

/-- The calls that leave the files, their names, and which process works on which. -/
def Call.Quiet : Call → Prop
  | .ufileNew _ _ => False
  | .rename => False
  | .remove => False
  | .mdbEnvOpen _ _ _ => False
  | .mdbEnvCopyfd _ => False
  | .mdbTxnBegin _ _ => False
  | .mdbTxnCommit _ => False
  | _ => True

namespace Shared

variable {ι : Type}

theorem unlock_eq (s : Shared ι) (txn : Txn) :
  ∃ writer, s.unlock txn = { s with writer := writer }
  := by
  rw [unlock]
  split_ifs with hro
  · use s.writer
  · use none

/-- A transaction that could write gives the lock back. -/
theorem unlock_of_writable {txn : Txn} (hro : txn.readonly = false) (s : Shared ι) :
  s.unlock txn = { s with writer := none }
  := by
  rw [unlock, hro, if_neg Bool.false_ne_true]

/-- No call waits while no process has the lock. -/
theorem waits_of_free {s : Shared ι} (hs : s.writer = none) (c : Call) (f : Fate) :
  s.waits c f = false
  := by
  cases c with
  | mdbTxnBegin env flags =>
      cases f with
      | ok =>
          rw [waits, hs]
          apply Bool.and_false
      | fail e left => rfl
  | _ => rfl

theorem attempt_same {α : Type} (f : Fate) (s : Shared ι) (r : Except Errno α) :
  (attempt f s (r, s)).2 = s
  := by
  cases f with
  | ok => rfl
  | fail e left => rfl

/-- The backup is neither the data file nor one that an environment or a transaction works
on. -/
structure Apart (s : Shared ι) : Prop where
  data_lt : ∀ i, s.data = some i → i < s.fresh
  backup_lt : ∀ i, s.backup = some i → i < s.fresh
  mapped_lt : ∀ p id, s.mapped p id < s.fresh
  data_ne : ∀ i, s.backup = some i → s.data ≠ some i
  mapped_ne : ∀ i, s.backup = some i → ∀ p id, s.mapped p id ≠ i

/-- What files hold does not matter. -/
theorem Apart.of_eq {s s' : Shared ι} (h : s.Apart) (hdata : s'.data = s.data)
    (hbackup : s'.backup = s.backup) (hfresh : s'.fresh = s.fresh)
    (hmapped : s'.mapped = s.mapped) :
  s'.Apart
  := by
  constructor
  · rw [hdata, hfresh]
    apply h.data_lt
  · rw [hbackup, hfresh]
    apply h.backup_lt
  · rw [hmapped, hfresh]
    apply h.mapped_lt
  · rw [hdata, hbackup]
    apply h.data_ne
  · rw [hbackup, hmapped]
    apply h.mapped_ne

variable [DecidableEq ι] {p : ι} {f : Fate} {c : Call} {s : Shared ι}

/-- A quiet call changes at most the next identity and the writer. -/
theorem handle_quiet (hc : c.Quiet) :
  ∃ n writer, (handle p f c s).2 = { s with next := n, writer := writer }
  := by
  cases c with
  | ufileNew flags mode => cases hc
  | rename => cases hc
  | remove => cases hc
  | mdbEnvOpen env flags mode => cases hc
  | mdbEnvCopyfd env => cases hc
  | mdbTxnBegin env flags => cases hc
  | mdbTxnCommit txn => cases hc
  | malloc =>
      cases f with
      | ok => exact ⟨s.next, s.writer, rfl⟩
      | fail e left => exact ⟨s.next, s.writer, rfl⟩
  | mdbEnvCreate =>
      cases f with
      | ok => exact ⟨s.next + 1, s.writer, rfl⟩
      | fail e left => exact ⟨s.next, s.writer, rfl⟩
  | mdbTxnAbort txn =>
      obtain ⟨writer, hwriter⟩ := s.unlock_eq txn
      exact ⟨s.next, writer, hwriter⟩
  | strollLvstrFini _ => exact ⟨s.next, s.writer, rfl⟩
  | ufileClose => exact ⟨s.next, s.writer, rfl⟩
  | mdbEnvClose env => exact ⟨s.next, s.writer, rfl⟩
  | _ => exact ⟨s.next, s.writer, attempt_same f s _⟩

/-! ### What a call can change -/

/-- What the process `p` can change by a call: nothing but whose file descriptor, identities
and lock are which; a file it writes to; the names; or the file an environment or a
transaction works on. -/
inductive Change (p : ι) (f : Fate) (c : Call) (s : Shared ι) : Shared ι → Prop where
  | kept {fd : ι → Inode} {writer : Option ι} {n : ℕ} (others : ∀ q, q ≠ p → fd q = s.fd q) :
      Change p f c s { s with fd := fd, writer := writer, next := n }
  | wrote {i : Inode} {file : DataFile} {fd : ι → Inode} {writer : Option ι}
      (writes : s.writes p f c = some (i, file)) (others : ∀ q, q ≠ p → fd q = s.fd q) :
      Change p f c s { s.write i file with fd := fd, writer := writer }
  | created (none : s.backup = none) :
      Change p f c s
        { s with
          files := Function.update s.files s.fresh .blank
          backup := some s.fresh
          fd := Function.update s.fd p s.fresh
          fresh := s.fresh + 1 }
  | renamed {i : Inode} (ok : f = .ok) (call : c = .rename) (backup : s.backup = some i) :
      Change p f c s { s with data := some i, backup := none }
  | removed {i : Inode} (ok : f = .ok) (call : c = .remove) (backup : s.backup = some i) :
      Change p f c s { s with backup := none }
  | mapped {id : ℕ} {i : Inode} {writer : Option ι} {n : ℕ}
      (known : s.data = some i ∨ ∃ id', s.mapped p id' = i) :
      Change p f c s { s.map p id i with writer := writer, next := n }
  | made {id : ℕ} (none : s.data = none) :
      Change p f c s
        { s.map p id s.fresh with
          files := Function.update s.files s.fresh (.full ∅)
          data := some s.fresh
          fresh := s.fresh + 1 }
  | filled {id : ℕ} {i : Inode} (data : s.data = some i) (blank : s.files i = .blank) :
      Change p f c s ((s.write i (.full ∅)).map p id i)

theorem Change.same :
  Change p f c s s
  := by
  exact Change.kept (fun q _ => rfl)

theorem change_create {flags : Flags} {mode : ℕ} :
  Change p .ok (.ufileNew flags mode) s (s.create p flags)
  := by
  have hothers : ∀ i q, q ≠ p → Function.update s.fd p i q = s.fd q := by
    intro i q hq
    apply Function.update_of_ne hq
  rw [create]
  split
  · rename_i hbackup
    apply Change.created hbackup
  · rename_i i hbackup
    split_ifs with htrunc
    · have hwrites : s.writes p .ok (.ufileNew flags mode) = some (i, .blank) := by
        rw [writes, if_pos ⟨rfl, htrunc⟩, hbackup]
        rfl
      exact Change.wrote hwrites (hothers i)
    · apply Change.kept (hothers i)

theorem change_envOpen {env : Env} {flags : Flags} :
  Change p f c s (s.envOpen p env flags).2
  := by
  rw [envOpen]
  split
  · rename_i hdata
    split
    · apply Change.same
    · apply Change.made hdata
  · rename_i i hdata
    split
    · apply Change.same
    · apply Change.mapped (Or.inl hdata)
    · rename_i hblank
      split
      · apply Change.same
      · apply Change.filled hdata hblank

theorem change_txnBegin {env : Env} {flags : Flags} :
  Change p f c s (s.txnBegin p env flags).2
  := by
  rw [txnBegin]
  split
  · apply Change.same
  · split
    · apply Change.same
    · apply Change.mapped (Or.inr ⟨env.id, rfl⟩)

theorem change_copy {env : Env} :
  Change p f (.mdbEnvCopyfd env) s (s.copy p env f).2
  := by
  rw [copy.eq_def]
  cases hcopied : s.copied p env f with
  | none => apply Change.same
  | some file =>
      have hwrites : s.writes p f (.mdbEnvCopyfd env) = some (s.fd p, file) := by
        rw [writes, hcopied]
        rfl
      exact Change.wrote hwrites (fun q _ => rfl)

theorem change_unlock {txn : Txn} :
  Change p f c s (s.unlock txn)
  := by
  obtain ⟨writer, hwriter⟩ := s.unlock_eq txn
  rw [hwriter]
  exact Change.kept (fun q _ => rfl)

theorem change_commit {txn : Txn} :
  Change p .ok (.mdbTxnCommit txn) s ((s.publish p txn).unlock txn)
  := by
  rw [publish]
  split_ifs with hro
  · apply change_unlock
  · obtain ⟨writer, hwriter⟩ := (s.write (s.mapped p txn.id) (.full txn.content)).unlock_eq txn
    rw [hwriter]
    have hwrites : s.writes p .ok (.mdbTxnCommit txn)
        = some (s.mapped p txn.id, .full txn.content) := by
      rw [writes, if_pos ⟨rfl, by simpa using hro⟩]
    exact Change.wrote hwrites (fun q _ => rfl)

/-- Every call changes something of that kind. -/
theorem change_handle (p : ι) (f : Fate) (c : Call) (s : Shared ι) :
  Change p f c s (handle p f c s).2
  := by
  have hattempt : ∀ {α : Type} {work : Except Errno α × Shared ι},
      (f = .ok → Change p f c s work.2) → Change p f c s (attempt f s work).2 := by
    intro α work hwork
    cases f with
    | ok => apply hwork rfl
    | fail e left => apply Change.same
  by_cases hc : c.Quiet
  · obtain ⟨n, writer, hquiet⟩ := handle_quiet (p := p) (f := f) (s := s) hc
    rw [hquiet]
    exact Change.kept (fun q _ => rfl)
  cases c with
  | ufileNew flags mode =>
      apply hattempt
      rintro rfl
      apply change_create
  | mdbEnvOpen env flags mode => apply hattempt fun _ => change_envOpen
  | mdbTxnBegin env flags => apply hattempt fun _ => change_txnBegin
  | mdbEnvCopyfd env => apply change_copy
  | rename =>
      apply hattempt
      intro hok
      rw [rename]
      split
      · apply Change.same
      · rename_i i hbackup
        apply Change.renamed hok rfl hbackup
  | remove =>
      apply hattempt
      intro hok
      rw [remove]
      split
      · apply Change.same
      · rename_i i hbackup
        apply Change.removed hok rfl hbackup
  | mdbTxnCommit txn =>
      cases f with
      | ok => apply change_commit
      | fail e left => apply change_unlock
  | _ => apply (hc trivial).elim

/-! ### Names -/

/-- Mapping a file that is in use, but not as the backup. -/
theorem Apart.map (h : s.Apart) (p : ι) (id : ℕ) {i : Inode} (hi : i < s.fresh)
    (hne : ∀ j, s.backup = some j → i ≠ j) :
  (s.map p id i).Apart
  := by
  have hmapped : ∀ q id', (s.map p id i).mapped q id' = i
      ∨ (s.map p id i).mapped q id' = s.mapped q id' := by
    intro q id'
    by_cases hq : q = p
    · obtain rfl := hq
      by_cases hid : id' = id
      · left
        simp [Shared.map, hid]
      · right
        simp [Shared.map, hid]
    · right
      simp [Shared.map, hq]
  use h.data_lt, h.backup_lt
  · intro q id'
    rcases hmapped q id' with hq | hq
    · rw [hq]
      apply hi
    · rw [hq]
      apply h.mapped_lt
  · apply h.data_ne
  · intro j hj q id'
    rcases hmapped q id' with hq | hq
    · rw [hq]
      apply hne j hj
    · rw [hq]
      apply h.mapped_ne j hj

/-- Whatever a process changes, the backup stays apart. -/
theorem Apart.change (h : s.Apart) {s' : Shared ι} (hchange : Change p f c s s') :
  s'.Apart
  := by
  cases hchange with
  | kept others => exact h.of_eq rfl rfl rfl rfl
  | wrote writes others => exact h.of_eq rfl rfl rfl rfl
  | created hnone =>
      constructor
      · intro i hi
        apply (h.data_lt i hi).trans (Nat.lt_succ_self _)
      · rintro _ ⟨⟩
        apply Nat.lt_succ_self
      · intro q id
        apply (h.mapped_lt q id).trans (Nat.lt_succ_self _)
      · rintro _ ⟨⟩ hdata
        apply (h.data_lt _ hdata).ne rfl
      · rintro _ ⟨⟩ q id
        apply (h.mapped_lt q id).ne
  | @renamed i ok call hbackup =>
      constructor
      · rintro _ ⟨⟩
        apply h.backup_lt i hbackup
      · rintro j ⟨⟩
      · apply h.mapped_lt
      · rintro j ⟨⟩
      · rintro j ⟨⟩
  | removed =>
      constructor
      · apply h.data_lt
      · rintro j ⟨⟩
      · apply h.mapped_lt
      · rintro j ⟨⟩
      · rintro j ⟨⟩
  | @mapped id i writer n known =>
      have hi : i < s.fresh ∧ ∀ j, s.backup = some j → i ≠ j := by
        rcases known with hdata | ⟨id', rfl⟩
        · use h.data_lt i hdata
          rintro j hj rfl
          apply h.data_ne i hj hdata
        · use h.mapped_lt p id'
          intro j hj
          apply h.mapped_ne j hj
      exact (h.map p id hi.1 hi.2).of_eq rfl rfl rfl rfl
  | @made id hnone =>
      have hmade : Apart { s with fresh := s.fresh + 1, data := some s.fresh } := by
        constructor
        · rintro _ ⟨⟩
          apply Nat.lt_succ_self
        · intro i hi
          apply (h.backup_lt i hi).trans (Nat.lt_succ_self _)
        · intro q id'
          apply (h.mapped_lt q id').trans (Nat.lt_succ_self _)
        · intro i hi hdata
          apply (h.backup_lt i hi).ne (Option.some.inj hdata).symm
        · apply h.mapped_ne
      have hmap := hmade.map p id (i := s.fresh) (Nat.lt_succ_self _)
        (fun j hj => (h.backup_lt j hj).ne')
      exact hmap.of_eq rfl rfl rfl rfl
  | @filled id i data blank =>
      have hmap := h.map p id (h.data_lt i data) (by
        rintro j hj rfl
        apply h.data_ne i hj data)
      exact hmap.of_eq rfl rfl rfl rfl

/-! ### Files -/

/-- What becomes of a file there is: it stays, a call writes to it, or an environment is
opened on it while it is empty. -/
theorem Change.files {s' : Shared ι} (h : Change p f c s s') {i : Inode} (hi : i < s.fresh) :
  s'.files i = s.files i ∨ s.writes p f c = some (i, s'.files i)
    ∨ (s.data = some i ∧ s.files i = .blank ∧ s'.files i = .full ∅)
  := by
  cases h with
  | kept others =>
      left
      rfl
  | @wrote j file fd writer writes others =>
      simp only [write, Function.update_apply]
      split_ifs with hij
      · right
        left
        rw [writes, hij]
      · left
        rfl
  | created hnone =>
      left
      apply Function.update_of_ne hi.ne
  | renamed =>
      left
      rfl
  | removed =>
      left
      rfl
  | mapped =>
      left
      rfl
  | made hnone =>
      left
      apply Function.update_of_ne hi.ne
  | @filled id j data blank =>
      by_cases hij : i = j
      · obtain rfl := hij
        right
        right
        use data, blank
        apply Function.update_self
      · left
        apply Function.update_of_ne hij

/-- The backup keeps its name, unless it is moved or removed. -/
theorem Change.backup {s' : Shared ι} (h : Change p f c s s') {i : Inode}
    (hi : s.backup = some i) (hc : f = .ok → c ≠ .rename ∧ c ≠ .remove) :
  s'.backup = some i
  := by
  cases h with
  | kept => apply hi
  | wrote => apply hi
  | created hnone =>
      rw [hnone] at hi
      cases hi
  | renamed ok call => apply ((hc ok).1 call).elim
  | removed ok call => apply ((hc ok).2 call).elim
  | mapped => apply hi
  | made => apply hi
  | filled => apply hi

/-- A process does not change what the others work on. -/
theorem Change.others {s' : Shared ι} (h : Change p f c s s') {q : ι} (hq : q ≠ p) :
  s'.fd q = s.fd q ∧ s'.mapped q = s.mapped q
  := by
  cases h with
  | kept others => exact ⟨others q hq, rfl⟩
  | wrote writes others => exact ⟨others q hq, rfl⟩
  | created => exact ⟨Function.update_of_ne hq _ _, rfl⟩
  | renamed => exact ⟨rfl, rfl⟩
  | removed => exact ⟨rfl, rfl⟩
  | mapped => exact ⟨rfl, Function.update_of_ne hq _ _⟩
  | made => exact ⟨rfl, Function.update_of_ne hq _ _⟩
  | filled => exact ⟨rfl, Function.update_of_ne hq _ _⟩

/-! ### The committed content and the lock -/

/-- The committed content, if the file with the name of the repository can be read. -/
def committed (s : Shared ι) : Option Content := DataFile.content (s.data.map s.files)

/-- The file with the name of the repository stays, unless the backup is moved there or there
is none yet. -/
theorem Change.data {s' : Shared ι} (h : Change p f c s s') (hc : c ≠ .rename) :
  s'.data = s.data ∨ (s.data = none ∧ s'.data = some s.fresh)
  := by
  cases h with
  | renamed ok call => apply (hc call).elim
  | made none =>
      right
      exact ⟨none, rfl⟩
  | _ =>
      left
      rfl

theorem Change.fresh_le {s' : Shared ι} (h : Change p f c s s') :
  s.fresh ≤ s'.fresh
  := by
  cases h with
  | created => apply Nat.le_succ
  | made => apply Nat.le_succ
  | _ => apply le_refl

/-- The committed content stays, unless a call writes to its file. -/
theorem Change.committed {s' : Shared ι} (h : Change p f c s s') (hapart : s.Apart)
    (hc : c ≠ .rename) :
  s'.committed = s.committed
    ∨ ∃ i file, s.writes p f c = some (i, file) ∧ s.data = some i
      ∧ s'.committed = DataFile.content (some file)
  := by
  rw [Shared.committed, Shared.committed]
  rcases h.data hc with hdata | ⟨hnone, hdata⟩
  · cases hs : s.data with
    | none =>
        left
        rw [hdata, hs, Option.map_none, Option.map_none]
    | some i =>
        rw [hdata, hs, Option.map_some, Option.map_some]
        rcases h.files (hapart.data_lt i hs) with hfile | hwrites | ⟨-, hblank, hfull⟩
        · left
          rw [hfile]
        · right
          exact ⟨i, s'.files i, hwrites, rfl, rfl⟩
        · left
          rw [hblank, hfull]
          rfl
  · left
    have hfile : s'.files s.fresh = .full ∅ := by
      cases h with
      | made none => apply Function.update_self
      | renamed ok call => apply (hc call).elim
      | kept => cases hnone.symm.trans hdata
      | wrote => cases hnone.symm.trans hdata
      | created => cases hnone.symm.trans hdata
      | removed => cases hnone.symm.trans hdata
      | mapped => cases hnone.symm.trans hdata
      | filled data => cases hnone.symm.trans hdata
    rw [hnone, hdata, Option.map_none, Option.map_some, hfile]
    rfl

end Shared

/-- The calls that begin a transaction or end one. -/
def Call.Bounds : Call → Prop
  | .mdbTxnBegin _ _ => True
  | .mdbTxnCommit _ => True
  | .mdbTxnAbort _ => True
  | _ => False

namespace Shared

variable {ι : Type} [DecidableEq ι] {p : ι} {f : Fate} {c : Call} {s : Shared ι}

/-- The other calls leave the lock. -/
theorem handle_writer (hc : ¬ c.Bounds) :
  (handle p f c s).2.writer = s.writer
  := by
  have hattempt : ∀ {α : Type} {work : Except Errno α × Shared ι},
      work.2.writer = s.writer → (attempt f s work).2.writer = s.writer := by
    intro α work hwork
    cases f with
    | ok => apply hwork
    | fail e left => rfl
  cases c with
  | mdbTxnBegin env flags => apply (hc trivial).elim
  | mdbTxnCommit txn => apply (hc trivial).elim
  | mdbTxnAbort txn => apply (hc trivial).elim
  | malloc =>
      cases f with
      | ok => rfl
      | fail e left => rfl
  | strollLvstrFini _ => rfl
  | ufileClose => rfl
  | mdbEnvClose env => rfl
  | ufileNew flags mode =>
      apply hattempt
      dsimp only [create]
      split
      · rfl
      · rfl
  | rename =>
      apply hattempt
      rw [rename]
      split
      · rfl
      · rfl
  | remove =>
      apply hattempt
      rw [remove]
      split
      · rfl
      · rfl
  | mdbEnvOpen env flags mode =>
      apply hattempt
      rw [envOpen]
      split
      · split_ifs with hro
        · rfl
        · rfl
      · split
        · rfl
        · rfl
        · split_ifs with hro
          · rfl
          · rfl
  | mdbEnvCopyfd env =>
      have hcopy : handle p f (.mdbEnvCopyfd env) s = s.copy p env f := rfl
      rw [hcopy, copy.eq_def]
      split
      · rfl
      · rfl
  | _ =>
      apply hattempt
      rfl

/-- A transaction that can write begins on the content of the file of its environment, and
takes the lock. -/
theorem txnBegin_cases (p : ι) (s : Shared ι) (env : Env) :
  (∃ e, s.txnBegin p env 0 = (.error e, s))
    ∨ ∃ c, s.content (s.mapped p env.id) = some c
      ∧ s.txnBegin p env 0 = (.ok ⟨s.next, false, c⟩,
        { s.map p s.next (s.mapped p env.id) with writer := some p, next := s.next + 1 })
  := by
  rw [txnBegin]
  cases s.content (s.mapped p env.id) with
  | none =>
      left
      exact ⟨MDB_CORRUPTED, rfl⟩
  | some c =>
      dsimp only
      split_ifs with hro hrdonly
      · left
        exact ⟨EACCES, rfl⟩
      · apply (hrdonly (by decide)).elim
      · right
        exact ⟨c, rfl, rfl⟩

/-- Opening an environment keeps its identity. -/
theorem envOpen_id {env env' : Env} {flags : Flags} (h : (s.envOpen p env flags).1 = .ok env') :
  env'.id = env.id
  := by
  rw [envOpen] at h
  split at h
  · split_ifs at h with hro
    obtain rfl := Except.ok.inj h
    rfl
  · split at h
    · cases h
    · obtain rfl := Except.ok.inj h
      rfl
    · split_ifs at h with hro
      obtain rfl := Except.ok.inj h
      rfl

end Shared

end Hed
