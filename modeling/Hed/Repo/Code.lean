import Hed.Lmdb.Calls

/-!
# The repository

The functions of `repo.c`, as programs over the external calls.  A function that changes
`struct hed_repo` takes it and returns it changed.  The assertions of the API are the
requirements at which a program halts.  `repo3pc` is the option `CONFIG_HED_REPO_3PC`.
-/

namespace Hed

/-- A `struct hed_repo`.  Its flags are an access mode.  The two strings are resources of
the process; the files they name are those of the world. -/
structure HedRepo where
  env : Option Env
  txn : Option Txn
  flags : Flags
  mode : ℕ
  table : List Bytes
  flags_accmode : flags &&& O_ACCMODE = flags
  deriving DecidableEq

/-- A repository structure no function has set up. -/
def HedRepo.unset : HedRepo := ⟨none, none, 0, 0, [], by decide⟩

/-- The number of tables. -/
def HedRepo.nb (repo : HedRepo) : ℕ := repo.table.length

/-- A function of `repo.c` that returns `α`. -/
abbrev Repo (α : Type) := Program calls α

open Program

/-- The table `".hed"` of the sequence numbers and of the version. -/
def hedTable : Bytes := [0x2e, 0x68, 0x65, 0x64]

/-- The key `".version"`. -/
def versionKey : Bytes := [0x2e, 0x76, 0x65, 0x72, 0x73, 0x69, 0x6f, 0x6e]

/-- The character `'.'`. -/
def dot : Byte := 0x2e

/-! ### Sequence numbers -/

/-- The bytes of a `uint32_t`, the least significant one first. -/
def encode32 (n : ℕ) : Bytes :=
  [Fin.ofNat 256 n, Fin.ofNat 256 (n / 256), Fin.ofNat 256 (n / 65536),
    Fin.ofNat 256 (n / 16777216)]

/-- The `uint32_t` four bytes hold. -/
def decode32 : Bytes → ℕ
  | [a, b, c, d] => a + 256 * b + 65536 * c + 16777216 * d
  | _ => 0

theorem decode32_encode32 {n : ℕ} (h : n < 4294967296) :
  decode32 (encode32 n) = n
  := by
  simp only [encode32, decode32, Fin.val_ofNat]
  omega

theorem decode32_lt (b : Bytes) :
  decode32 b < 4294967296
  := by
  rw [decode32.eq_def]
  split
  · omega
  · omega

/-! ### Transactions -/

def hedRepoAbort (repo : HedRepo) : Repo HedRepo := do
  let _ ← demand repo.env
  let txn ← demand repo.txn
  mdbTxnAbort txn
  pure { repo with txn := none }

def hedRepoCommit (repo : HedRepo) : Repo (ℤ × HedRepo) := do
  let _ ← demand repo.env
  let txn ← demand repo.txn
  let ret ← mdbTxnCommit txn
  pure (rc ret, { repo with txn := none })

/-- The copy `hed_repo_start` makes, with `CONFIG_HED_REPO_3PC`, before it begins a
transaction with the LMDB flags `flags`. -/
def repoBackup (repo3pc : Bool) (repo : HedRepo) (env : Env) (flags : Flags) : Repo ℤ :=
  if repo3pc = true ∧ flags = 0 then do
    match ← ufileNew (O_RDWR ||| O_TRUNC ||| O_CLOEXEC) repo.mode with
    | .error e => pure e.code
    | .ok _ => do
        let ret ← mdbEnvCopyfd env
        ufileClose
        pure (rc ret)
  else pure 0

def hedRepoStart (repo3pc : Bool) (repo : HedRepo) : Repo (ℤ × HedRepo) := do
  let env ← demand repo.env
  require (repo.txn = none)
  let flags := if repo.flags &&& O_RDONLY ≠ 0 then MDB_RDONLY else 0
  let ret ← repoBackup repo3pc repo env flags
  if ret ≠ 0 then pure (ret, repo)
  else do
    match ← mdbTxnBegin env flags with
    | .error e => pure (e.code, repo)
    | .ok txn => pure (0, { repo with txn := some txn })

/-! ### Records -/

/-- Open a table in the transaction of the repository: the code `mdb_dbi_open` returns, or
the handle and the transaction after it. -/
def repoDbiOpen (repo : HedRepo) (table : Bytes) (flags : Flags) :
    Repo (Except Errno (Dbi × Txn)) := do
  let _ ← demand repo.env
  let txn ← demand repo.txn
  mdbDbiOpen txn table flags

def hedRepoGet (repo : HedRepo) (table key : Bytes) :
    Repo (Except Errno Bytes × HedRepo) := do
  require (key ≠ [])
  match ← repoDbiOpen repo table 0 with
  | .error e => pure (.error e, repo)
  | .ok (dbi, txn) => do
      let ret ← mdbGet txn dbi key
      pure (ret, { repo with txn := some txn })

def hedRepoUpdate (repo : HedRepo) (table key value : Bytes) : Repo (ℤ × HedRepo) := do
  require (key ≠ [])
  require (value ≠ [])
  match ← repoDbiOpen repo table 0 with
  | .error e => pure (e.code, repo)
  | .ok (dbi, txn) => do
      match ← mdbPut txn dbi key value with
      | .error e => pure (e.code, { repo with txn := some txn })
      | .ok txn => pure (0, { repo with txn := some txn })

def hedRepoDel (repo : HedRepo) (table key : Bytes) : Repo (ℤ × HedRepo) := do
  require (key ≠ [])
  match ← repoDbiOpen repo table 0 with
  | .error e => pure (e.code, repo)
  | .ok (dbi, txn) => do
      match ← mdbDel txn dbi key with
      | .error e => pure (e.code, { repo with txn := some txn })
      | .ok txn => pure (0, { repo with txn := some txn })

def hedRepoCount (repo : HedRepo) (table : Bytes) : Repo (ℤ × HedRepo) := do
  match ← repoDbiOpen repo table 0 with
  | .error e => pure (-e.code, repo)
  | .ok (dbi, txn) => do
      match ← mdbStat txn dbi with
      | .error e => pure (-e.code, { repo with txn := some txn })
      | .ok entries => pure (entries, { repo with txn := some txn })

def hedRepoNextSeq (repo : HedRepo) (table : Bytes) : Repo (ℕ × HedRepo) := do
  let ret ← hedRepoGet repo hedTable table
  match ret.1 with
  | .error _ => pure (0, ret.2)
  | .ok old => do
      require (old.length = 4)
      let seq := (decode32 old + 1) % 4294967296
      let ret ← hedRepoUpdate ret.2 hedTable table (encode32 seq)
      if ret.1 ≠ 0 then pure (0, ret.2) else pure (seq, ret.2)

def hedRepoGetVersion (repo : HedRepo) : Repo (Except Errno Bytes × HedRepo) :=
  hedRepoGet repo hedTable versionKey

def hedRepoSetVersion (repo : HedRepo) (value : Bytes) : Repo (ℤ × HedRepo) :=
  hedRepoUpdate repo hedTable versionKey value

/-! ### Opening and closing -/

/-- The abort `repo_close` does when a transaction is open. -/
def repoAbortPending (repo : HedRepo) : Repo HedRepo :=
  if repo.txn.isSome then hedRepoAbort repo else pure repo

/-- The static `repo_close`. -/
def repoClose (repo : HedRepo) : Repo HedRepo :=
  match repo.env with
  | none => pure repo
  | some env => do
      let repo ← repoAbortPending repo
      mdbEnvClose env
      pure { repo with env := none }

/-- The static `repo_open_table`. -/
def repoOpenTable (repo : HedRepo) (table : Bytes) (flags : Flags) :
    Repo (ℤ × HedRepo) := do
  let f := if flags &&& O_CREAT ≠ 0 then MDB_CREATE else 0
  match ← repoDbiOpen repo table f with
  | .error e => pure (e.code, repo)
  | .ok (dbi, txn) =>
      if flags &&& O_TRUNC = 0 then pure (0, { repo with txn := some txn })
      else do
        match ← mdbDrop txn dbi with
        | .error e => pure (e.code, { repo with txn := some txn })
        | .ok txn => pure (0, { repo with txn := some txn })

/-- The loop of `repo_open` that opens the tables of the repository. -/
def repoOpenTables (flags : Flags) : HedRepo → List Bytes → Repo (ℤ × HedRepo)
  | repo, [] => pure (0, repo)
  | repo, table :: rest => do
      require (table.head? ≠ some dot)
      let ret ← repoOpenTable repo table flags
      if ret.1 ≠ 0 then pure ret else repoOpenTables flags ret.2 rest

/-- The loop of `repo_open` that writes the first sequence numbers. -/
def repoInitSeqs : HedRepo → List Bytes → Repo (ℤ × HedRepo)
  | repo, [] => pure (0, repo)
  | repo, table :: rest => do
      let ret ← hedRepoUpdate repo hedTable table (encode32 0)
      if ret.1 ≠ 0 then pure ret else repoInitSeqs ret.2 rest

/-- What `repo_open` does in the transaction it starts, up to its commit. -/
def repoSetup (repo : HedRepo) (flags : Flags) : Repo (ℤ × HedRepo) := do
  let ret ← repoOpenTable repo hedTable flags
  if ret.1 ≠ 0 then pure ret
  else do
    let ret ← repoOpenTables flags ret.2 repo.table
    if ret.1 ≠ 0 then pure ret
    else if flags &&& O_TRUNC ≠ 0 then repoInitSeqs ret.2 repo.table
    else pure (0, ret.2)

/-- The cleanup of `repo_open`. -/
def repoOpenError (repo : HedRepo) (ret : ℤ) : Repo (ℤ × HedRepo) := do
  let repo ← repoClose repo
  pure (ret, repo)

/-- The static `repo_open`. -/
def repoOpen (repo3pc : Bool) (repo : HedRepo) (flags : Flags) : Repo (ℤ × HedRepo) := do
  require (repo.env = none)
  require (repo.txn = none)
  let f := if flags &&& O_RDONLY ≠ 0 then MDB_RDONLY else 0
  match ← mdbEnvCreate with
  | .error e => pure (e.code, repo)
  | .ok env => do
      let repo := { repo with env := some env }
      let ret ← mdbEnvSetMaxdbs env (repo.nb + 1)
      if rc ret ≠ 0 then repoOpenError repo (rc ret)
      else do
        match ← mdbEnvOpen env (f ||| MDB_NOSUBDIR) repo.mode with
        | .error e => repoOpenError repo e.code
        | .ok env => do
            let repo := { repo with env := some env }
            let ret ← hedRepoStart repo3pc repo
            if ret.1 ≠ 0 then repoOpenError ret.2 ret.1
            else do
              let ret ← repoSetup ret.2 flags
              if ret.1 ≠ 0 then repoOpenError ret.2 ret.1
              else hedRepoCommit ret.2

/-- The structure `hed_repo_open` sets up before it acquires anything. -/
def HedRepo.init (table : List Bytes) (flags : Flags) (mode : ℕ) : HedRepo where
  env := none
  txn := none
  flags := flags &&& O_ACCMODE
  mode := mode
  table := table
  flags_accmode := by rw [BitVec.and_assoc, BitVec.and_self]

def hedRepoOpen (repo3pc : Bool) (table : List Bytes) (flags : Flags) (mode : ℕ) :
    Repo (ℤ × HedRepo) := do
  require (flags &&& ~~~(O_RDWR ||| O_RDONLY ||| O_CREAT ||| O_TRUNC) = 0)
  require (flags &&& O_CREAT = 0 ∨ flags &&& O_RDWR ≠ 0)
  require (flags &&& O_TRUNC = 0 ∨ flags &&& O_CREAT ≠ 0)
  let repo := HedRepo.init table flags mode
  let backup ← malloc
  if backup = false then pure (-ENOMEM.code, repo)
  else do
    let ret ← strollLvstrInitCede .backup
    if rc ret ≠ 0 then do
      strollLvstrFini .backup
      pure (rc ret, repo)
    else do
      let ret ← strollLvstrInitDup .path
      if rc ret ≠ 0 then do
        strollLvstrFini .backup
        pure (rc ret, repo)
      else do
        let ret ← repoOpen repo3pc repo flags
        if ret.1 ≠ 0 then do
          strollLvstrFini .path
          strollLvstrFini .backup
          pure ret
        else pure (0, ret.2)

def hedRepoClose (repo : HedRepo) : Repo HedRepo :=
  match repo.env with
  | none => pure repo
  | some _ => do
      let repo ← repoClose repo
      if repo.flags &&& O_RDWR ≠ 0 then do
        let _ ← remove
        strollLvstrFini .path
        strollLvstrFini .backup
        pure repo
      else do
        strollLvstrFini .path
        strollLvstrFini .backup
        pure repo

def hedRepoReload (repo3pc : Bool) (repo : HedRepo) : Repo (ℤ × HedRepo) := do
  let _ ← demand repo.env
  require (repo.txn = none)
  let repo ← repoClose repo
  repoOpen repo3pc repo repo.flags

/-- `hed_repo_rollback`, which exists with `CONFIG_HED_REPO_3PC` only. -/
def hedRepoRollback (repo : HedRepo) : Repo (ℤ × HedRepo) := do
  let _ ← demand repo.env
  require (repo.txn = none)
  let repo ← repoClose repo
  let _ ← rename
  repoOpen true repo repo.flags

end Hed
