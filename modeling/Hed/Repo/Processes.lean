import Hed.Lmdb.Shared
import Hed.Prelude.Interleaving
import Hed.Repo.Client

/-!
# The rollback point and other processes

With `CONFIG_HED_REPO_3PC` every process that starts a transaction copies the committed
content to the backup file, and only then waits for its turn to write.  All processes on a
repository use the same backup file.  So the others can change what a process rolls back to:
`rollback_point_survives` says what they must not do since it called the start for the backup to
stay the content its transaction began from, in every interleaving of their calls.
-/

namespace Hed

open Program

/-! ### The calls of a start -/

/-- How far a process is with its backup: it has none to rely on; it has created the file; it
has copied the environment to it; or its transaction has begun, and it holds the content the
transaction began from as its rollback point. -/
inductive Phase where
  | free
  | created
  | copied (env : Env)
  | held (c : Content)
  deriving DecidableEq

/-- A process is in one of these phases when it is in no function of `repo.h`. -/
def Phase.Idle (φ : Phase) : Prop := φ = .free ∨ ∃ c, φ = .held c

/-- A process creates the backup, copies the environment, and begins a transaction in that
environment, in this order; in between it does nothing to the files.  `hed_repo_start` ends
with the call that begins the transaction, and returns what that returns. -/
def backupProtocol : Protocol calls Phase where
  allows φ c :=
    match c with
    | .ufileNew _ _ => φ = .free
    | .rename => φ = .free
    | .remove => φ = .free
    | .mdbEnvOpen _ _ _ => φ = .free
    | .mdbEnvCopyfd _ => φ = .created
    | .mdbTxnBegin env _ => φ = .copied env
    | .mdbTxnCommit _ => φ.Idle
    | _ => True
  next φ c reply :=
    match c, reply with
    | .ufileNew _ _, .ok _ => .created
    | .ufileNew _ _, .error _ => .free
    | .mdbEnvCopyfd env, .ok _ => .copied env
    | .mdbEnvCopyfd _, .error _ => .free
    | .mdbTxnBegin _ _, .ok txn => .held txn.content
    | .mdbTxnBegin _ _, .error _ => .free
    | _, _ => φ

/-- The functions that start a transaction, open or close: calling one of them ends the
rollback point. -/
def Op.endsPoint : Op → Bool
  | .hedRepoOpen _ _ _ => true
  | .hedRepoClose => true
  | .hedRepoReload => true
  | .hedRepoStart => true
  | .hedRepoRollback => true
  | _ => false

/-- The phase in which a process enters a function. -/
def Op.enter (op : Op) (φ : Phase) : Phase := if op.endsPoint then .free else φ

/-- What a process knows when a function returns: it is in a phase between two functions, and
after a start that returns zero it holds what its transaction began from. -/
def Returns (op : Op) (φ : Phase) (r : Result × HedRepo) : Prop :=
  φ.Idle ∧ (op = .hedRepoStart → r.1 = .code 0 →
    ∃ txn, r.2.txn = some txn ∧ φ = .held txn.content)

theorem Call.OnRecords.quiet {c : Call} (h : c.OnRecords) :
  c.Quiet
  := by
  cases c with
  | mdbDbiOpen txn name flags => trivial
  | mdbDrop txn dbi => trivial
  | mdbGet txn dbi key => trivial
  | mdbPut txn dbi key value => trivial
  | mdbDel txn dbi key => trivial
  | mdbStat txn dbi => trivial
  | _ => cases h

/-- The protocol takes no notice of quiet calls. -/
theorem Call.Quiet.unnoticed {c : Call} (h : c.Quiet) (φ : Phase) :
  backupProtocol.allows φ c ∧ ∀ reply, backupProtocol.next φ c reply = φ
  := by
  cases c with
  | ufileNew flags mode => cases h
  | rename => cases h
  | remove => cases h
  | mdbEnvOpen env flags mode => cases h
  | mdbEnvCopyfd env => cases h
  | mdbTxnBegin env flags => cases h
  | mdbTxnCommit txn => cases h
  | _ => exact ⟨trivial, fun _ => rfl⟩

theorem quiet_ask {c : Call} (h : c.Quiet) :
  (ask (S := calls) c).Calls Call.Quiet
  := calls_ask h

/-- A program of quiet calls follows the protocol and leaves its state. -/
theorem follows_quiet {α : Type} {p : Repo α} (hp : p.Calls Call.Quiet) (φ : Phase) :
  Follows backupProtocol p (fun φ' _ => φ' = φ) φ
  := follows_of_calls _ hp (fun _ hc => (hc.unnoticed φ).1)
    (fun _ reply hc => (hc.unnoticed φ).2 reply)

/-- A program of quiet calls and what follows it. -/
theorem follows_quiet_bind {α β : Type} {p : Repo α} {q : α → Repo β}
    {Q : Phase → β → Prop} {φ : Phase} (hp : p.Calls Call.Quiet)
    (hq : ∀ a, Follows backupProtocol (q a) Q φ) :
  Follows backupProtocol (p >>= q) Q φ
  := by
  apply follows_bind_of _ (follows_quiet hp φ)
  rintro _ a rfl
  apply hq

theorem quiet_hedRepoAbort (repo : HedRepo) :
  (hedRepoAbort repo).Calls Call.Quiet
  := calls_hedRepoAbort (fun _ => trivial) repo

theorem quiet_repoClose (repo : HedRepo) :
  (repoClose repo).Calls Call.Quiet
  := calls_repoClose (fun _ => trivial) (fun _ => trivial) repo

theorem quiet_repoSetup (repo : HedRepo) (flags : Flags) :
  (repoSetup repo flags).Calls Call.Quiet
  := (calls_repoSetup repo flags).mono fun _ => Call.OnRecords.quiet

theorem quiet_repoOpenError (repo : HedRepo) (ret : ℤ) :
  (repoOpenError repo ret).Calls Call.Quiet
  := calls_repoOpenError (fun _ => trivial) (fun _ => trivial) repo ret

/-- The postcondition of the functions of `repo.h`: the phase is one between two functions. -/
abbrev Idles {α : Type} (φ : Phase) (_ : α) : Prop := φ.Idle

theorem follows_of_quiet {α : Type} {p : Repo α} (hp : p.Calls Call.Quiet) {φ : Phase}
    (hφ : φ.Idle) :
  Follows backupProtocol p Idles φ
  := by
  apply follows_mono _ (follows_quiet hp φ)
  rintro _ a rfl
  apply hφ

theorem follows_hedRepoCommit (repo : HedRepo) {φ : Phase} (hφ : φ.Idle) :
  Follows backupProtocol (hedRepoCommit repo) Idles φ
  := by
  apply follows_quiet_bind (calls_demand _ _)
  intro env
  apply follows_quiet_bind (calls_demand _ _)
  intro txn
  use hφ
  intro reply
  apply hφ

/-- The backup creates the file and copies the environment to it, or the process relies on
nothing. -/
theorem follows_repoBackup (repo : HedRepo) (env : Env) :
  Follows backupProtocol (repoBackup true repo env 0)
    (fun φ ret => (ret = 0 ∧ φ = .copied env) ∨ (ret ≠ 0 ∧ φ = .free)) .free
  := by
  rw [repoBackup, if_pos ⟨rfl, rfl⟩]
  use rfl
  rintro (e | _)
  · exact Or.inr ⟨e.ne_zero, rfl⟩
  · use rfl
    rintro (e | _)
    · use trivial
      intro _
      exact Or.inr ⟨e.ne_zero, rfl⟩
    · use trivial
      intro _
      exact Or.inl ⟨rfl, rfl⟩

/-- A start makes the backup and begins the transaction. -/
theorem follows_hedRepoStart (repo : HedRepo) :
  Follows backupProtocol (hedRepoStart true repo)
    (fun φ r => φ.Idle ∧ (r.1 = 0 → ∃ txn, r.2.txn = some txn ∧ φ = .held txn.content)) .free
  := by
  rw [hedRepoStart, follows_demand_bind]
  intro env _
  rw [follows_require_bind]
  intro _
  simp only [rdonly_flag]
  apply follows_bind_of _ (follows_repoBackup repo env)
  rintro φ ret (⟨rfl, rfl⟩ | ⟨hret, rfl⟩)
  · use rfl
    rintro (e | txn)
    · use Or.inl rfl
      intro h
      apply (e.ne_zero h).elim
    · use Or.inr ⟨txn.content, rfl⟩
      intro _
      exact ⟨txn, rfl, rfl⟩
  · rw [if_pos hret]
    use Or.inl rfl
    intro h
    apply (hret h).elim

theorem follows_repoOpen (repo : HedRepo) (flags : Flags) :
  Follows backupProtocol (repoOpen true repo flags) Idles .free
  := by
  have hfree : Phase.free.Idle := Or.inl rfl
  rw [repoOpen, follows_require_bind]
  intro _
  rw [follows_require_bind]
  intro _
  simp only [rdonly_flag]
  apply follows_quiet_bind (quiet_ask (c := .mdbEnvCreate) trivial)
  rintro (e | env)
  · apply hfree
  · apply follows_quiet_bind (quiet_ask (c := .mdbEnvSetMaxdbs env (repo.nb + 1)) trivial)
    intro ret
    split_ifs with hret
    · apply follows_of_quiet (quiet_repoOpenError _ _) hfree
    · use rfl
      rintro (e | env')
      · apply follows_of_quiet (quiet_repoOpenError _ _) hfree
      · apply follows_bind_of _ (follows_hedRepoStart _)
        rintro φ ret' ⟨hφ, -⟩
        split_ifs with hret'
        · apply follows_of_quiet (quiet_repoOpenError _ _) hφ
        · apply follows_quiet_bind (quiet_repoSetup _ _)
          intro ret''
          split_ifs with hret''
          · apply follows_of_quiet (quiet_repoOpenError _ _) hφ
          · apply follows_hedRepoCommit _ hφ

theorem follows_hedRepoOpen (table : List Bytes) (flags : Flags) (mode : ℕ) :
  Follows backupProtocol (hedRepoOpen true table flags mode) Idles .free
  := by
  have hfree : Phase.free.Idle := Or.inl rfl
  rw [hedRepoOpen, follows_require_bind]
  intro _
  rw [follows_require_bind]
  intro _
  rw [follows_require_bind]
  intro _
  apply follows_quiet_bind (quiet_ask (c := .malloc) trivial)
  intro backup
  split_ifs with hbackup
  · apply hfree
  · apply follows_quiet_bind (quiet_ask (c := .strollLvstrInitCede .backup) trivial)
    intro ret
    split_ifs with hret
    · apply follows_quiet_bind (quiet_ask (c := .strollLvstrFini .backup) trivial)
      intro _
      apply hfree
    · apply follows_quiet_bind (quiet_ask (c := .strollLvstrInitDup .path) trivial)
      intro ret'
      split_ifs with hret'
      · apply follows_quiet_bind (quiet_ask (c := .strollLvstrFini .backup) trivial)
        intro _
        apply hfree
      · apply follows_bind_of _ (follows_repoOpen _ flags)
        intro φ ret'' hφ
        split_ifs with hret''
        · apply follows_quiet_bind (quiet_ask (c := .strollLvstrFini .path) trivial)
          intro _
          apply follows_quiet_bind (quiet_ask (c := .strollLvstrFini .backup) trivial)
          intro _
          apply hφ
        · apply hφ

theorem follows_hedRepoClose (repo : HedRepo) :
  Follows backupProtocol (hedRepoClose repo) Idles .free
  := by
  have hfree : Phase.free.Idle := Or.inl rfl
  rw [hedRepoClose]
  cases repo.env with
  | none => apply hfree
  | some env =>
      apply follows_quiet_bind (quiet_repoClose repo)
      intro repo'
      split_ifs with hrdwr
      · use rfl
        intro _
        apply follows_quiet_bind (quiet_ask (c := .strollLvstrFini .path) trivial)
        intro _
        apply follows_quiet_bind (quiet_ask (c := .strollLvstrFini .backup) trivial)
        intro _
        apply hfree
      · apply follows_quiet_bind (quiet_ask (c := .strollLvstrFini .path) trivial)
        intro _
        apply follows_quiet_bind (quiet_ask (c := .strollLvstrFini .backup) trivial)
        intro _
        apply hfree

theorem follows_hedRepoReload (repo : HedRepo) :
  Follows backupProtocol (hedRepoReload true repo) Idles .free
  := by
  rw [hedRepoReload, follows_demand_bind]
  intro env _
  rw [follows_require_bind]
  intro _
  apply follows_quiet_bind (quiet_repoClose repo)
  intro repo'
  apply follows_repoOpen

theorem follows_hedRepoRollback (repo : HedRepo) :
  Follows backupProtocol (hedRepoRollback repo) Idles .free
  := by
  rw [hedRepoRollback, follows_demand_bind]
  intro env _
  rw [follows_require_bind]
  intro _
  apply follows_quiet_bind (quiet_repoClose repo)
  intro repo'
  use rfl
  intro _
  apply follows_repoOpen

/-- A function that is not `hed_repo_start` returns what its program ends with. -/
theorem follows_returns {op : Op} {α : Type} {p : Repo α} {f : α → Result × HedRepo}
    {φ : Phase} (hop : op ≠ .hedRepoStart) (h : Follows backupProtocol p Idles φ) :
  Follows backupProtocol (do
      let r ← p
      pure (f r)) (Returns op) φ
  := by
  apply follows_bind_of _ h
  intro φ' a hφ'
  use hφ'
  intro hop'
  apply (hop hop').elim

/-- A function that works on records leaves the phase. -/
theorem follows_records {op : Op} {α : Type} {p : Repo α} {f : α → Result × HedRepo}
    {φ : Phase} (hop : op ≠ .hedRepoStart) (hφ : φ.Idle) (hp : p.Calls Call.OnRecords) :
  Follows backupProtocol (do
      let r ← p
      pure (f r)) (Returns op) φ
  := follows_returns hop (follows_of_quiet (hp.mono fun _ => Call.OnRecords.quiet) hφ)

/-- Every function of `repo.h` follows the protocol, whatever other processes do. -/
theorem follows_run (op : Op) (repo : HedRepo) {φ : Phase} (hφ : φ.Idle) :
  Follows backupProtocol (op.run true repo) (Returns op) (op.enter φ)
  := by
  cases op with
  | hedRepoOpen table flags mode =>
      apply follows_returns (by simp) (follows_hedRepoOpen table flags mode)
  | hedRepoClose => apply follows_returns (by simp) (follows_hedRepoClose repo)
  | hedRepoReload => apply follows_returns (by simp) (follows_hedRepoReload repo)
  | hedRepoStart =>
      apply follows_bind_of _ (follows_hedRepoStart repo)
      rintro φ' ⟨ret, repo'⟩ ⟨hφ', hret⟩
      use hφ'
      rintro - ⟨⟩
      apply hret rfl
  | hedRepoCommit => apply follows_returns (by simp) (follows_hedRepoCommit repo hφ)
  | hedRepoAbort =>
      apply follows_returns (by simp) (follows_of_quiet (quiet_hedRepoAbort repo) hφ)
  | hedRepoRollback =>
      rw [Op.run, follows_require_bind]
      intro _
      apply follows_returns (by simp) (follows_hedRepoRollback repo)
  | hedRepoGet table key => apply follows_records (by simp) hφ (calls_hedRepoGet repo table key)
  | hedRepoUpdate table key value =>
      apply follows_records (by simp) hφ (calls_hedRepoUpdate repo table key value)
  | hedRepoDel table key => apply follows_records (by simp) hφ (calls_hedRepoDel repo table key)
  | hedRepoCount table => apply follows_records (by simp) hφ (calls_hedRepoCount repo table)
  | hedRepoNextSeq table => apply follows_records (by simp) hφ (calls_hedRepoNextSeq repo table)
  | hedRepoGetVersion =>
      apply follows_records (by simp) hφ (calls_hedRepoGet repo hedTable versionKey)
  | hedRepoSetVersion value =>
      apply follows_records (by simp) hφ (calls_hedRepoUpdate repo hedTable versionKey value)

/-! ### The backup -/

section Backup

variable {ι : Type}

/-- The backup is as far as the process `a` is with it. -/
def Backs (a : ι) (φ : Phase) (s : Shared ι) : Prop :=
  match φ with
  | .free => True
  | .created => s.backup = some (s.fd a)
  | .copied env => ∃ c, s.backupFile = some (.full c) ∧ s.content (s.mapped a env.id) = some c
  | .held c => s.backupFile = some (.full c)

/-- The files the process `a` relies on: from its copy on the backup, and until its
transaction begins its data file, too. -/
def Phase.Watches (φ : Phase) (a : ι) (s : Shared ι) (i : Inode) : Prop :=
  match φ with
  | .free => False
  | .created => False
  | .copied env => s.backup = some i ∨ s.mapped a env.id = i
  | .held _ => s.backup = some i

theorem Backs.of_eq {a : ι} {φ : Phase} {s s' : Shared ι} (h : Backs a φ s)
    (hfiles : s'.files = s.files) (hbackup : s'.backup = s.backup)
    (hmapped : s'.mapped = s.mapped) (hfd : s'.fd = s.fd) :
  Backs a φ s'
  := by
  cases φ with
  | free => trivial
  | created =>
      rw [Backs, hbackup, hfd]
      apply h
  | copied env =>
      rw [Backs, Shared.backupFile, Shared.content, hbackup, hmapped, hfiles]
      apply h
  | held c =>
      rw [Backs, Shared.backupFile, hbackup, hfiles]
      apply h

/-- A call of the process `p` spares the backup of the process `a`: it writes nothing new to
a file that `a` relies on, and it neither moves nor removes the backup once `a` has created
it. -/
structure Spares (a : ι) (φ : Phase) (p : ι) (c : Call) (f : Fate) (s : Shared ι) : Prop where
  file : ∀ i file, s.writes p f c = some (i, file) → φ.Watches a s i → s.files i = file
  name : f = .ok → c = .rename ∨ c = .remove → φ = .free

/-- Committing spares a backup that is held: no transaction works on it. -/
theorem spares_commit {a p : ι} {f : Fate} {s : Shared ι} (hapart : s.Apart) (c' : Content)
    (txn : Txn) :
  Spares a (.held c') p (.mdbTxnCommit txn) f s
  := by
  constructor
  · intro i file hwrites hi
    rw [Shared.writes] at hwrites
    split_ifs at hwrites with hok
    obtain ⟨hmapped, -⟩ := Prod.mk.inj (Option.some.inj hwrites)
    apply (hapart.mapped_ne i hi p txn.id hmapped).elim
  · rintro - (hc | hc)
    · cases hc
    · cases hc

theorem Backs.copy {a : ι} {s : Shared ι} (hapart : s.Apart) {env : Env} {c : Content}
    (hbackup : s.backup = some (s.fd a)) (hc : s.content (s.mapped a env.id) = some c) :
  Backs a (.copied env) (s.write (s.fd a) (.full c))
  := by
  have hne := hapart.mapped_ne _ hbackup a env.id
  use c
  constructor
  · simp [Shared.backupFile, Shared.write, hbackup]
  · rw [← hc]
    simp [Shared.content, Shared.write, hne]

variable [DecidableEq ι]

section Change

variable {a p : ι} {φ : Phase} {c : Call} {f : Fate} {s s' : Shared ι}

theorem Spares.backup (hspares : Spares a φ p c f s) (hchange : Shared.Change p f c s s')
    (hφ : φ ≠ .free) {i : Inode} (hi : s.backup = some i) :
  s'.backup = some i
  := by
  apply hchange.backup hi
  intro hok
  constructor
  · intro hc
    apply hφ (hspares.name hok (Or.inl hc))
  · intro hc
    apply hφ (hspares.name hok (Or.inr hc))

/-- The content of a file that `a` relies on stays. -/
theorem Spares.content (hspares : Spares a φ p c f s) (hchange : Shared.Change p f c s s')
    {i : Inode} (hi : i < s.fresh) (hwatches : φ.Watches a s i) :
  s'.content i = s.content i
  := by
  rw [Shared.content, Shared.content]
  rcases hchange.files hi with hfile | hwrites | ⟨-, hblank, hfull⟩
  · rw [hfile]
  · rw [hspares.file i _ hwrites hwatches]
  · rw [hblank, hfull]
    rfl

/-- The backup that `a` relies on stays. -/
theorem Spares.backupFile (hspares : Spares a φ p c f s) (hapart : s.Apart)
    (hchange : Shared.Change p f c s s') (hφ : φ ≠ .free) {c' : Content}
    (hwatches : ∀ i, s.backup = some i → φ.Watches a s i)
    (h : s.backupFile = some (.full c')) :
  s'.backupFile = some (.full c')
  := by
  obtain ⟨i, hi, hfull⟩ := Option.map_eq_some_iff.mp h
  have hfile : s'.files i = s.files i := by
    rcases hchange.files (hapart.backup_lt i hi) with hfile | hwrites | ⟨hdata, -⟩
    · apply hfile
    · apply (hspares.file i _ hwrites (hwatches i hi)).symm
    · apply (hapart.data_ne i hi hdata).elim
  rw [Shared.backupFile, hspares.backup hchange hφ hi, Option.map_some, hfile, hfull]

/-- A call of another process that spares the backup of `a` keeps it. -/
theorem Backs.others (h : Backs a φ s) (hapart : s.Apart) (hp : p ≠ a)
    (hspares : Spares a φ p c f s) (hchange : Shared.Change p f c s s') :
  Backs a φ s'
  := by
  obtain ⟨hfd, hmapped⟩ := hchange.others hp.symm
  cases φ with
  | free => trivial
  | created =>
      rw [Backs, hfd]
      apply hspares.backup hchange (by simp) h
  | copied env =>
      obtain ⟨c', hfull, hcontent⟩ := h
      use c'
      constructor
      · apply hspares.backupFile hapart hchange (by simp) (fun i hi => Or.inl hi) hfull
      · rw [hmapped, ← hcontent]
        apply hspares.content hchange (hapart.mapped_lt a env.id) (Or.inr rfl)
  | held c' => apply hspares.backupFile hapart hchange (by simp) (fun i hi => hi) h

end Change

theorem Backs.create (a : ι) (s : Shared ι) (flags : Flags) :
  Backs a .created (s.create a flags)
  := by
  rw [Backs, Shared.create]
  split
  · simp only [Function.update_self]
  · rename_i i hi
    simp only [Function.update_self]
    exact hi

/-- The calls the protocol allows the process `a` keep its backup as far as it is with it. -/
theorem Backs.own {a : ι} {φ : Phase} {c : Call} {f : Fate} {s : Shared ι} (h : Backs a φ s)
    (hapart : s.Apart) (hc : backupProtocol.allows φ c) :
  Backs a (backupProtocol.next φ c (Shared.handle a f c s).1) (Shared.handle a f c s).2
  := by
  by_cases hquiet : c.Quiet
  · obtain ⟨n, writer, hs⟩ := Shared.handle_quiet (p := a) (f := f) (s := s) hquiet
    rw [(hquiet.unnoticed φ).2, hs]
    exact h.of_eq rfl rfl rfl rfl
  cases c with
  | ufileNew flags mode =>
      cases f with
      | ok => apply Backs.create
      | fail e left => trivial
  | rename =>
      obtain rfl : φ = .free := hc
      trivial
  | remove =>
      obtain rfl : φ = .free := hc
      trivial
  | mdbEnvOpen env flags mode =>
      obtain rfl : φ = .free := hc
      trivial
  | mdbEnvCopyfd env =>
      obtain rfl : φ = .created := hc
      have hcopy : Shared.handle a f (.mdbEnvCopyfd env) s = s.copy a env f := rfl
      rw [hcopy, Shared.copy.eq_def]
      cases f with
      | ok =>
          rw [Shared.copied]
          cases hcontent : s.content (s.mapped a env.id) with
          | none => trivial
          | some c => apply Backs.copy hapart h hcontent
      | fail e left => trivial
  | mdbTxnBegin env flags =>
      obtain rfl : φ = .copied env := hc
      obtain ⟨c, hfull, hcontent⟩ := h
      cases f with
      | ok =>
          have hbegin : Shared.handle a .ok (.mdbTxnBegin env flags) s
              = s.txnBegin a env flags := rfl
          rw [hbegin, Shared.txnBegin, hcontent]
          split_ifs with hro
          · trivial
          · apply hfull
          · apply hfull
      | fail e left => trivial
  | mdbTxnCommit txn =>
      rcases hc with rfl | ⟨c, rfl⟩
      · trivial
      · have hchange := Shared.change_handle a f (.mdbTxnCommit txn) s
        apply (spares_commit (a := a) hapart c txn).backupFile hapart hchange (by simp)
          (fun i hi => hi) h
  | _ => apply (hquiet trivial).elim

/-! ### Interleavings -/

/-- Processes that call the functions of `repo.h`. -/
def processes (ι : Type) [DecidableEq ι] :
    Interleaving calls ι Fate (Shared ι) Op Result HedRepo where
  program op repo := op.run true repo
  handle := Shared.handle
  waits _ := Shared.waits

/-- The steps of a run of processes. -/
abbrev ProcessMove (ι : Type) := Interleaving.Move calls ι Fate (Shared ι) Op Result HedRepo

/-- The state of a run of processes. -/
abbrev Processes (ι : Type) := Interleaving.State calls ι (Shared ι) Op Result HedRepo

/-- How far the process `a` is with its backup after the steps of a run. -/
def phase (a : ι) (ms : List (ProcessMove ι)) : Phase :=
  Interleaving.phase backupProtocol Op.enter .free a ms

/-- The processes have opened nothing yet, and the backup is a file of its own. -/
structure Fresh (s : Processes ι) : Prop where
  rest : ∀ p, s.process p = .rest .unset
  apart : s.world.Apart

/-- The other processes spare the backup of `a` in every step of a run. -/
def SparesAlong (a : ι) (ms : List (ProcessMove ι)) : Prop :=
  Along (fun past m => Interleaving.Obeys (Spares a) a (phase a past) m) ms

/-- The other processes write to files, move them and remove them only while `a` has no backup
to rely on. -/
def writesWhenFree (a : ι) (past : List (ProcessMove ι)) (m : ProcessMove ι) : Bool :=
  match m with
  | .ask p c f before _ =>
      p = a || phase a past = .free
        || ((before.writes p f c).isNone && (f ≠ .ok || (c ≠ .rename && c ≠ .remove)))
  | _ => true

/-- It is enough for the others to leave the files alone as long as `a` relies on its backup. -/
theorem sparesAlong_of_free {a : ι} {ms : List (ProcessMove ι)}
    (h : Along (fun past m => writesWhenFree a past m = true) ms) :
  SparesAlong a ms
  := by
  have hobeys : ∀ past m, writesWhenFree a past m = true →
      Interleaving.Obeys (Spares a) a (phase a past) m := by
    intro past m hm
    cases m with
    | call p op => trivial
    | ret p op result own => trivial
    | ask p c f before reply =>
        intro hp
        simp only [writesWhenFree, hp, decide_false, Bool.false_or, Bool.or_eq_true,
          Bool.and_eq_true, decide_eq_true_eq, Option.isNone_iff_eq_none] at hm
        rcases hm with hfree | ⟨hnone, hname⟩
        · rw [hfree]
          constructor
          · rintro i file - ⟨⟩
          · intro _ _
            rfl
        · constructor
          · rintro i file hwrites
            rw [hnone] at hwrites
            cases hwrites
          · rintro hok hc
            rcases hname with hfails | ⟨hrename, hremove⟩
            · apply (hfails hok).elim
            · apply (hc.elim hrename hremove).elim
  exact h.mono hobeys

theorem relies (a : ι) :
  Interleaving.Relies (processes ι) a backupProtocol Op.enter Phase.Idle Returns
    (fun φ s => s.Apart ∧ Backs a φ s) (Spares a)
  := by
  constructor
  · intro op repo φ hφ
    apply follows_run op repo hφ
  · intro op φ r hr
    apply hr.1
  · rintro op φ s ⟨hapart, hbacks⟩
    use hapart
    rw [Op.enter]
    split_ifs with hop
    · trivial
    · apply hbacks
  · rintro φ c f s ⟨hapart, hbacks⟩ hc
    use hapart.change (Shared.change_handle a f c s)
    apply hbacks.own hapart hc
  · rintro φ p c f s hp ⟨hapart, hbacks⟩ hspares
    have hchange := Shared.change_handle p f c s
    use hapart.change hchange
    apply hbacks.others hapart hp hspares hchange

section Run

variable {a : ι} {s s' : Processes ι} {ms : List (ProcessMove ι)}

/-- The backup is a file of its own in every run. -/
theorem run_apart (hapart : s.world.Apart) (run : Run (processes ι).Steps s ms s') :
  s'.world.Apart
  := by
  induction run with
  | nil => apply hapart
  | snoc run last ih =>
      cases last.stepped with
      | call rest => apply ih
      | ask busy waits => apply ih.change (Shared.change_handle _ _ _ _)
      | ret done => apply ih

/-- In every interleaving in which the others spare the backup of `a`, from a state in which it
has none to rely on, the backup is as far as `a` is with it, and `a` keeps to the protocol. -/
theorem run_backs
    (hkeeps : Interleaving.Keeps backupProtocol Phase.Idle Returns .free (s.process a))
    (hapart : s.world.Apart) (run : Run (processes ι).Steps s ms s')
    (hspares : SparesAlong a ms) :
  Backs a (phase a ms) s'.world
    ∧ Along (fun past m => Interleaving.Shows backupProtocol Returns a (phase a past) m) ms
  := by
  obtain ⟨⟨-, hbacks⟩, hshows⟩ := Interleaving.run_protocol (relies a) run hkeeps
    ⟨hapart, trivial⟩ hspares
  exact ⟨hbacks, hshows⟩

/-- A rollback point lasts until the process calls a function that ends it. -/
theorem follow_held {c : Content} {m : ProcessMove ι}
    (hshows : Interleaving.Shows backupProtocol Returns a (.held c) m)
    (hm : ∀ op, m = .call a op → op.endsPoint = false) :
  Interleaving.follow backupProtocol Op.enter a (.held c) m = .held c
  := by
  cases m with
  | call p op =>
      rw [Interleaving.follow]
      split_ifs with hp
      · obtain rfl := hp
        rw [Op.enter, hm op rfl, if_neg Bool.false_ne_true]
      · rfl
  | ask p call f before reply =>
      rw [Interleaving.follow]
      split_ifs with hp
      · have hallows := hshows hp
        by_cases hquiet : call.Quiet
        · apply (hquiet.unnoticed _).2
        cases call with
        | ufileNew flags mode => cases hallows
        | rename => cases hallows
        | remove => cases hallows
        | mdbEnvOpen env flags mode => cases hallows
        | mdbEnvCopyfd env => cases hallows
        | mdbTxnBegin env flags => cases hallows
        | mdbTxnCommit txn => rfl
        | _ => apply (hquiet trivial).elim
      · rfl
  | ret p op result own => rfl

/-- After a start that returned zero, and until the process calls a function that ends it,
the rollback point is what its transaction began from. -/
theorem phase_held {repo : HedRepo} {before after : List (ProcessMove ι)}
    (hshows : Along (fun past m => Interleaving.Shows backupProtocol Returns a (phase a past) m)
      (before ++ .ret a .hedRepoStart (.code 0) repo :: after))
    (hafter : ∀ op, .call a op ∈ after → op.endsPoint = false) :
  ∃ txn, repo.txn = some txn
    ∧ phase a (before ++ .ret a .hedRepoStart (.code 0) repo :: after) = .held txn.content
  := by
  induction after using List.reverseRecOn with
  | nil =>
      obtain ⟨-, hlast⟩ := along_snoc.mp hshows
      obtain ⟨txn, htxn, hphase⟩ := (hlast rfl).2 rfl rfl
      use txn, htxn
      rw [phase, Interleaving.phase_snoc]
      apply hphase
  | append_singleton after m ih =>
      rw [← List.cons_append, ← List.append_assoc] at hshows ⊢
      obtain ⟨hshows', hlast⟩ := along_snoc.mp hshows
      obtain ⟨txn, htxn, hphase⟩ := ih hshows'
        (fun op hop => hafter op (List.mem_append_left _ hop))
      use txn, htxn
      rw [hphase] at hlast
      rw [phase, Interleaving.phase_snoc, ← phase, hphase]
      apply follow_held hlast
      rintro op rfl
      apply hafter op (by simp)

/-- In every interleaving in which the others spare the backup of `a` since it called a start:
from the moment the start returns zero, and until `a` calls a function that starts, opens or
closes, the backup file is the content its transaction began from. -/
theorem rollback_point_survives {repo : HedRepo} {before after : List (ProcessMove ι)}
    (hfresh : Fresh s)
    (run : Run (processes ι).Steps s
      (before ++ .ret a .hedRepoStart (.code 0) repo :: after) s')
    (hafter : ∀ op, .call a op ∈ after → op.endsPoint = false)
    (hspares : SparesAlong a
      (Interleaving.sinceCall a before ++ .ret a .hedRepoStart (.code 0) repo :: after)) :
  ∃ txn, repo.txn = some txn ∧ s'.world.backupFile = some (.full txn.content)
  := by
  obtain ⟨s₁, hbefore, hfrom⟩ := Run.append_iff.mp run
  obtain ⟨s₂, hret, -⟩ := Run.cons_iff.mp hfrom
  obtain ⟨earlier, hcalled⟩ := Interleaving.called_of_busy hbefore (hfresh.rest a)
    (Interleaving.process_of_ret hret)
  generalize Interleaving.sinceCall a before = since at hspares hcalled
  obtain rfl := hcalled
  rw [List.append_assoc, List.cons_append] at run
  obtain ⟨s₃, hearlier, hfrom'⟩ := Run.append_iff.mp run
  obtain ⟨s₄, hcall, hsince⟩ := Run.cons_iff.mp hfrom'
  obtain ⟨own, -, hbusy, hworld⟩ := Interleaving.process_of_call hcall
  have hapart : s₄.world.Apart := by
    rw [hworld]
    apply run_apart hfresh.apart hearlier
  have hkeeps : Interleaving.Keeps backupProtocol Phase.Idle Returns .free (s₄.process a) := by
    rw [hbusy]
    exact follows_run .hedRepoStart own (Or.inl rfl)
  obtain ⟨hbacks, hshows⟩ := run_backs hkeeps hapart hsince hspares
  obtain ⟨txn, htxn, hphase⟩ := phase_held hshows hafter
  use txn, htxn
  rw [hphase] at hbacks
  apply hbacks

end Run

end Backup

/-! ### A race -/

/-- Two processes. -/
inductive Side where
  | a
  | b
  deriving DecidableEq

/-- The turns of a call that makes `n` external calls, none of which fails. -/
def turns (p : Side) (op : Op) (n : ℕ) : List (Interleaving.Turn Side Fate Op) :=
  .call p op :: List.replicate n (.ask p .ok) ++ [.ret p]

/-- The process `a` copies the environment; then `b` writes a record and commits it, and only
then `a` begins its transaction. -/
def race : List (Interleaving.Turn Side Fate Op) :=
  turns .a (.hedRepoOpen [[0x75]] (O_RDWR ||| O_CREAT ||| O_TRUNC) 0) 17
    ++ turns .b (.hedRepoOpen [[0x75]] O_RDWR 0) 13
    ++ [.call .a .hedRepoStart, .ask .a .ok, .ask .a .ok, .ask .a .ok]
    ++ turns .b .hedRepoStart 4
    ++ turns .b (.hedRepoUpdate [0x75] [1] [2]) 2
    ++ turns .b .hedRepoCommit 1
    ++ [.ask .a .ok, .ret .a]

/-- The turns of a start that fails at once. -/
def startFails (p : Side) : List (Interleaving.Turn Side Fate Op) :=
  [.call p .hedRepoStart, .ask p (.fail EACCES .blank), .ret p]

/-- The process `b` has begun a transaction when `a` starts; before `a` copies the environment
`b` changes a record and aborts, and before `a` begins its own transaction a start of `b`
fails. -/
def turnsUntil : List (Interleaving.Turn Side Fate Op) :=
  turns .a (.hedRepoOpen [[0x75]] (O_RDWR ||| O_CREAT ||| O_TRUNC) 0) 17
    ++ turns .b (.hedRepoOpen [[0x75]] O_RDWR 0) 13
    ++ turns .b .hedRepoStart 4
    ++ [.call .a .hedRepoStart, .ask .a .ok]
    ++ turns .b (.hedRepoUpdate [0x75] [1] [2]) 2
    ++ turns .b .hedRepoAbort 1
    ++ [.ask .a .ok, .ask .a .ok]
    ++ startFails .b
    ++ [.ask .a .ok, .ret .a]

/-- Then `a` changes a record, and commits, and in between another start of `b` fails. -/
def turnsAfter : List (Interleaving.Turn Side Fate Op) :=
  turns .a (.hedRepoUpdate [0x75] [3] [4]) 2
    ++ startFails .b
    ++ turns .a .hedRepoCommit 1

/-- Two processes that have opened nothing, and no files. -/
def freshSides : Processes Side where
  process _ := .rest .unset
  world := ⟨fun _ => .blank, none, none, 1, fun _ _ => 0, fun _ => 0, none, 0⟩

theorem fresh_freshSides :
  Fresh freshSides
  := by
  constructor
  · intro p
    rfl
  · constructor
    · rintro i ⟨⟩
    · rintro i ⟨⟩
    · intro p id
      apply Nat.one_pos
    · rintro i ⟨⟩
    · rintro i ⟨⟩

/-- The steps of a schedule that can be taken, and where they lead. -/
def played (schedule : List (Interleaving.Turn Side Fate Op))
    (h : ((processes Side).play freshSides schedule).isSome = true) :
    List (ProcessMove Side) × Processes Side :=
  ((processes Side).play freshSides schedule).get h

theorem run_played (schedule : List (Interleaving.Turn Side Fate Op))
    (h : ((processes Side).play freshSides schedule).isSome = true) :
  Run (processes Side).Steps freshSides (played schedule h).1 (played schedule h).2
  := by
  have hplay : (processes Side).play freshSides schedule = some (played schedule h) :=
    (Option.some_get h).symm
  apply Interleaving.run_play _ hplay

/-- The steps of both parts, and where they lead. -/
def taken : List (ProcessMove Side) × Processes Side :=
  played (turnsUntil ++ turnsAfter) (by decide +kernel)

/-- The repository a process has after the last step of a run, if it returns. -/
def lastRepo (ms : List (ProcessMove Side)) : HedRepo :=
  match ms.getLast? with
  | some (.ret _ _ _ repo) => repo
  | _ => .unset

/-- The last step of a run is a start of `a` that returns zero. -/
def startEnds (ms : List (ProcessMove Side)) : Bool :=
  match ms.getLast? with
  | some (.ret .a .hedRepoStart (.code 0) _) => true
  | _ => false

theorem eq_of_startEnds {ms : List (ProcessMove Side)} (h : startEnds ms = true) :
  ms = ms.dropLast ++ [.ret .a .hedRepoStart (.code 0) (lastRepo ms)]
  := by
  rw [startEnds] at h
  split at h
  · rename_i repo hlast
    rw [lastRepo, hlast]
    apply (List.dropLast_append_getLast? _ hlast).symm
  · cases h

/-- The step, if it is a call of the process, ends no rollback point. -/
def keepsPoint (side : Side) (m : ProcessMove Side) : Bool :=
  match m with
  | .call p op => p ≠ side || !op.endsPoint
  | _ => true

/-- The steps of `taken` up to the return of the start of `a`. -/
def takenUntil : List (ProcessMove Side) := taken.1.take turnsUntil.length

/-- The steps of `taken` since the call of the start of `a`. -/
def takenSince : List (ProcessMove Side) :=
  Interleaving.sinceCall .a takenUntil.dropLast
    ++ .ret .a .hedRepoStart (.code 0) (lastRepo takenUntil) :: taken.1.drop turnsUntil.length

theorem rollback_point_survives_taken :
  ∃ txn, (lastRepo takenUntil).txn = some txn
    ∧ taken.2.world.backupFile = some (.full txn.content)
  := by
  have hends : startEnds takenUntil = true := by decide +kernel
  have hsplit : taken.1 = takenUntil.dropLast
      ++ .ret .a .hedRepoStart (.code 0) (lastRepo takenUntil)
        :: taken.1.drop turnsUntil.length := by
    rw [List.append_cons, ← eq_of_startEnds hends]
    apply (List.take_append_drop _ _).symm
  have hfree : ∀ k (hk : k < takenSince.length),
      writesWhenFree .a (takenSince.take k) takenSince[k] = true := by decide +kernel
  have hspares := sparesAlong_of_free (along_iff_forall_lt.mpr hfree)
  have hafter : (taken.1.drop turnsUntil.length).all (keepsPoint .a) = true := by
    decide +kernel
  have hrun : Run (processes Side).Steps freshSides taken.1 taken.2 := run_played _ _
  rw [hsplit] at hrun
  apply rollback_point_survives fresh_freshSides hrun _ hspares
  intro op hop
  simpa [keepsPoint] using List.all_eq_true.mp hafter _ hop

/-- The steps of the race, and where they lead. -/
def raced : List (ProcessMove Side) × Processes Side := played race (by decide +kernel)

theorem run_raced :
  Run (processes Side).Steps freshSides raced.1 raced.2
  := run_played _ _

/-- The process opens the repository for writing, whenever it opens it. -/
def opensRdwr (side : Side) (m : ProcessMove Side) : Bool :=
  match m with
  | .call p (.hedRepoOpen _ flags _) => p ≠ side || flags &&& O_ACCMODE = O_RDWR
  | _ => true

/-- The copy is older than the content the transaction begins from, since the writer lock is
taken only after it. -/
theorem copy_before_lock :
  ¬ ∀ (s s' : Processes Side) (repo : HedRepo) (before after : List (ProcessMove Side)),
      Fresh s → Run (processes Side).Steps s
        (before ++ .ret .a .hedRepoStart (.code 0) repo :: after) s' →
      (∀ m ∈ before, opensRdwr .a m = true) →
      (∀ op, .call .a op ∈ after → op.endsPoint = false) →
      ∃ txn, repo.txn = some txn ∧ s'.world.backupFile = some (.full txn.content)
  := by
  intro hsurvives
  have hends : startEnds raced.1 = true := by decide +kernel
  have hlast := eq_of_startEnds hends
  have hrun := run_raced
  rw [hlast] at hrun
  obtain ⟨txn, htxn, hbackup⟩ := hsurvives _ _ _ _ _ fresh_freshSides hrun
    (by decide +kernel) (by rintro op ⟨⟩)
  have hne : ((lastRepo raced.1).txn.map (fun txn => DataFile.full txn.content))
      ≠ raced.2.world.backupFile := by decide +kernel
  apply hne
  rw [htxn, hbackup]
  rfl

end Hed
