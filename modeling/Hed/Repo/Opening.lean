import Hed.Repo.Transaction

/-!
# Opening, closing and starting

What the functions that open and close the environment, and that begin and end
transactions, do to the repository and to the world.  `Opens` lists the ways `repo_open`
can end: it fails and has released what it acquired; it fails in its final commit; or it
succeeds and has published the content `Content.setup` makes.
-/

namespace Hed

open Program

/-! ### Flags -/

/-- `O_RDONLY` is zero, so the code never asks LMDB for anything read-only. -/
theorem rdonly_flag (flags : Flags) :
  (if flags &&& O_RDONLY ≠ 0 then MDB_RDONLY else 0) = 0
  := by
  simp [O_RDONLY]

/-! ### Commits and backups in traces -/

/-- The trace gets as far as committing a transaction. -/
def Commits (t : List (Event calls Fate)) : Prop := ∃ e ∈ t, ∃ txn, e.call = .mdbTxnCommit txn

@[simp]
theorem commits_append {t t' : List (Event calls Fate)} :
  Commits (t ++ t') ↔ Commits t ∨ Commits t'
  := by
  simp only [Commits, List.mem_append, or_and_right, exists_or]

@[simp]
theorem commits_cons {e : Event calls Fate} {t : List (Event calls Fate)} :
  Commits (e :: t) ↔ (∃ txn, e.call = .mdbTxnCommit txn) ∨ Commits t
  := by
  simp only [Commits, List.mem_cons, or_and_right, exists_or, exists_eq_left]

@[simp]
theorem not_commits_nil :
  ¬ Commits []
  := by
  rintro ⟨e, ⟨⟩, -⟩

theorem not_commits_of_onRecords {t : List (Event calls Fate)}
    (h : ∀ e ∈ t, Call.OnRecords e.call) :
  ¬ Commits t
  := by
  rintro ⟨e, he, txn, htxn⟩
  have hrec := h e he
  rw [htxn] at hrec
  apply hrec

/-- The fates of the copies of the environment that a trace makes. -/
def copies (t : List (Event calls Fate)) : List Fate :=
  t.filterMap (fun e =>
    match e.call with
    | .mdbEnvCopyfd _ => some e.fate
    | _ => none)

@[simp]
theorem copies_nil :
  copies [] = []
  := rfl

@[simp]
theorem copies_append (t t' : List (Event calls Fate)) :
  copies (t ++ t') = copies t ++ copies t'
  := List.filterMap_append

theorem copies_of_onRecords {t : List (Event calls Fate)}
    (h : ∀ e ∈ t, Call.OnRecords e.call) :
  copies t = []
  := by
  apply List.filterMap_eq_nil_iff.mpr
  rintro ⟨c, f⟩ he
  have hrec := h _ he
  cases c with
  | mdbEnvCopyfd env => cases hrec
  | _ => rfl

/-- What the copies of a trace, if they copy the content `c`, make of the backup `b`. -/
def backupOf (c : Content) (b : Option DataFile) (t : List (Event calls Fate)) :
    Option DataFile :=
  match (copies t).getLast? with
  | none => b
  | some .ok => some (.full c)
  | some (.fail _ left) => some left

namespace World

/-- The world after a backup of the content `c`, which is made with `CONFIG_HED_REPO_3PC`
only. -/
def backedUp (w : World) (repo3pc : Bool) (c : Content) : World :=
  if repo3pc then { w with backup := some (.full c) } else w

@[simp]
theorem backedUp_data (w : World) (repo3pc : Bool) (c : Content) :
  (w.backedUp repo3pc c).data = w.data
  := by
  cases repo3pc with
  | false => rfl
  | true => rfl

@[simp]
theorem backedUp_content (w : World) (repo3pc : Bool) (c : Content) :
  (w.backedUp repo3pc c).content = w.content
  := congrArg DataFile.content (w.backedUp_data repo3pc c)

@[simp]
theorem backedUp_live (w : World) (repo3pc : Bool) (c : Content) :
  (w.backedUp repo3pc c).live = w.live
  := by
  cases repo3pc with
  | false => rfl
  | true => rfl

@[simp]
theorem backedUp_misuse (w : World) (repo3pc : Bool) (c : Content) :
  (w.backedUp repo3pc c).misuse = w.misuse
  := by
  cases repo3pc with
  | false => rfl
  | true => rfl

@[simp]
theorem backedUp_next (w : World) (repo3pc : Bool) (c : Content) :
  (w.backedUp repo3pc c).next = w.next
  := by
  cases repo3pc with
  | false => rfl
  | true => rfl

end World

/-! ### Starting a transaction -/

/-- The copies a successful start makes. -/
def madeBy (repo3pc : Bool) : List Fate := if repo3pc then [.ok] else []

section Start

variable (repo3pc : Bool) {repo : HedRepo} {env : Env} {w : World} {c : Content}
  (hc : w.content = some c)
include hc

/-- The backup is a copy of the committed content, unless a call is made to fail; then it is
what the copy left, or as it was when it could not be created. -/
theorem repoBackup_spec :
  wp handle (repoBackup repo3pc repo env 0)
    (fun t ret w' => ¬ Commits t ∧ (repo3pc = false → copies t = [])
      ∧ ((ret = 0 ∧ w' = w.backedUp repo3pc c ∧ Clean t ∧ copies t = madeBy repo3pc)
        ∨ (ret ≠ 0 ∧ w' = { w with backup := backupOf c w.backup t } ∧ ¬ Clean t)))
    w
  := by
  rw [repoBackup]
  cases repo3pc with
  | false =>
      use not_commits_nil
      constructor
      · intro _
        rfl
      · left
        exact ⟨rfl, rfl, clean_nil, rfl⟩
  | true =>
      rw [if_pos ⟨rfl, rfl⟩, wp_bind, wp_ufileNew]
      constructor
      · have hcreate : w.create (O_RDWR ||| O_TRUNC ||| O_CLOEXEC)
            = { w with backup := some .blank } := rfl
        have hcopy : World.copy { w with backup := some .blank }
            = (.ok (), { w with backup := some (.full c) }) := World.copy_of_content hc
        rw [hcreate, wp_bind, wp_mdbEnvCopyfd, hcopy]
        constructor
        · rw [wp_bind, wp_ufileClose]
          intro f
          use by simp, by simp
          left
          use rfl, rfl
          constructor
          · simp [failed, Call.fallible]
          · rfl
        · intro e left
          rw [wp_bind, wp_ufileClose]
          intro f
          use by simp, by simp
          right
          use e.ne_zero, rfl
          simp [failed, Call.fallible]
      · intro e left
        use by simp, by simp
        right
        use e.ne_zero, rfl
        simp [failed, Call.fallible]

/-- `hed_repo_start` begins a transaction on the committed content, or returns an error and
leaves everything but the backup as it was. -/
theorem hedRepoStart_spec (henv : repo.env = some env) (hwrite : env.flags &&& MDB_RDONLY = 0) :
  wp handle (hedRepoStart repo3pc repo)
    (fun t r w' => repo.txn = none ∧ ¬ Commits t ∧ (repo3pc = false → copies t = [])
      ∧ ((r = (0, { repo with txn := some ⟨w.next, false, c⟩ })
          ∧ w' = (w.backedUp repo3pc c).began ∧ Clean t ∧ copies t = madeBy repo3pc)
        ∨ (r.1 ≠ 0 ∧ r.2 = repo ∧ w' = { w with backup := backupOf c w.backup t } ∧ ¬ Clean t)))
    w
  := by
  rw [hedRepoStart, wp_demand_bind]
  intro env' henv'
  obtain rfl := Option.some.inj (henv.symm.trans henv')
  rw [wp_require_bind]
  intro htxn
  simp only [rdonly_flag]
  apply wp_bind_of handle (repoBackup_spec repo3pc hc)
  rintro t ret w' ⟨hcommits, h3pc, ⟨rfl, rfl, ht, hcopies⟩ | ⟨hret, rfl, ht⟩⟩
  · have hc' : (w.backedUp repo3pc c).content = some c := by
      rw [World.backedUp_content, hc]
    have hbegin : ∀ f, copies (t ++ ([⟨.mdbTxnBegin env 0, f⟩] ++ [])) = copies t := by
      intro f
      simp [copies]
    rw [if_neg (by simp), wp_bind, wp_mdbTxnBegin, World.txnBegin_writable hc' hwrite,
      World.backedUp_next]
    constructor
    · use htxn, by simp [hcommits], by rwa [hbegin]
      left
      use rfl, rfl
      constructor
      · simp [ht, failed]
      · rw [hbegin, hcopies]
    · intro e left
      use htxn, by simp [hcommits], by rwa [hbegin]
      right
      use e.ne_zero, rfl
      constructor
      · rw [backupOf, hbegin, hcopies]
        cases repo3pc with
        | false => rfl
        | true => rfl
      · simp [failed, Call.fallible]
  · rw [if_pos hret]
    use htxn, by simp [hcommits], by simpa using h3pc
    right
    use hret, rfl
    constructor
    · rw [List.append_nil]
    · simpa using ht

end Start

/-! ### Ending a transaction -/

/-- `hed_repo_commit` publishes the content of the transaction or leaves the committed
content, and in both cases the transaction is gone. -/
theorem hedRepoCommit_spec {repo : HedRepo} {txn : Txn} (htxn : repo.txn = some txn)
    (hro : txn.readonly = false) (w : World) :
  wp handle (hedRepoCommit repo)
    (fun t r w' => r.2 = { repo with txn := none } ∧ w'.live = (w.release (.txn txn.id)).live
      ∧ w'.misuse = (w.release (.txn txn.id)).misuse ∧ w'.backup = w.backup ∧ Commits t
      ∧ copies t = []
      ∧ ((r.1 = 0 ∧ w'.content = some txn.content ∧ Clean t)
        ∨ (r.1 ≠ 0 ∧ w'.data = w.data ∧ ¬ Clean t)))
    w
  := by
  rw [hedRepoCommit, wp_demand_bind]
  intro env _
  rw [wp_demand_bind]
  intro txn' htxn'
  obtain rfl := Option.some.inj (htxn.symm.trans htxn')
  rw [wp_bind, wp_mdbTxnCommit, World.publish, hro, if_neg Bool.false_ne_true]
  constructor
  · use rfl, rfl, rfl, World.release_backup _ _
    use by simp, rfl
    left
    use rfl, rfl
    simp [failed]
  · intro e left
    use rfl, rfl, rfl, World.release_backup _ _
    use by simp, rfl
    right
    use e.ne_zero, World.release_data _ _
    simp [failed, Call.fallible]

/-- `hed_repo_abort` drops the transaction. -/
theorem hedRepoAbort_spec {repo : HedRepo} {txn : Txn} (htxn : repo.txn = some txn)
    (w : World) :
  wp handle (hedRepoAbort repo)
    (fun t r w' => r = { repo with txn := none } ∧ w' = w.release (.txn txn.id) ∧ Clean t
      ∧ ¬ Commits t ∧ copies t = [])
    w
  := by
  rw [hedRepoAbort, wp_demand_bind]
  intro env _
  rw [wp_demand_bind]
  intro txn' htxn'
  obtain rfl := Option.some.inj (htxn.symm.trans htxn')
  rw [wp_bind, wp_mdbTxnAbort]
  intro f
  use rfl, rfl
  constructor
  · simp [failed, Call.fallible]
  · use by simp
    rfl

/-! ### Closing the environment -/

namespace HedRepo

/-- The handles a repository holds, the latest first. -/
def holds (repo : HedRepo) : List Resource :=
  (repo.txn.map (fun txn => Resource.txn txn.id)).toList
    ++ (repo.env.map (fun env => Resource.env env.id)).toList

/-- The repository without its handles. -/
def closed (repo : HedRepo) : HedRepo := { repo with env := none, txn := none }

theorem closed_of_none {repo : HedRepo} (henv : repo.env = none) (htxn : repo.txn = none) :
  repo.closed = repo
  := by
  obtain ⟨_, _, flags, mode, table, hflags⟩ := repo
  obtain rfl := henv
  obtain rfl := htxn
  rfl

end HedRepo

/-- What releasing the handles of a repository does: the files stay, and if the handles were
acquired last, they are gone and nothing is misused. -/
structure Frees (repo : HedRepo) (w w' : World) : Prop where
  data : w'.data = w.data
  backup : w'.backup = w.backup
  live : ∀ rest, w.live = repo.holds ++ rest → w'.live = rest
  misuse : ∀ rest, w.live = repo.holds ++ rest → w'.misuse = w.misuse

theorem Frees.content {repo : HedRepo} {w w' : World} (h : Frees repo w w') :
  w'.content = w.content
  := congrArg DataFile.content h.data

/-- `repo_close` releases the handles of the repository. -/
theorem repoClose_spec {repo : HedRepo} (hnone : repo.env = none → repo.txn = none)
    (w : World) :
  wp handle (repoClose repo)
    (fun t r w' => r = repo.closed ∧ Frees repo w w' ∧ Clean t ∧ ¬ Commits t ∧ copies t = [])
    w
  := by
  rw [repoClose]
  cases henv : repo.env with
  | none =>
      have hholds : repo.holds = [] := by
        rw [HedRepo.holds, henv, hnone henv]
        rfl
      use (HedRepo.closed_of_none henv (hnone henv)).symm
      constructor
      · constructor
        · rfl
        · rfl
        · intro rest hlive
          rw [hlive, hholds, List.nil_append]
        · intro rest _
          rfl
      · simp
  | some env =>
      simp only [repoAbortPending]
      cases htxn : repo.txn with
      | none =>
          have hholds : repo.holds = [.env env.id] := by
            rw [HedRepo.holds, henv, htxn]
            rfl
          rw [Option.isSome_none, if_neg Bool.false_ne_true, pure_bind, wp_bind, wp_mdbEnvClose]
          intro f
          constructor
          · rw [HedRepo.closed, htxn]
          · constructor
            · constructor
              · apply World.release_data
              · apply World.release_backup
              · intro rest hlive
                rw [hholds] at hlive
                apply World.release_live_cons hlive
              · intro rest hlive
                rw [hholds] at hlive
                apply World.release_misuse_cons hlive
            · simp [failed, Call.fallible, copies]
      | some txn =>
          have hholds : repo.holds = [.txn txn.id, .env env.id] := by
            rw [HedRepo.holds, henv, htxn]
            rfl
          rw [Option.isSome_some, if_pos rfl]
          apply wp_bind_of handle (hedRepoAbort_spec htxn w)
          rintro t r w' ⟨rfl, rfl, ht, hcommit, hcopies⟩
          rw [wp_bind, wp_mdbEnvClose]
          intro f
          use rfl
          constructor
          · constructor
            · simp
            · simp
            · intro rest hlive
              rw [hholds] at hlive
              apply World.release_live_cons
              apply World.release_live_cons hlive
            · intro rest hlive
              rw [hholds] at hlive
              rw [World.release_misuse_cons (World.release_live_cons hlive),
                World.release_misuse_cons hlive]
          · rw [copies_append, hcopies]
            simp [ht, hcommit, failed, Call.fallible, copies]

/-! ### Opening the environment -/

/-- The ways `repo_open` can end. -/
inductive Opens (repo3pc : Bool) (repo : HedRepo) (flags : Flags) (w : World)
    (t : List (Event calls Fate)) : ℤ × HedRepo → World → Prop where
  /-- It fails before its commit and releases what it acquired. -/
  | failed {ret : ℤ} {w' : World} (ret_ne : ret ≠ 0) (content : w'.content = w.content)
      (live : w'.live = w.live) (misuse : w'.misuse = w.misuse) (commits : ¬ Commits t)
      (backup : repo3pc = false → w'.backup = w.backup)
      (cause : w.content.bind (fun c => c.setup flags repo.table) = none ∨ ¬ Clean t) :
      Opens repo3pc repo flags w t (ret, repo) w'
  /-- Its commit fails, and the environment stays open. -/
  | unpublished {ret : ℤ} {env : Env} {c c' : Content} {w' : World} (ret_ne : ret ≠ 0)
      (env_flags : env.flags = MDB_NOSUBDIR) (before : w.content = some c)
      (setup : c.setup flags repo.table = some c') (content : w'.content = some c)
      (live : w'.live = .env env.id :: w.live) (misuse : w'.misuse = w.misuse)
      (commits : Commits t) (backup : w'.backup = (w.backedUp repo3pc c).backup)
      (copies : copies t = madeBy repo3pc) (dirty : ¬ Clean t) :
      Opens repo3pc repo flags w t (ret, { repo with env := some env }) w'
  /-- It succeeds. -/
  | opened {env : Env} {c c' : Content} {w' : World}
      (env_flags : env.flags = MDB_NOSUBDIR) (before : w.content = some c)
      (setup : c.setup flags repo.table = some c') (content : w'.content = some c')
      (live : w'.live = .env env.id :: w.live) (misuse : w'.misuse = w.misuse)
      (commits : Commits t) (backup : w'.backup = (w.backedUp repo3pc c).backup)
      (copies : copies t = madeBy repo3pc) (clean : Clean t) :
      Opens repo3pc repo flags w t (0, { repo with env := some env }) w'

section Open

variable {repo3pc : Bool} {repo : HedRepo} {flags : Flags} {w : World}

/-- The cleanup of `repo_open` leaves nothing of what `repo_open` acquired. -/
theorem repoOpenError_spec {repo' : HedRepo} {w' : World} {ret : ℤ}
    {t : List (Event calls Fate)} (hrepo : repo'.closed = repo) (hret : ret ≠ 0)
    (hopen : repo'.env = none → repo'.txn = none) (hcontent : w'.content = w.content)
    (hlive : w'.live = repo'.holds ++ w.live) (hmisuse : w'.misuse = w.misuse)
    (hcommits : ¬ Commits t) (hbackup : repo3pc = false → w'.backup = w.backup)
    (hcause : w.content.bind (fun c => c.setup flags repo.table) = none ∨ ¬ Clean t) :
  wp handle (repoOpenError repo' ret) (fun t' => Opens repo3pc repo flags w (t ++ t')) w'
  := by
  rw [repoOpenError]
  apply wp_bind_of handle (repoClose_spec hopen w')
  rintro t' _ w'' ⟨rfl, hfrees, ht', hcommits', -⟩
  rw [wp_pure, List.append_nil, hrepo]
  apply Opens.failed hret
  · rw [hfrees.content, hcontent]
  · apply hfrees.live _ hlive
  · rw [hfrees.misuse _ hlive, hmisuse]
  · simp [hcommits, hcommits']
  · intro h
    rw [hfrees.backup, hbackup h]
  · apply hcause.imp_right
    intro h hclean
    apply h (clean_append.mp hclean).1

/-- The same while no transaction is open. -/
theorem repoOpenError_env {env : Env} {w' : World} {ret : ℤ} {t : List (Event calls Fate)}
    (henv : repo.env = none) (htxn : repo.txn = none) (hret : ret ≠ 0)
    (hcontent : w'.content = w.content) (hlive : w'.live = .env env.id :: w.live)
    (hmisuse : w'.misuse = w.misuse) (hcommits : ¬ Commits t)
    (hbackup : repo3pc = false → w'.backup = w.backup)
    (hcause : w.content.bind (fun c => c.setup flags repo.table) = none ∨ ¬ Clean t) :
  wp handle (repoOpenError { repo with env := some env } ret)
    (fun t' => Opens repo3pc repo flags w (t ++ t')) w'
  := by
  apply repoOpenError_spec _ hret _ hcontent _ hmisuse hcommits hbackup hcause
  · apply HedRepo.closed_of_none henv htxn
  · rintro ⟨⟩
  · rw [hlive, HedRepo.holds, htxn]
    rfl

/-- What is left of `repo_open` once it has started its transaction. -/
theorem repoOpen_transaction {env : Env} {c : Content} {w' : World} {id : ℕ}
    {t : List (Event calls Fate)} (henv : repo.env = none) (htxn : repo.txn = none)
    (hflags : env.flags = MDB_NOSUBDIR) (hbefore : w.content = some c)
    (hcontent : w'.content = some c) (hlive : w'.live = .txn id :: .env env.id :: w.live)
    (hmisuse : w'.misuse = w.misuse) (hcommits : ¬ Commits t)
    (hbackup : w'.backup = (w.backedUp repo3pc c).backup) (ht : Clean t)
    (hcopies : copies t = madeBy repo3pc) :
  wp handle (do
      let ret ← repoSetup { repo with env := some env, txn := some ⟨id, false, c⟩ } flags
      if ret.1 ≠ 0 then repoOpenError ret.2 ret.1 else hedRepoCommit ret.2)
    (fun t' => Opens repo3pc repo flags w (t ++ t')) w'
  := by
  have hsetup := wp_calls handle
    (calls_repoSetup { repo with env := some env, txn := some ⟨id, false, c⟩ } flags)
    (repoSetup_spec rfl rfl w' flags)
  apply wp_bind_of handle hsetup
  rintro t' ⟨ret, repo'⟩ _ ⟨⟨rfl, ⟨c', hc', hr, ht'⟩ | ⟨hret, ⟨c', hrepo⟩, hcause⟩⟩, hrecords⟩
  · obtain ⟨rfl, rfl⟩ := Prod.mk.inj hr
    simp only [ne_eq, not_true_eq_false, if_false]
    apply wp_mono handle (hedRepoCommit_spec (HedRepo.work_txn _ _ c') rfl _)
    rintro t'' ⟨ret, repo'⟩ w'' ⟨rfl, hlive', hmisuse', hbackup', hcommits', hcopies', hend⟩
    have hrepo : ({ HedRepo.work { repo with env := some env, txn := some ⟨id, false, c⟩ }
        ⟨id, false, c⟩ c' with txn := none } : HedRepo) = { repo with env := some env } := by
      simp only [HedRepo.work, htxn]
    have hlive'' : w''.live = .env env.id :: w.live := by
      rw [hlive']
      apply World.release_live_cons hlive
    have hmisuse'' : w''.misuse = w.misuse := by
      rw [hmisuse', ← hmisuse]
      apply World.release_misuse_cons hlive
    have hsetup' : c.setup flags repo.table = some c' := hc'
    have hcopies'' : copies (t ++ (t' ++ t'')) = madeBy repo3pc := by
      simp [hcopies, hcopies', copies_of_onRecords hrecords]
    rw [hrepo]
    rcases hend with ⟨rfl, hcontent'', ht''⟩ | ⟨hret, hdata, hdirty⟩
    · apply Opens.opened hflags hbefore hsetup' hcontent'' hlive'' hmisuse'' _ _ hcopies''
      · simp [ht, ht', ht'']
      · simp [hcommits']
      · rw [hbackup', hbackup]
    · apply Opens.unpublished hret hflags hbefore hsetup' _ hlive'' hmisuse'' _ _ hcopies''
      · simp [hdirty]
      · rw [World.content, hdata]
        apply hcontent
      · simp [hcommits']
      · rw [hbackup', hbackup]
  · simp only [if_pos hret, ← List.append_assoc]
    obtain rfl : repo' = _ := hrepo
    apply repoOpenError_spec _ hret
    · rintro ⟨⟩
    · rw [hcontent, hbefore]
    · rw [hlive]
      rfl
    · apply hmisuse
    · simp [hcommits, not_commits_of_onRecords hrecords]
    · rintro rfl
      rw [hbackup]
      rfl
    · rw [hbefore]
      apply hcause.imp_right
      intro h hclean
      apply h (clean_append.mp hclean).2
    · apply HedRepo.closed_of_none henv htxn

/-- What is left of `repo_open` once it has opened its environment. -/
theorem repoOpen_start {env : Env} {c : Content} {w' : World} {t : List (Event calls Fate)}
    (henv : repo.env = none) (htxn : repo.txn = none) (hflags : env.flags = MDB_NOSUBDIR)
    (hbefore : w.content = some c) (hcontent : w'.content = some c)
    (hlive : w'.live = .env env.id :: w.live) (hmisuse : w'.misuse = w.misuse)
    (hbackup : w'.backup = w.backup) (hcommits : ¬ Commits t) (ht : Clean t)
    (hcopies : copies t = []) :
  wp handle (do
      let ret ← hedRepoStart repo3pc { repo with env := some env }
      if ret.1 ≠ 0 then repoOpenError ret.2 ret.1
      else do
        let ret ← repoSetup ret.2 flags
        if ret.1 ≠ 0 then repoOpenError ret.2 ret.1 else hedRepoCommit ret.2)
    (fun t' => Opens repo3pc repo flags w (t ++ t')) w'
  := by
  have hwritable : env.flags &&& MDB_RDONLY = 0 := by
    rw [hflags]
    decide
  have henv' : HedRepo.env { repo with env := some env } = some env := rfl
  apply wp_bind_of handle (hedRepoStart_spec repo3pc hcontent henv' hwritable)
  rintro t' ⟨ret, repo'⟩ w''
    ⟨-, hcommits', h3pc, ⟨hr, rfl, ht', hcopies'⟩ | ⟨hret, hrepo, rfl, ht'⟩⟩
  · obtain ⟨rfl, rfl⟩ := Prod.mk.inj hr
    rw [if_neg (by simp)]
    simp only [← List.append_assoc]
    apply repoOpen_transaction henv htxn hflags hbefore
    · rw [World.began_content, World.backedUp_content, hcontent]
    · rw [World.began_live, World.backedUp_live, World.backedUp_next, hlive]
    · rw [World.began_misuse, World.backedUp_misuse, hmisuse]
    · simp [hcommits, hcommits']
    · rw [World.began_backup]
      cases repo3pc with
      | false => exact hbackup
      | true => rfl
    · simp [ht, ht']
    · rw [copies_append, hcopies, hcopies']
      rfl
  · obtain rfl : repo' = _ := hrepo
    simp only [if_pos hret, ← List.append_assoc]
    apply repoOpenError_env henv htxn hret
    · exact hcontent.trans hbefore.symm
    · exact hlive
    · exact hmisuse
    · simp [hcommits, hcommits']
    · intro h
      rw [backupOf, h3pc h]
      exact hbackup
    · right
      simp [ht']

/-- `repo_open` ends in one of the ways of `Opens`. -/
theorem repoOpen_spec (repo3pc : Bool) (repo : HedRepo) (flags : Flags) (w : World) :
  wp handle (repoOpen repo3pc repo flags) (Opens repo3pc repo flags w) w
  := by
  rw [repoOpen, wp_require_bind]
  intro henv
  rw [wp_require_bind]
  intro htxn
  have hwritable : MDB_NOSUBDIR &&& MDB_RDONLY = 0 := by decide
  have hor : (0 : Flags) ||| MDB_NOSUBDIR = MDB_NOSUBDIR := by decide
  simp only [rdonly_flag, hor]
  rw [wp_bind, wp_mdbEnvCreate]
  constructor
  · rw [wp_bind, wp_mdbEnvSetMaxdbs]
    constructor
    · rw [if_neg (by simp [rc]), wp_bind, wp_mdbEnvOpen]
      simp only [← List.append_assoc]
      constructor
      · rcases World.envOpen_writable w.envCreate.2 w.envCreate.1 hwritable with
          ⟨c, hc, hopen⟩ | ⟨hc, hopen⟩
        · rw [hopen]
          have hbefore : w.content = some c := hc
          apply repoOpen_start henv htxn rfl hbefore
          · rfl
          · rfl
          · rfl
          · rfl
          · simp
          · simp [failed]
          · rfl
        · rw [hopen]
          apply repoOpenError_env henv htxn MDB_INVALID.ne_zero
          · rfl
          · rfl
          · rfl
          · simp
          · intro _
            rfl
          · left
            have hc' : w.content = none := hc
            rw [hc']
            rfl
      · intro e left
        apply repoOpenError_env henv htxn e.ne_zero
        · rfl
        · rfl
        · rfl
        · simp
        · intro _
          rfl
        · right
          simp [failed, Call.fallible]
    · intro e left
      rw [rc, if_pos e.ne_zero]
      simp only [← List.append_assoc]
      apply repoOpenError_env henv htxn e.ne_zero
      · rfl
      · rfl
      · rfl
      · simp
      · intro _
        rfl
      · right
        simp [failed, Call.fallible]
  · intro e left
    apply Opens.failed e.ne_zero rfl rfl rfl
    · simp
    · intro _
      rfl
    · right
      simp [failed, Call.fallible]

end Open

/-- What holds of a repository between the calls of its functions: its environment and its
transaction can write, there is no transaction without an environment, and the data file
can be read while there is one. -/
structure Sound (repo : HedRepo) (w : World) : Prop where
  env_flags : ∀ env, repo.env = some env → env.flags = MDB_NOSUBDIR
  env_of_txn : repo.env = none → repo.txn = none
  txn_writable : ∀ txn, repo.txn = some txn → txn.readonly = false
  content : repo.env ≠ none → ∃ c, w.content = some c

theorem Sound.of_closed {repo : HedRepo} {w : World} (henv : repo.env = none)
    (htxn : repo.txn = none) :
  Sound repo w
  := by
  constructor
  · simp [henv]
  · simp [htxn]
  · simp [htxn]
  · simp [henv]

theorem Sound.of_env {repo : HedRepo} {env : Env} {w : World} {c : Content}
    (henv : repo.env = some env) (hflags : env.flags = MDB_NOSUBDIR) (htxn : repo.txn = none)
    (hc : w.content = some c) :
  Sound repo w
  := by
  constructor
  · intro env' henv'
    obtain rfl := Option.some.inj (henv.symm.trans henv')
    apply hflags
  · simp [htxn]
  · simp [htxn]
  · intro _
    use c

theorem Opens.sound {repo3pc : Bool} {repo : HedRepo} {flags : Flags} {w w' : World}
    {t : List (Event calls Fate)} {r : ℤ × HedRepo} (henv : repo.env = none)
    (htxn : repo.txn = none) (h : Opens repo3pc repo flags w t r w') :
  Sound r.2 w'
  := by
  cases h with
  | failed => apply Sound.of_closed henv htxn
  | unpublished ret_ne env_flags before setup content =>
    exact Sound.of_env rfl env_flags htxn content
  | opened env_flags before setup content => exact Sound.of_env rfl env_flags htxn content

/-! ### The calls of opening and closing -/

/-- The calls that `repo_open` and `repo_close` make. -/
def Call.OnEnv : Call → Prop
  | .malloc => False
  | .strollLvstrInitCede _ => False
  | .strollLvstrInitDup _ => False
  | .strollLvstrFini _ => False
  | .rename => False
  | .remove => False
  | _ => True

theorem Call.OnRecords.onEnv {c : Call} (h : c.OnRecords) :
  c.OnEnv
  := by
  cases c with
  | malloc => cases h
  | strollLvstrInitCede s => cases h
  | strollLvstrInitDup s => cases h
  | strollLvstrFini s => cases h
  | rename => cases h
  | remove => cases h
  | _ => trivial

section Releasing

variable {P : Call → Prop} (habort : ∀ txn, P (.mdbTxnAbort txn))
  (hclose : ∀ env, P (.mdbEnvClose env)) (repo : HedRepo)

include habort in
theorem calls_hedRepoAbort :
  (hedRepoAbort repo).Calls P
  := by
  apply Calls.bind (calls_demand _ _)
  intro env
  apply Calls.bind (calls_demand _ _)
  intro txn
  apply Calls.bind (calls_ask (habort txn))
  intro _
  trivial

include habort hclose in
theorem calls_repoClose :
  (repoClose repo).Calls P
  := by
  rw [repoClose]
  cases repo.env with
  | none => trivial
  | some env =>
      have hpending : (repoAbortPending repo).Calls P := by
        rw [repoAbortPending]
        split_ifs with h
        · apply calls_hedRepoAbort habort
        · trivial
      apply Calls.bind hpending
      intro repo'
      apply Calls.bind (calls_ask (hclose env))
      intro _
      trivial

include habort hclose in
theorem calls_repoOpenError (ret : ℤ) :
  (repoOpenError repo ret).Calls P
  := by
  apply Calls.bind (calls_repoClose habort hclose repo)
  intro _
  trivial

end Releasing

theorem calls_hedRepoCommit (repo : HedRepo) :
  (hedRepoCommit repo).Calls Call.OnEnv
  := by
  apply Calls.bind (calls_demand _ _)
  intro env
  apply Calls.bind (calls_demand _ _)
  intro txn
  apply Calls.bind (calls_ask trivial)
  intro _
  trivial

theorem calls_repoBackup (repo3pc : Bool) (repo : HedRepo) (env : Env) (flags : Flags) :
  (repoBackup repo3pc repo env flags).Calls Call.OnEnv
  := by
  rw [repoBackup]
  split_ifs with h
  · apply Calls.bind (calls_ask trivial)
    rintro (e | u)
    · trivial
    · apply Calls.bind (calls_ask trivial)
      intro ret
      apply Calls.bind (calls_ask trivial)
      intro _
      trivial
  · trivial

theorem calls_hedRepoStart (repo3pc : Bool) (repo : HedRepo) :
  (hedRepoStart repo3pc repo).Calls Call.OnEnv
  := by
  apply Calls.bind (calls_demand _ _)
  intro env
  apply Calls.bind (calls_require _ _)
  intro _
  apply Calls.bind (calls_repoBackup repo3pc repo env _)
  intro ret
  apply calls_ite
  · trivial
  · apply Calls.bind (calls_ask trivial)
    rintro (e | txn)
    · trivial
    · trivial

theorem calls_repoOpen (repo3pc : Bool) (repo : HedRepo) (flags : Flags) :
  (repoOpen repo3pc repo flags).Calls Call.OnEnv
  := by
  have herror : ∀ (repo : HedRepo) (ret : ℤ), (repoOpenError repo ret).Calls Call.OnEnv :=
    calls_repoOpenError (fun _ => trivial) (fun _ => trivial)
  apply Calls.bind (calls_require _ _)
  intro _
  apply Calls.bind (calls_require _ _)
  intro _
  apply Calls.bind (calls_ask trivial)
  rintro (e | env)
  · trivial
  · apply Calls.bind (calls_ask trivial)
    intro ret
    apply calls_ite
    · apply herror
    · apply Calls.bind (calls_ask trivial)
      rintro (e | env')
      · apply herror
      · apply calls_checked (calls_hedRepoStart _ _)
        · intro r
          apply herror
        · intro r
          apply calls_checked ((calls_repoSetup _ _).mono fun _ => Call.OnRecords.onEnv)
          · intro r'
            apply herror
          · intro r'
            apply calls_hedRepoCommit

/-! ### The functions of the API that open and close -/

/-- What `repo_open` did after calls that neither failed nor made a copy. -/
theorem Opens.after {repo3pc : Bool} {repo : HedRepo} {flags : Flags} {w w' : World}
    {r : ℤ × HedRepo} {t t' : List (Event calls Fate)} (ht : Clean t) (hcommits : ¬ Commits t)
    (hcopies : copies t = []) (h : Opens repo3pc repo flags w t' r w') :
  Opens repo3pc repo flags w (t ++ t') r w'
  := by
  have hcopies' : copies (t ++ t') = copies t' := by
    rw [copies_append, hcopies, List.nil_append]
  cases h with
  | failed ret_ne content live misuse commits backup cause =>
      apply Opens.failed ret_ne content live misuse _ backup
      · simpa [ht] using cause
      · simp [hcommits, commits]
  | unpublished ret_ne env_flags before setup content live misuse commits backup made dirty =>
      apply Opens.unpublished ret_ne env_flags before setup content live misuse _ backup
      · rw [hcopies', made]
      · simp [dirty]
      · simp [commits]
  | opened env_flags before setup content live misuse commits backup made clean =>
      apply Opens.opened env_flags before setup content live misuse _ backup
      · rw [hcopies', made]
      · simp [ht, clean]
      · simp [commits]

/-- `hed_repo_reload` closes and opens. -/
theorem hedRepoReload_spec (repo3pc : Bool) (repo : HedRepo) (w : World) :
  wp handle (hedRepoReload repo3pc repo)
    (fun t r w' => repo.env ≠ none ∧ repo.txn = none
      ∧ ∃ w'', Frees repo w w'' ∧ Opens repo3pc repo.closed repo.flags w'' t r w')
    w
  := by
  rw [hedRepoReload, wp_demand_bind]
  intro env henv
  rw [wp_require_bind]
  intro htxn
  apply wp_bind_of handle (repoClose_spec (fun _ => htxn) w)
  rintro t _ w'' ⟨rfl, hfrees, ht, hcommits, hcopies⟩
  apply wp_mono handle (repoOpen_spec repo3pc repo.closed repo.flags w'')
  intro t' r w' hopens
  use by simp [henv], htxn, w'', hfrees
  apply hopens.after ht hcommits hcopies

/-- The trace `t` of a rollback: closing, a call of `rename` with the fate `f`, and opening
with the trace `t'`. -/
structure Rollback (t : List (Event calls Fate)) (f : Fate) (t' : List (Event calls Fate)) :
    Prop where
  split : ∃ t₀, t = t₀ ++ ⟨.rename, f⟩ :: t' ∧ Clean t₀ ∧ ¬ Commits t₀ ∧ copies t₀ = []
    ∧ ∀ e ∈ t₀ ++ t', Call.OnEnv e.call

/-- `hed_repo_rollback` closes, moves the backup over the data file, unless that fails, and
opens. -/
theorem hedRepoRollback_spec (repo : HedRepo) (w : World) :
  wp handle (hedRepoRollback repo)
    (fun t r w' => repo.env ≠ none ∧ repo.txn = none
      ∧ ∃ f t' w'', Rollback t f t' ∧ Frees repo w w''
        ∧ Opens true repo.closed repo.flags (handle f .rename w'').2 t' r w')
    w
  := by
  rw [hedRepoRollback, wp_demand_bind]
  intro env henv
  rw [wp_require_bind]
  intro htxn
  have hclose : (repoClose repo).Calls Call.OnEnv :=
    calls_repoClose (fun _ => trivial) (fun _ => trivial) repo
  apply wp_bind_of handle (wp_calls handle hclose (repoClose_spec (fun _ => htxn) w))
  rintro t₀ _ w'' ⟨⟨rfl, hfrees, ht, hcommits, hcopies⟩, hcalls⟩
  intro f
  apply wp_mono handle (wp_calls handle (calls_repoOpen true repo.closed repo.flags)
    (repoOpen_spec true repo.closed repo.flags _))
  rintro t' r w' ⟨hopens, hcalls'⟩
  use by simp [henv], htxn, f, t', w''
  constructor
  · constructor
    use t₀, rfl, ht, hcommits, hcopies
    apply List.forall_mem_append.mpr ⟨hcalls, hcalls'⟩
  · exact ⟨hfrees, hopens⟩

/-- The strings of a repository, as it holds them. -/
def strings : List Resource := [.lvstr .path, .lvstr .backup]

/-- The call of `remove` failed. -/
def RemoveFails (t : List (Event calls Fate)) : Prop :=
  ∃ e ∈ t, e.call = .remove ∧ e.fate ≠ .ok

/-- What `hed_repo_close` does to a repository that is open. -/
structure Closes (repo : HedRepo) (w : World) (t : List (Event calls Fate)) (w' : World) :
    Prop where
  data : w'.data = w.data
  removed : repo.flags &&& O_RDWR ≠ 0 → ¬ RemoveFails t → w'.backup = none
  kept : repo.flags &&& O_RDWR = 0 ∨ RemoveFails t → w'.backup = w.backup
  live : ∀ rest, w.live = repo.holds ++ strings ++ rest → w'.live = rest
  misuse : ∀ rest, w.live = repo.holds ++ strings ++ rest → w'.misuse = w.misuse

/-- The end of `hed_repo_close`. -/
theorem closes_of_frees {repo : HedRepo} {w w₁ w₂ : World} {t : List (Event calls Fate)}
    (hfrees : Frees repo w w₁) (hdata : w₂.data = w₁.data) (hlive : w₂.live = w₁.live)
    (hmisuse : w₂.misuse = w₁.misuse)
    (hremoved : repo.flags &&& O_RDWR ≠ 0 → ¬ RemoveFails t → w₂.backup = none)
    (hkept : repo.flags &&& O_RDWR = 0 ∨ RemoveFails t → w₂.backup = w₁.backup) :
  Closes repo w t ((w₂.release (.lvstr .path)).release (.lvstr .backup))
  := by
  have hstrings : ∀ rest, w.live = repo.holds ++ strings ++ rest →
      w₂.live = .lvstr .path :: .lvstr .backup :: rest := by
    intro rest h
    rw [hlive]
    apply hfrees.live
    rw [h, List.append_assoc]
    rfl
  constructor
  · simp only [World.release_data, hdata, hfrees.data]
  · intro hrdwr hremove
    simp only [World.release_backup, hremoved hrdwr hremove]
  · intro h
    simp only [World.release_backup, hkept h, hfrees.backup]
  · intro rest h
    apply World.release_live_cons
    apply World.release_live_cons (hstrings rest h)
  · intro rest h
    rw [World.release_misuse_cons (World.release_live_cons (hstrings rest h)),
      World.release_misuse_cons (hstrings rest h), hmisuse]
    apply hfrees.misuse
    rw [h, List.append_assoc]

/-- The trace of `hed_repo_close` shows what became of its call of `remove`. -/
theorem removeFails_close {t : List (Event calls Fate)} (ht : ∀ e ∈ t, Call.OnEnv e.call)
    (f f₁ f₂ : Fate) :
  RemoveFails (t ++ ([⟨.remove, f⟩] ++ [⟨.strollLvstrFini .path, f₁⟩,
      ⟨.strollLvstrFini .backup, f₂⟩])) ↔ f ≠ .ok
  := by
  constructor
  · rintro ⟨e, he, hcall, hfate⟩
    rcases List.mem_append.mp he with he' | he'
    · have hon := ht e he'
      rw [hcall] at hon
      cases hon
    · simp only [List.cons_append, List.nil_append, List.mem_cons, List.not_mem_nil,
        or_false] at he'
      rcases he' with rfl | rfl | rfl
      · apply hfate
      · cases hcall
      · cases hcall
  · intro hf
    exact ⟨⟨.remove, f⟩, by simp, rfl, hf⟩

/-- `hed_repo_close` does nothing to a repository that has no environment, whatever else the
repository still owns. -/
theorem hedRepoClose_spec {repo : HedRepo} (hnone : repo.env = none → repo.txn = none)
    (w : World) :
  wp handle (hedRepoClose repo)
    (fun t r w' => r = repo.closed
      ∧ ((repo.env = none ∧ w' = w) ∨ (repo.env ≠ none ∧ Closes repo w t w')))
    w
  := by
  rw [hedRepoClose]
  cases henv : repo.env with
  | none =>
      use (HedRepo.closed_of_none henv (hnone henv)).symm
      left
      use rfl
  | some env =>
      simp only
      have hclose : (repoClose repo).Calls Call.OnEnv :=
        calls_repoClose (fun _ => trivial) (fun _ => trivial) repo
      apply wp_bind_of handle (wp_calls handle hclose (repoClose_spec hnone w))
      rintro t _ w₁ ⟨⟨rfl, hfrees, -⟩, hcalls⟩
      have hflags : repo.closed.flags = repo.flags := rfl
      simp only [hflags]
      by_cases hrdwr : repo.flags &&& O_RDWR ≠ 0
      · rw [if_pos hrdwr, wp_bind, wp_remove]
        constructor
        · intro f₁ f₂
          use rfl
          right
          use by simp
          rw [World.remove_eq]
          apply closes_of_frees hfrees
          · rfl
          · rfl
          · rfl
          · intro _ _
            rfl
          · rintro (hro | hremove)
            · apply (hrdwr hro).elim
            · apply ((removeFails_close hcalls _ _ _).mp hremove rfl).elim
        · intro e left f₁ f₂
          use rfl
          right
          use by simp
          apply closes_of_frees hfrees rfl rfl rfl
          · intro _ hremove
            apply (hremove ((removeFails_close hcalls _ _ _).mpr (by simp))).elim
          · intro _
            rfl
      · rw [if_neg hrdwr]
        intro f₁ f₂
        use rfl
        right
        use by simp
        apply closes_of_frees hfrees rfl rfl rfl
        · intro h _
          apply (hrdwr h).elim
        · intro _
          rfl

/-- The flags the assertions of `hed_repo_open` admit. -/
def Admits (flags : Flags) : Prop :=
  flags &&& ~~~(O_RDWR ||| O_RDONLY ||| O_CREAT ||| O_TRUNC) = 0
    ∧ (flags &&& O_CREAT = 0 ∨ flags &&& O_RDWR ≠ 0)
    ∧ (flags &&& O_TRUNC = 0 ∨ flags &&& O_CREAT ≠ 0)

/-- What a successful `hed_repo_open` leaves. -/
structure Opened (repo3pc : Bool) (table : List Bytes) (flags : Flags) (mode : ℕ) (w : World)
    (repo : HedRepo) (w' : World) : Prop where
  handle : ∃ env : Env, repo = { HedRepo.init table flags mode with env := some env }
    ∧ env.flags = MDB_NOSUBDIR
  content : ∃ c c', w.content = some c ∧ c.setup flags table = some c' ∧ w'.content = some c'
    ∧ w'.backup = (w.backedUp repo3pc c).backup
  live : w'.live = repo.holds ++ strings ++ w.live
  misuse : w'.misuse = w.misuse

/-- `hed_repo_open` sets the repository up, or returns an error and leaves the committed
content as it was. -/
theorem hedRepoOpen_spec (repo3pc : Bool) (table : List Bytes) (flags : Flags) (mode : ℕ)
    (w : World) :
  wp handle (hedRepoOpen repo3pc table flags mode)
    (fun _ r w' => Admits flags
      ∧ ((r.1 = 0 ∧ Opened repo3pc table flags mode w r.2 w')
        ∨ (r.1 ≠ 0 ∧ w'.content = w.content ∧ r.2.txn = none ∧ Sound r.2 w')))
    w
  := by
  rw [hedRepoOpen, wp_require_bind]
  intro hmask
  rw [wp_require_bind]
  intro hcreat
  rw [wp_require_bind]
  intro htrunc
  have hadmits : Admits flags := ⟨hmask, hcreat, htrunc⟩
  rw [wp_bind, wp_malloc]
  constructor
  · rw [if_neg (by simp), wp_bind, wp_strollLvstrInitCede]
    constructor
    · rw [rc, if_neg (by simp), wp_bind, wp_strollLvstrInitDup, World.release_acquire]
      constructor
      · rw [rc, if_neg (by simp)]
        apply wp_bind_of handle (repoOpen_spec repo3pc (HedRepo.init table flags mode) flags
          ((w.acquire (.lvstr .backup)).acquire (.lvstr .path)))
        rintro t ⟨ret, repo⟩ w' hopens
        have hrelease : ∀ f f', World.content (handle f' (.strollLvstrFini .backup)
            (handle f (.strollLvstrFini .path) w').2).2 = w'.content := by
          intro f f'
          apply (World.release_content _ _).trans (World.release_content _ _)
        cases hopens with
        | failed ret_ne content live misuse commits backup cause =>
            rw [if_pos ret_ne]
            intro f f'
            use hadmits
            right
            use ret_ne, (hrelease f f').trans content, rfl
            apply Sound.of_closed rfl rfl
        | unpublished ret_ne env_flags before setup content live misuse commits backup =>
            rw [if_pos ret_ne]
            intro f f'
            use hadmits
            right
            use ret_ne, (hrelease f f').trans (content.trans before.symm), rfl
            apply Sound.of_env rfl env_flags rfl ((hrelease f f').trans content)
        | @opened env c c' w' env_flags before setup content live misuse commits backup =>
            rw [if_neg (by simp)]
            use hadmits
            left
            use rfl
            constructor
            · exact ⟨_, rfl, env_flags⟩
            · use c, c', before, setup, content
              rw [backup]
              cases repo3pc with
              | false => rfl
              | true => rfl
            · rw [live]
              rfl
            · rw [misuse]
              rfl
      · intro e left
        rw [rc, if_pos e.ne_zero]
        intro f
        use hadmits
        right
        use e.ne_zero, World.release_content _ _, rfl
        apply Sound.of_closed rfl rfl
    · intro e left
      rw [rc, if_pos e.ne_zero]
      intro f
      use hadmits
      right
      use e.ne_zero, World.release_content _ _, rfl
      apply Sound.of_closed rfl rfl
  · intro e left
    use hadmits
    right
    use Int.neg_ne_zero.mpr ENOMEM.ne_zero, rfl, rfl
    apply Sound.of_closed rfl rfl

end Hed
