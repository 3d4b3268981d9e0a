import Hed.Repo.Rollback

/-!
# What closing releases

From a successful `hed_repo_open` on, a process owns an environment, perhaps a transaction,
and the two strings of the repository; with `CONFIG_HED_REPO_3PC` there is a backup file,
too.  `hed_repo_close` releases them only if there is an environment.  A reload or a rollback
that fails before its commit leaves none, while the strings and the backup are still there:
`released_iff` says that closing releases everything exactly if that never happened, and if
the backup file could be removed.
-/

namespace Hed

open Program

/-! ### What a repository owns -/

/-- The operations that close the environment and open it again. -/
def Op.reopens : Op → Bool
  | .hedRepoReload => true
  | .hedRepoRollback => true
  | _ => false

/-- The operations of a client between its opening and its close. -/
def Op.inUse : Op → Bool
  | .hedRepoOpen _ _ _ => false
  | .hedRepoClose => false
  | _ => true

theorem Op.opensNothing_of_inUse {op : Op} (h : op.inUse = true) :
  op.opensNothing = true
  := by
  cases op with
  | hedRepoOpen table flags mode => cases h
  | _ => rfl

theorem Op.reopens_of_starts {op : Op} (h : op.starts = false) :
  op.reopens = false
  := by
  cases op with
  | hedRepoReload => cases h
  | hedRepoRollback => cases h
  | _ => rfl

/-- From a repository that holds its handles on top of `rest` to one that does. -/
def KeepsRest (repo : HedRepo) (w : World) (repo' : HedRepo) (w' : World) : Prop :=
  ∀ rest, w.live = repo.holds ++ rest → w'.live = repo'.holds ++ rest ∧ w'.misuse = w.misuse

theorem KeepsRest.refl (repo : HedRepo) (w : World) :
  KeepsRest repo w repo w
  := by
  intro rest h
  use h

theorem HedRepo.holds_of_txn {repo : HedRepo} {txn : Txn} (h : repo.txn = some txn) :
  repo.holds = .txn txn.id :: { repo with txn := none }.holds
  := by
  rw [HedRepo.holds, h]
  rfl

theorem HedRepo.holds_of_closed {repo : HedRepo} (henv : repo.env = none)
    (htxn : repo.txn = none) :
  repo.holds = []
  := by
  rw [HedRepo.holds, henv, htxn]
  rfl

/-- Working in the transaction holds the same handles. -/
theorem HedRepo.holds_work {repo : HedRepo} {txn : Txn} (h : repo.txn = some txn) (c : Content) :
  (repo.work txn c).holds = repo.holds
  := by
  rw [HedRepo.holds, HedRepo.holds, h]
  rfl

/-- A repository that holds no handles holds, after opening, those it has then. -/
theorem Opens.keepsRest {repo3pc : Bool} {repo : HedRepo} {flags : Flags} {w w' : World}
    {t : List (Event calls Fate)} {r : ℤ × HedRepo} (henv : repo.env = none)
    (htxn : repo.txn = none) (h : Opens repo3pc repo flags w t r w') :
  KeepsRest repo w r.2 w'
  := by
  intro rest hlive
  rw [HedRepo.holds_of_closed henv htxn, List.nil_append] at hlive
  have hholds : ∀ env, { repo with env := some env }.holds = [Resource.env env.id] := by
    intro env
    rw [HedRepo.holds, htxn]
    rfl
  cases h with
  | failed ret_ne content live misuse =>
      rw [HedRepo.holds_of_closed henv htxn, live, hlive]
      exact ⟨rfl, misuse⟩
  | @unpublished ret env c c' w' ret_ne env_flags before setup content live misuse =>
      rw [hholds env, live, hlive]
      exact ⟨rfl, misuse⟩
  | @opened env c c' w' env_flags before setup content live misuse =>
      rw [hholds env, live, hlive]
      exact ⟨rfl, misuse⟩

/-- Closing and opening again, perhaps with a change of the files in between. -/
theorem Frees.keepsRest {repo3pc : Bool} {repo : HedRepo} {flags : Flags}
    {w w₁ w₂ w' : World} {t : List (Event calls Fate)} {r : ℤ × HedRepo}
    (hfrees : Frees repo w w₁) (hlive : w₂.live = w₁.live) (hmisuse : w₂.misuse = w₁.misuse)
    (hopens : Opens repo3pc repo.closed flags w₂ t r w') :
  KeepsRest repo w r.2 w'
  := by
  intro rest h
  have hrest : w₂.live = repo.closed.holds ++ rest := by
    rw [hlive, hfrees.live rest h]
    rfl
  obtain ⟨hlive', hmisuse'⟩ := hopens.keepsRest rfl rfl rest hrest
  use hlive'
  rw [hmisuse', hmisuse, hfrees.misuse rest h]

/-- Ending the transaction. -/
theorem keepsRest_of_release {repo : HedRepo} {txn : Txn} {w w' : World}
    (htxn : repo.txn = some txn) (hlive : w'.live = (w.release (.txn txn.id)).live)
    (hmisuse : w'.misuse = (w.release (.txn txn.id)).misuse) :
  KeepsRest repo w { repo with txn := none } w'
  := by
  intro rest h
  rw [HedRepo.holds_of_txn htxn, List.cons_append] at h
  rw [hlive, hmisuse]
  exact ⟨World.release_live_cons h, World.release_misuse_cons h⟩

theorem rename_keeps (f : Fate) (w : World) :
  (handle f .rename w).2.live = w.live ∧ (handle f .rename w).2.misuse = w.misuse
  := by
  cases f with
  | fail e left => exact ⟨rfl, rfl⟩
  | ok =>
      obtain ⟨data, backup, live, misuse, next⟩ := w
      cases backup with
      | none => exact ⟨rfl, rfl⟩
      | some file => exact ⟨rfl, rfl⟩

/-- A call between opening and closing releases what it takes from the repository, and adds
what it acquires. -/
theorem Effect.keepsRest {repo3pc : Bool} {repo repo' : HedRepo} {w w' : World} {op : Op}
    {t : List (Event calls Fate)} {result : Result}
    (h : Effect repo3pc repo w op t result repo' w') (hop : op.inUse = true) :
  KeepsRest repo w repo' w'
  := by
  cases h with
  | opened => cases hop
  | unopened => cases hop
  | closed => cases hop
  | unclosed => cases hop
  | reloaded env_ne txn_none frees opens => apply frees.keepsRest rfl rfl opens
  | rolledBack env_ne txn_none frees has3pc rollback opens =>
      apply frees.keepsRest (rename_keeps _ _).1 (rename_keeps _ _).2 opens
  | started env_ne txn_none content =>
      intro rest h
      have hholds : repo.holds = { repo with txn := none }.holds := by
        rw [HedRepo.holds, txn_none]
        rfl
      rw [HedRepo.holds_of_txn rfl, World.began_live, World.began_misuse,
        World.backedUp_live, World.backedUp_misuse, World.backedUp_next, h, hholds]
      exact ⟨rfl, rfl⟩
  | unstarted =>
      intro rest h
      exact ⟨h, rfl⟩
  | committed txn_eq content live misuse => apply keepsRest_of_release txn_eq live misuse
  | uncommitted txn_eq ret_ne content live misuse =>
      apply keepsRest_of_release txn_eq live misuse
  | aborted txn_eq => apply keepsRest_of_release txn_eq rfl rfl
  | read => apply KeepsRest.refl
  | wrote write txn_eq content =>
      intro rest h
      rw [HedRepo.holds_work txn_eq]
      exact ⟨h, rfl⟩
  | unwritten => apply KeepsRest.refl
  | counted txn_eq record length content =>
      intro rest h
      rw [HedRepo.holds_work txn_eq]
      exact ⟨h, rfl⟩
  | uncounted => apply KeepsRest.refl

/-- Opening leaves an environment exactly if it gets as far as its commit. -/
theorem Opens.env_iff {repo3pc : Bool} {repo : HedRepo} {flags : Flags} {w w' : World}
    {t : List (Event calls Fate)} {r : ℤ × HedRepo} (henv : repo.env = none)
    (h : Opens repo3pc repo flags w t r w') :
  r.2.env ≠ none ↔ Commits t
  := by
  cases h with
  | failed ret_ne content live misuse commits =>
      apply iff_of_false _ commits
      intro h
      apply h henv
  | unpublished ret_ne env_flags before setup content live misuse commits =>
      apply iff_of_true (by simp) commits
  | opened env_flags before setup content live misuse commits =>
      apply iff_of_true (by simp) commits

theorem Rollback.commits_iff {t t' : List (Event calls Fate)} {f : Fate} (h : Rollback t f t') :
  Commits t ↔ Commits t'
  := by
  obtain ⟨t₀, rfl, -, hcommits, -⟩ := h.split
  simp [hcommits]

/-- A call between opening and closing keeps the environment, unless it closes it and does
not get as far as its commit. -/
theorem Effect.env_iff {repo3pc : Bool} {repo repo' : HedRepo} {w w' : World} {op : Op}
    {t : List (Event calls Fate)} {result : Result}
    (h : Effect repo3pc repo w op t result repo' w') (hop : op.inUse = true) :
  repo'.env ≠ none ↔ repo.env ≠ none ∧ (op.reopens = true → Commits t)
  := by
  have hkeeps : op.reopens = false → repo'.env = repo.env →
      (repo'.env ≠ none ↔ repo.env ≠ none ∧ (op.reopens = true → Commits t)) := by
    intro hreopens henv
    simp [hreopens, henv]
  cases h with
  | opened => cases hop
  | unopened => cases hop
  | closed => cases hop
  | unclosed => cases hop
  | reloaded env_ne txn_none frees opens =>
      have henv : repo'.env ≠ none ↔ Commits t := opens.env_iff rfl
      simp [henv, env_ne, Op.reopens]
  | rolledBack env_ne txn_none frees has3pc rollback opens =>
      have henv : repo'.env ≠ none ↔ Commits t :=
        (opens.env_iff rfl).trans rollback.commits_iff.symm
      simp [henv, env_ne, Op.reopens]
  | started => apply hkeeps rfl rfl
  | unstarted => apply hkeeps rfl rfl
  | committed => apply hkeeps rfl rfl
  | uncommitted => apply hkeeps rfl rfl
  | aborted => apply hkeeps rfl rfl
  | read reads => apply hkeeps (Op.reopens_of_starts (Op.starts_of_reads reads)) rfl
  | wrote write => apply hkeeps (Op.reopens_of_starts (Op.starts_of_write write)) rfl
  | unwritten write => apply hkeeps (Op.reopens_of_starts (Op.starts_of_write write)) rfl
  | counted => apply hkeeps rfl rfl
  | uncounted => apply hkeeps rfl rfl

/-- No call between opening and closing changes the flags. -/
theorem Effect.flags_eq {repo3pc : Bool} {repo repo' : HedRepo} {w w' : World} {op : Op}
    {t : List (Event calls Fate)} {result : Result}
    (h : Effect repo3pc repo w op t result repo' w') (hop : op.inUse = true) :
  repo'.flags = repo.flags
  := by
  have hclosed := congrArg HedRepo.flags (h.closed_eq (Op.opensNothing_of_inUse hop))
  exact hclosed

/-! ### Closing -/

/-- What a client has in use: its handles and the strings, on top of what the process had
acquired before. -/
structure InUse (flags : Flags) (before : Sys) (past : List Invocation) (s : Sys) : Prop where
  sound : Sound s.repo s.world
  live : s.world.live = s.repo.holds ++ strings ++ before.world.live
  misuse : s.world.misuse = before.world.misuse
  flags_eq : s.repo.flags = flags &&& O_ACCMODE
  env_iff : s.repo.env ≠ none ↔ ∀ i ∈ past, i.op.reopens = true → Commits i.trace

theorem inUse_of_opened {repo3pc : Bool} {table : List Bytes} {flags : Flags} {mode : ℕ}
    {before s : Sys} (h : Opened repo3pc table flags mode before.world s.repo s.world) :
  InUse flags before [] s
  := by
  obtain ⟨env, hrepo, -⟩ := h.handle
  constructor
  · apply h.sound
  · apply h.live
  · apply h.misuse
  · rw [hrepo]
    rfl
  · simp [hrepo]

/-- Every call between opening and closing keeps to what the client has in use. -/
theorem InUse.next {repo3pc : Bool} {flags : Flags} {before s s' : Sys}
    {past : List Invocation} {i : Invocation} (h : InUse flags before past s)
    (hinvokes : Invokes repo3pc s i s') (hop : i.op.inUse = true) :
  InUse flags before (past ++ [i]) s'
  := by
  have heffect := hinvokes.effect h.sound
  have hlive := h.live
  rw [List.append_assoc] at hlive
  obtain ⟨hlive', hmisuse⟩ := heffect.keepsRest hop _ hlive
  constructor
  · apply hinvokes.sound h.sound
  · rw [hlive', List.append_assoc]
  · rw [hmisuse, h.misuse]
  · rw [heffect.flags_eq hop, h.flags_eq]
  · rw [heffect.env_iff hop, h.env_iff]
    simp [or_imp, forall_and]

/-- Everything is released: what was acquired since `before` has been released, once, and
with `CONFIG_HED_REPO_3PC` a client that opened for writing leaves no backup file. -/
structure Released (repo3pc : Bool) (flags : Flags) (before s : Sys) : Prop where
  live : s.world.live = before.world.live
  misuse : s.world.misuse = before.world.misuse
  backup : repo3pc = true → flags &&& O_RDWR ≠ 0 → s.world.backup = none

/-- The bit `O_RDWR` is part of the access mode. -/
theorem rdwr_accmode (flags : Flags) :
  flags &&& O_ACCMODE &&& O_RDWR = flags &&& O_RDWR
  := by
  rw [BitVec.and_assoc]
  rfl

section Session

variable {repo3pc : Bool} {table : List Bytes} {flags : Flags} {mode : ℕ}
  {before s s' s'' : Sys} {is : List Invocation} {i : Invocation}

theorem Session.inUse (h : Session repo3pc table flags mode before s is s')
    (hops : ∀ i ∈ is, i.op.inUse = true) :
  InUse flags before is s'
  := by
  have hnext : ∀ past i s₁ s₂, InUse flags before past s₁ → Invokes repo3pc s₁ i s₂ →
      i.op.inUse = true → InUse flags before (past ++ [i]) s₂ ∧ True := by
    intro past i s₁ s₂ hinUse hinvokes hop
    use hinUse.next hinvokes hop
  have halong := h.run.along (I := InUse flags before) (inUse_of_opened h.opened.2) hnext
    (along_iff_forall_mem.mpr hops)
  apply halong.1

/-- With an environment, closing releases everything, if `remove` does not fail. -/
theorem InUse.released_close (h : InUse flags before is s') {w' : World}
    {t : List (Event calls Fate)} (hcloses : Closes s'.repo s'.world t w')
    (hbackup : repo3pc = true → s'.world.backup ≠ none) :
  Released repo3pc flags before ⟨s'.repo.closed, w'⟩
    ↔ (repo3pc = true → flags &&& O_RDWR ≠ 0 → ¬ RemoveFails t)
  := by
  have hrdwr : s'.repo.flags &&& O_RDWR = flags &&& O_RDWR := by
    rw [h.flags_eq, rdwr_accmode]
  constructor
  · intro hreleased h3pc hflags hremove
    have hkept : w'.backup = s'.world.backup := hcloses.kept (Or.inr hremove)
    apply hbackup h3pc
    rw [← hkept]
    apply hreleased.backup h3pc hflags
  · intro hremove
    constructor
    · apply hcloses.live _ h.live
    · rw [hcloses.misuse _ h.live, h.misuse]
    · intro h3pc hflags
      apply hcloses.removed _ (hremove h3pc hflags)
      rw [hrdwr]
      exact hflags

/-- Closing releases everything exactly if every reload and every rollback got as far as its
commit, and the backup file of a client that opened for writing could be removed. -/
theorem released_iff (h : Session repo3pc table flags mode before s is s')
    (hops : ∀ i ∈ is, i.op.inUse = true) (hclose : Invokes repo3pc s' i s'')
    (hop : i.op = .hedRepoClose) :
  Released repo3pc flags before s''
    ↔ (∀ i ∈ is, i.op.reopens = true → Commits i.trace)
      ∧ (repo3pc = true → flags &&& O_RDWR ≠ 0 → ¬ RemoveFails i.trace)
  := by
  have hinUse := h.inUse hops
  have heffect := hclose.effect hinUse.sound
  have hbackup : s'.repo.env ≠ none → repo3pc = true → s'.world.backup ≠ none := by
    rintro henv rfl
    have hbacked := h.backed (fun j hj => Op.opensNothing_of_inUse (hops j hj))
    obtain ⟨file, hfile, -⟩ := hbacked.1.backup henv
    rw [hfile]
    simp
  obtain ⟨repo'', w''⟩ := s''
  rw [← hinUse.env_iff]
  rw [hop] at heffect
  clear hclose
  simp only at heffect
  generalize i.result = result at heffect
  cases heffect with
  | closed env_ne closes =>
      have hiff := hinUse.released_close closes (hbackup env_ne)
      apply hiff.trans
      constructor
      · intro hremove
        exact ⟨env_ne, hremove⟩
      · rintro ⟨-, hremove⟩
        apply hremove
  | unclosed env_none =>
      constructor
      · intro hreleased
        have hlive : s'.world.live = before.world.live := hreleased.live
        have hlength := congrArg List.length (hlive.symm.trans hinUse.live)
        simp [strings] at hlength
        omega
      · rintro ⟨henv, -⟩
        apply (henv env_none).elim
  | read reads => cases reads
  | wrote write => cases write
  | unwritten write => cases write

end Session

/-- A client whose reload finds no memory for an environment. -/
def failedReload : List (Op × List Fate) :=
  [(.hedRepoStart, []), (.hedRepoUpdate [0x75] [1] [2], []), (.hedRepoCommit, []),
    (.hedRepoReload, [.ok, .fail ENOMEM .blank])]

/-- The session of that client. -/
def failedReloadSession : Sys × List Invocation × Sys :=
  (Sys.fresh.playSession true [[0x75]] (O_RDWR ||| O_CREAT ||| O_TRUNC) 0 [] failedReload).get rfl

theorem playSession_failedReload :
  Sys.fresh.playSession true [[0x75]] (O_RDWR ||| O_CREAT ||| O_TRUNC) 0 [] failedReload
    = some failedReloadSession
  := (Option.some_get _).symm

/-- Its close. -/
def failedReloadClose : Invocation :=
  (failedReloadSession.2.2.invoke true .hedRepoClose []).get rfl

theorem invokes_failedReloadClose :
  Invokes true failedReloadSession.2.2 failedReloadClose failedReloadClose.after
  := by
  use ⟨[], (Option.some_get _).symm⟩

theorem released_iff_failedReload :
  Released true (O_RDWR ||| O_CREAT ||| O_TRUNC) Sys.fresh failedReloadClose.after
    ↔ (∀ i ∈ failedReloadSession.2.1, i.op.reopens = true → Commits i.trace)
      ∧ (true = true → (O_RDWR ||| O_CREAT ||| O_TRUNC) &&& O_RDWR ≠ 0 →
        ¬ RemoveFails failedReloadClose.trace)
  := by
  apply released_iff (session_of_play playSession_failedReload) _ invokes_failedReloadClose rfl
  apply ops_of_playSession (P := fun op => op.inUse = true) playSession_failedReload (by decide)

/-- The close returns at once, and the strings and the backup stay. -/
theorem close_after_failed_reload :
  ¬ ∀ (table : List Bytes) (flags : Flags) (mode : ℕ) (before s s' s'' : Sys)
      (is : List Invocation) (i : Invocation),
      Session true table flags mode before s is s' → (∀ i ∈ is, i.op.inUse = true) →
      Invokes true s' i s'' → i.op = .hedRepoClose → Released true flags before s''
  := by
  intro hreleased
  have hops := ops_of_playSession (P := fun op => op.inUse = true)
    playSession_failedReload (by decide)
  have h := hreleased _ _ _ _ _ _ _ _ _ (session_of_play playSession_failedReload) hops
    invokes_failedReloadClose rfl
  have hlive : failedReloadClose.after.world.live ≠ Sys.fresh.world.live := by decide +kernel
  apply hlive h.live

end Hed
