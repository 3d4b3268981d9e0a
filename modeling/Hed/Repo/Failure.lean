import Hed.Repo.Release

/-!
# What failing calls leave behind

A function of `repo.h` that returns an error is to leave things as they were.
`failed_start_iff` says when a `hed_repo_start` that fails does: it empties and rewrites the
backup file before it knows that it succeeds.  `failed_open_iff` says when an opening that
fails releases what it acquired: two of its exits do not.
-/

namespace Hed

open Program

/-! ### A start that fails -/

/-- What a copy of the committed content, with its fate, leaves in the file that it writes. -/
def copyLeaves (content : Option Content) : Fate → Option DataFile
  | .ok => content.map .full
  | .fail _ left => some left

/-- A call left the committed content, the repository and what the backup file holds as they
were. -/
def ChangesNothing (i : Invocation) : Prop :=
  i.after.world.content = i.before.world.content ∧ i.after.repo = i.before.repo
    ∧ i.after.world.backup = i.before.world.backup

/-- The copy that a call made, if it made one, left in the backup file what the file held
before. -/
def CopiesNothingNew (i : Invocation) : Prop :=
  ∀ f, (copies i.trace).getLast? = some f →
    i.before.world.backup = copyLeaves i.before.world.content f

instance (i : Invocation) : Decidable (CopiesNothingNew i) :=
  inferInstanceAs (Decidable (∀ f ∈ (copies i.trace).getLast?,
    i.before.world.backup = copyLeaves i.before.world.content f))

theorem backupOf_eq_iff {c : Content} {b : Option DataFile} {t : List (Event calls Fate)} :
  backupOf c b t = b ↔ ∀ f, (copies t).getLast? = some f → b = copyLeaves (some c) f
  := by
  rw [backupOf]
  cases (copies t).getLast? with
  | none => simp
  | some f =>
      have hleaves : ∀ file, copyLeaves (some c) f = file →
          (file = b ↔ ∀ f', some f = some f' → b = copyLeaves (some c) f') := by
        rintro _ rfl
        simp [eq_comm]
      cases f with
      | ok => apply hleaves _ rfl
      | fail e left => apply hleaves _ rfl

/-- A start that fails changes nothing exactly if it makes no copy, or one that leaves the
backup file as it was. -/
theorem Effect.changesNothing_iff {repo3pc : Bool} {i : Invocation}
    (h : Effect repo3pc i.before.repo i.before.world i.op i.trace i.result i.after.repo
      i.after.world) (hop : i.op = .hedRepoStart) (hret : i.result ≠ .code 0) :
  ChangesNothing i ↔ CopiesNothingNew i
  := by
  obtain ⟨⟨repo, w⟩, op, t, result, ⟨repo', w'⟩⟩ := i
  obtain rfl : op = .hedRepoStart := hop
  simp only at h
  cases h with
  | started => apply (hret rfl).elim
  | @unstarted t ret c env_ne txn_none content ret_ne dirty =>
      have hsame : World.content { w with backup := backupOf c w.backup t } = w.content := rfl
      simp only [ChangesNothing, CopiesNothingNew, hsame, true_and, content]
      apply backupOf_eq_iff
  | read reads => cases reads
  | wrote write => cases write
  | unwritten write => cases write

/-- In every session, a start that fails changes nothing exactly if the copy that it made
left the backup file as it was. -/
theorem failed_start_iff {table : List Bytes} {flags : Flags} {mode : ℕ} {before s s' : Sys}
    {is : List Invocation} (h : Session true table flags mode before s is s') :
  ∀ i ∈ is, i.op = .hedRepoStart → i.result ≠ .code 0 →
    (ChangesNothing i ↔ CopiesNothingNew i)
  := by
  intro i hi
  apply (h.effects i hi).changesNothing_iff

/-- What a copy has written when it fails early, and when it fails later. -/
def firstPart : DataFile := .torn [0x0] (by decide)

def longerPart : DataFile := .torn [0x0, 0x1] (by decide)

/-- A client that starts and aborts, fails to begin a transaction, commits a record, and fails
to start again: it cannot create the backup file, and then two copies fail in the middle.  At
last it rolls back. -/
def failingStarts : List (Op × List Fate) :=
  [(.hedRepoStart, []), (.hedRepoAbort, []), (.hedRepoStart, [.ok, .ok, .ok, .fail ENOMEM .blank]),
    (.hedRepoStart, []), (.hedRepoUpdate [0x75] [1] [2], []), (.hedRepoCommit, []),
    (.hedRepoStart, [.fail EACCES .blank]), (.hedRepoStart, [.ok, .fail EIO firstPart]),
    (.hedRepoStart, [.ok, .fail EIO longerPart]), (.hedRepoRollback, [])]

/-- The session of that client. -/
def failingSession : Sys × List Invocation × Sys :=
  (Sys.fresh.playSession true [[0x75]] (O_RDWR ||| O_CREAT ||| O_TRUNC) 0 [] failingStarts).get
    (by decide +kernel)

theorem playSession_failingStarts :
  Sys.fresh.playSession true [[0x75]] (O_RDWR ||| O_CREAT ||| O_TRUNC) 0 [] failingStarts
    = some failingSession
  := (Option.some_get _).symm

/-- Its starts that fail, one after another. -/
def unbegunStart : Invocation := failingSession.2.1.get ⟨2, by decide +kernel⟩

def uncreatedStart : Invocation := failingSession.2.1.get ⟨6, by decide +kernel⟩

def tornStart : Invocation := failingSession.2.1.get ⟨7, by decide +kernel⟩

def tornAgainStart : Invocation := failingSession.2.1.get ⟨8, by decide +kernel⟩

/-- The first of them copies what the backup file holds already, and the second one nothing:
they change nothing.  The other two leave parts of copies. -/
theorem failed_start_iff_failingStarts :
  ChangesNothing unbegunStart ∧ ChangesNothing uncreatedStart ∧ ¬ ChangesNothing tornStart
    ∧ ¬ ChangesNothing tornAgainStart
  := by
  have hiff := failed_start_iff (session_of_play playSession_failingStarts)
  have hunbegun := hiff unbegunStart (List.get_mem _ _) (by decide +kernel) (by decide +kernel)
  have huncreated := hiff uncreatedStart (List.get_mem _ _) (by decide +kernel)
    (by decide +kernel)
  have htorn := hiff tornStart (List.get_mem _ _) (by decide +kernel) (by decide +kernel)
  have htornAgain := hiff tornAgainStart (List.get_mem _ _) (by decide +kernel)
    (by decide +kernel)
  rw [hunbegun, huncreated, htorn, htornAgain]
  decide +kernel

/-- The start whose copy fails leaves part of it in the backup file, which held the rollback
point; the next one leaves another part there; and the rollback puts that in the place of the
data file, which then cannot be read. -/
theorem failed_start_tears_backup :
  ¬ (∀ (table : List Bytes) (flags : Flags) (mode : ℕ) (before s s' : Sys)
      (is : List Invocation), Session true table flags mode before s is s' →
      ∀ i ∈ is, i.op = .hedRepoStart → i.result ≠ .code 0 → ChangesNothing i)
    ∧ DataFile.content tornStart.before.world.backup
      = rollbackPoint failingSession.1 (failingSession.2.1.take 7)
    ∧ tornStart.after.world.backup = some firstPart
    ∧ tornAgainStart.after.world.backup = some longerPart
    ∧ failingSession.2.2.world.content = none
  := by
  have hbackup : tornStart.before.world.backup ≠ tornStart.after.world.backup := by
    decide +kernel
  constructor
  · intro hchanges
    have hstart := hchanges _ _ _ _ _ _ _ (session_of_play playSession_failingStarts) tornStart
      (List.get_mem _ _) (by decide +kernel) (by decide +kernel)
    apply hbackup hstart.2.2.symm
  · decide +kernel

/-! ### An opening that fails -/

/-- Handing the name of the backup file over to its string failed. -/
def CedeFails (t : List (Event calls Fate)) : Prop :=
  ∃ e ∈ t, e.call = .strollLvstrInitCede .backup ∧ e.fate ≠ .ok

@[simp]
theorem cedeFails_append {t t' : List (Event calls Fate)} :
  CedeFails (t ++ t') ↔ CedeFails t ∨ CedeFails t'
  := by
  simp only [CedeFails, List.mem_append, or_and_right, exists_or]

@[simp]
theorem cedeFails_cons {e : Event calls Fate} {t : List (Event calls Fate)} :
  CedeFails (e :: t)
    ↔ (e.call = .strollLvstrInitCede .backup ∧ e.fate ≠ .ok) ∨ CedeFails t
  := by
  simp only [CedeFails, List.mem_cons, or_and_right, exists_or, exists_eq_left]

@[simp]
theorem not_cedeFails_nil :
  ¬ CedeFails []
  := by
  rintro ⟨e, ⟨⟩, -⟩

theorem not_cedeFails_of_onEnv {t : List (Event calls Fate)} (h : ∀ e ∈ t, Call.OnEnv e.call) :
  ¬ CedeFails t
  := by
  rintro ⟨e, he, hcall, -⟩
  have hon := h e he
  rw [hcall] at hon
  apply hon

/-- The repository has no handles, and everything acquired since the world `w` has been
released, once, and nothing else. -/
structure Unwound (w : World) (repo' : HedRepo) (w' : World) : Prop where
  env : repo'.env = none
  txn : repo'.txn = none
  live : w'.live = w.live
  misuse : w'.misuse = w.misuse

/-- What every execution of a function that returns an error satisfies. -/
def OnError (p : Repo (ℤ × HedRepo)) (w : World)
    (Q : List (Event calls Fate) → HedRepo → World → Prop) : Prop :=
  ∀ fates ret repo', (exec handle p fates w).value = some (ret, repo') → ret ≠ 0 →
    Q (exec handle p fates w).trace repo' (exec handle p fates w).world

theorem onError_of_wp {p : Repo (ℤ × HedRepo)} {w : World}
    {Q : List (Event calls Fate) → HedRepo → World → Prop}
    (h : wp handle p (fun t r w' => r.1 ≠ 0 → Q t r.2 w') w) :
  OnError p w Q
  := by
  intro fates ret repo' hvalue
  apply (wp_iff_exec handle p _ w).mp h fates (ret, repo') hvalue

/-- Releasing the two strings of a repository that were acquired last. -/
theorem release_strings {w w' : World} (h : w'.live = strings ++ w.live) :
  ((w'.release (.lvstr .path)).release (.lvstr .backup)).live = w.live
    ∧ ((w'.release (.lvstr .path)).release (.lvstr .backup)).misuse = w'.misuse
  := by
  have hpath := World.release_live_cons h
  use World.release_live_cons hpath
  rw [World.release_misuse_cons hpath, World.release_misuse_cons h]

/-- A name of the backup file that its string did not take is not released. -/
theorem not_unwound_of_block {w : World} {repo' : HedRepo} :
  ¬ Unwound w repo' ((w.acquire .block).release (.lvstr .backup))
  := by
  intro h
  have hlive := h.live
  rw [World.release] at hlive
  split_ifs at hlive with hmem
  · have hblock : Resource.block ≠ .lvstr .backup := by decide
    have herase : (Resource.block :: w.live).erase (.lvstr .backup)
        = .block :: w.live.erase (.lvstr .backup) := List.erase_cons_tail (by simp)
    have hcons : Resource.block :: w.live.erase (.lvstr .backup) = w.live := herase.symm.trans hlive
    have hcount := congrArg (List.count Resource.block) hcons
    rw [List.count_cons_self, List.count_erase_of_ne hblock] at hcount
    omega
  · have hlength := congrArg List.length hlive
    simp [World.acquire] at hlength

/-- A `hed_repo_open` that fails unwinds exactly if neither handing over the name of the
backup file nor the commit fails. -/
theorem hedRepoOpen_unwinds (repo3pc : Bool) (table : List Bytes) (flags : Flags) (mode : ℕ)
    (w : World) :
  wp handle (hedRepoOpen repo3pc table flags mode)
    (fun t r w' => r.1 ≠ 0 → (Unwound w r.2 w' ↔ ¬ CedeFails t ∧ ¬ Commits t)) w
  := by
  rw [hedRepoOpen, wp_require_bind]
  intro _
  rw [wp_require_bind]
  intro _
  rw [wp_require_bind]
  intro _
  rw [wp_bind, wp_malloc]
  constructor
  · rw [if_neg (by simp), wp_bind, wp_strollLvstrInitCede]
    constructor
    · rw [rc, if_neg (by simp), wp_bind, wp_strollLvstrInitDup, World.release_acquire]
      constructor
      · rw [rc, if_neg (by simp)]
        apply wp_bind_of handle (wp_calls handle (calls_repoOpen _ _ _)
          (repoOpen_spec repo3pc (HedRepo.init table flags mode) flags
            ((w.acquire (.lvstr .backup)).acquire (.lvstr .path))))
        rintro t ⟨ret, repo⟩ w' ⟨hopens, hcalls⟩
        have hcede := not_cedeFails_of_onEnv hcalls
        cases hopens with
        | failed ret_ne content live misuse commits backup cause =>
            rw [if_pos ret_ne]
            intro f f' _
            obtain ⟨hlive, hmisuse⟩ := release_strings (w := w) live
            apply iff_of_true
            · exact ⟨rfl, rfl, hlive, hmisuse.trans misuse⟩
            · simp [hcede, commits]
        | unpublished ret_ne env_flags before setup content live misuse commits =>
            rw [if_pos ret_ne]
            intro f f' _
            apply iff_of_false
            · intro h
              cases h.env
            · simp [commits]
        | opened =>
            rw [if_neg (by simp)]
            intro hret
            apply (hret rfl).elim
      · intro e left
        rw [rc, if_pos e.ne_zero]
        intro f _
        apply iff_of_true
        · use rfl, rfl
          · apply World.release_live_cons rfl
          · apply World.release_misuse_cons rfl
        · simp
    · intro e left
      rw [rc, if_pos e.ne_zero]
      intro f _
      apply iff_of_false not_unwound_of_block
      simp
  · intro e left _
    apply iff_of_true
    · exact ⟨rfl, rfl, rfl, rfl⟩
    · simp

/-- The repository has no handles, and those that it had in the world `w` have been released,
and nothing else; what has been acquired since, as well. -/
structure Shut (repo : HedRepo) (w : World) (repo' : HedRepo) (w' : World) : Prop where
  env : repo'.env = none
  txn : repo'.txn = none
  live : ∀ rest, w.live = repo.holds ++ rest → w'.live = rest
  misuse : ∀ rest, w.live = repo.holds ++ rest → w'.misuse = w.misuse

/-- Opening again after the handles have been released. -/
theorem Opens.shut_iff {repo3pc : Bool} {repo : HedRepo} {flags : Flags} {w w₁ w₂ w' : World}
    {t : List (Event calls Fate)} {r : ℤ × HedRepo} (hfrees : Frees repo w w₁)
    (hlive : w₂.live = w₁.live) (hmisuse : w₂.misuse = w₁.misuse)
    (h : Opens repo3pc repo.closed flags w₂ t r w') (hret : r.1 ≠ 0) :
  Shut repo w r.2 w' ↔ ¬ Commits t
  := by
  have hkeeps := hfrees.keepsRest hlive hmisuse h
  cases h with
  | failed ret_ne content live misuse commits =>
      apply iff_of_true _ commits
      use rfl, rfl
      · intro rest hrest
        apply (hkeeps rest hrest).1
      · intro rest hrest
        apply (hkeeps rest hrest).2
  | unpublished ret_ne env_flags before setup content live misuse commits =>
      apply iff_of_false
      · intro h
        cases h.env
      · apply not_not.mpr commits
  | opened => apply (hret rfl).elim

/-- A reload that fails leaves no handles exactly if it does not get as far as its commit. -/
theorem hedRepoReload_shut (repo3pc : Bool) (repo : HedRepo) (w : World) :
  wp handle (hedRepoReload repo3pc repo)
    (fun t r w' => r.1 ≠ 0 → (Shut repo w r.2 w' ↔ ¬ Commits t)) w
  := by
  apply wp_mono handle (hedRepoReload_spec repo3pc repo w)
  rintro t r w' ⟨-, -, w'', hfrees, hopens⟩ hret
  apply hopens.shut_iff hfrees rfl rfl hret

/-- The same of a rollback. -/
theorem hedRepoRollback_shut (repo : HedRepo) (w : World) :
  wp handle (hedRepoRollback repo)
    (fun t r w' => r.1 ≠ 0 → (Shut repo w r.2 w' ↔ ¬ Commits t)) w
  := by
  apply wp_mono handle (hedRepoRollback_spec repo w)
  rintro t r w' ⟨-, -, f, t', w'', hrollback, hfrees, hopens⟩ hret
  obtain ⟨hlive, hmisuse⟩ := rename_keeps f w''
  rw [hrollback.commits_iff]
  apply hopens.shut_iff hfrees hlive hmisuse hret

/-- An opening that fails releases everything it acquired, and nothing else, exactly if
neither handing over the name of the backup file nor the commit fails; opening again that
fails, exactly if the commit does not. -/
theorem failed_open_iff (repo3pc : Bool) :
  (∀ (table : List Bytes) (flags : Flags) (mode : ℕ) (w : World),
      OnError (hedRepoOpen repo3pc table flags mode) w
        (fun t repo' w' => Unwound w repo' w' ↔ ¬ CedeFails t ∧ ¬ Commits t))
    ∧ (∀ (repo : HedRepo) (w : World),
      OnError (hedRepoReload repo3pc repo) w
        (fun t repo' w' => Shut repo w repo' w' ↔ ¬ Commits t))
    ∧ (∀ (repo : HedRepo) (w : World),
      OnError (hedRepoRollback repo) w
        (fun t repo' w' => Shut repo w repo' w' ↔ ¬ Commits t))
  := by
  constructor
  · intro table flags mode w
    apply onError_of_wp
    apply hedRepoOpen_unwinds
  · constructor
    · intro repo w
      apply onError_of_wp
      apply hedRepoReload_shut
    · intro repo w
      apply onError_of_wp
      apply hedRepoRollback_shut

/-- Opening a new repository of one table, with the given fates. -/
def openFresh (fates : List Fate) : Program.Outcome calls Fate World (ℤ × HedRepo) :=
  exec handle (hedRepoOpen true [[0x75]] (O_RDWR ||| O_CREAT ||| O_TRUNC) 0) fates Sys.fresh.world

/-- The seventeenth call of opening, the commit, fails. -/
def unpublishedOpen : List Fate := List.replicate 16 .ok ++ [.fail EIO .blank]

/-- The second call of opening, handing over the name of the backup file, fails. -/
def uncededOpen : List Fate := [.ok, .fail ENOMEM .blank]

/-- The repository that the failed commit leaves. -/
def unpublishedRepo : HedRepo :=
  ((openFresh unpublishedOpen).value.get (by decide +kernel)).2

theorem openFresh_unpublishedOpen :
  (openFresh unpublishedOpen).value = some (5, unpublishedRepo)
  := by
  decide +kernel

theorem failed_open_iff_unpublishedOpen :
  Unwound Sys.fresh.world unpublishedRepo (openFresh unpublishedOpen).world
    ↔ ¬ CedeFails (openFresh unpublishedOpen).trace ∧ ¬ Commits (openFresh unpublishedOpen).trace
  := by
  apply (failed_open_iff true).1 _ _ _ _ _ 5 _ openFresh_unpublishedOpen
  decide

/-- When its commit fails, `hed_repo_open` leaves its environment open, in the repository; when
handing over the name of the backup file fails, it leaves that name allocated and releases a
string that holds nothing. -/
theorem failed_open_leaks :
  ¬ (∀ (table : List Bytes) (flags : Flags) (mode : ℕ) (w : World),
      OnError (hedRepoOpen true table flags mode) w (fun _ repo' w' => Unwound w repo' w'))
    ∧ (unpublishedRepo.env.isSome = true ∧ (openFresh unpublishedOpen).world.live = [.env 0])
    ∧ (openFresh uncededOpen).value.map Prod.fst = some 12
    ∧ (openFresh uncededOpen).world.live = [.block]
    ∧ (openFresh uncededOpen).world.misuse = true
  := by
  have henv : unpublishedRepo.env.isSome = true := by decide +kernel
  constructor
  · intro hunwound
    have hnone := (hunwound _ _ _ _ _ 5 _ openFresh_unpublishedOpen (by decide)).env
    rw [hnone] at henv
    cases henv
  · refine ⟨⟨henv, ?_⟩, ?_, ?_, ?_⟩
    · decide +kernel
    · decide +kernel
    · decide +kernel
    · decide +kernel

/-! ### A count that fails -/

/-- What the two LMDB calls of `hed_repo_count`, with their fates, come to: the number of
records, or the first error. -/
def lmdbCount (txn : Txn) (table : Bytes) (f f' : Fate) : Except Errno ℕ :=
  match f with
  | .fail e _ => .error e
  | .ok =>
      match txn.dbiOpen table 0 with
      | .error e => .error e
      | .ok (dbi, txn) =>
          match f' with
          | .fail e _ => .error e
          | .ok => .ok (txn.entries dbi)

/-- The fate of a call of the trace. -/
def fateAt (t : List (Event calls Fate)) (k : ℕ) : Fate := (t.map Event.fate).getD k .ok

/-- The result is a count exactly if the calls came to one, and then it is the number of
records of the table. -/
def Counts (txn : Txn) (table : Bytes) (came : Except Errno ℕ) (ret : ℤ) : Prop :=
  (0 ≤ ret ↔ ∃ n, came = .ok n)
    ∧ ∀ n, came = .ok n → ∃ t, txn.content.get table = some t ∧ ret = t.size

section Count

variable {repo : HedRepo} {txn : Txn} (htxn : repo.txn = some txn) (table : Bytes) (w : World)

/-- A table that opens without being created exists, and nothing changes. -/
theorem Txn.dbiOpen_eq_ok {txn' : Txn} {table dbi : Bytes}
    (h : txn.dbiOpen table 0 = .ok (dbi, txn')) :
  dbi = table ∧ txn' = txn ∧ ∃ t, txn.content.get table = some t
  := by
  rw [dbiOpen] at h
  split_ifs at h with hempty hsome hcreate hro
  · cases h
    exact ⟨rfl, rfl, Option.isSome_iff_exists.mp hsome⟩
  · apply (hcreate (by decide)).elim

include htxn in
/-- `hed_repo_count` returns the number of records, or the negation of the error. -/
theorem hedRepoCount_returns :
  wp handle (hedRepoCount repo table)
    (fun t r _ =>
      (∃ records : Table, txn.content.get table = some records
        ∧ lmdbCount txn table (fateAt t 0) (fateAt t 1) = .ok records.size
        ∧ r.1 = records.size)
      ∨ ∃ e, lmdbCount txn table (fateAt t 0) (fateAt t 1) = .error e ∧ r.1 = -e.code)
    w
  := by
  rw [hedRepoCount, repoDbiOpen, wp_bind, wp_demand_bind]
  intro env _
  rw [wp_demand_bind]
  intro txn' htxn'
  obtain rfl := Option.some.inj (htxn.symm.trans htxn')
  rw [wp_mdbDbiOpen]
  constructor
  · cases hopen : txn.dbiOpen table 0 with
    | error e =>
        have hcame : ∀ f', lmdbCount txn table .ok f' = .error e := by
          intro f'
          rw [lmdbCount, hopen]
        right
        exact ⟨e, hcame _, rfl⟩
    | ok r =>
        obtain ⟨dbi, txn'⟩ := r
        obtain ⟨rfl, rfl, records, hrecords⟩ := Txn.dbiOpen_eq_ok hopen
        have hentries : txn'.entries dbi = records.size := by
          rw [Txn.entries, hrecords]
          rfl
        rw [wp_bind, wp_mdbStat]
        constructor
        · have hcame : lmdbCount txn' dbi .ok .ok = .ok records.size := by
            rw [lmdbCount, hopen, ← hentries]
          left
          rw [hentries]
          exact ⟨records, hrecords, hcame, rfl⟩
        · intro e left
          have hcame : lmdbCount txn' dbi .ok (.fail e left) = .error e := by
            rw [lmdbCount, hopen]
          right
          exact ⟨e, hcame, rfl⟩
  · intro e left
    right
    exact ⟨e, rfl, rfl⟩

/-- A result that is the number of records, or the negation of an error, counts exactly if
the error, when there is one, is a positive code. -/
theorem counts_iff {came : Except Errno ℕ} {ret : ℤ}
    (h : (∃ records : Table, txn.content.get table = some records ∧ came = .ok records.size
        ∧ ret = records.size) ∨ ∃ e, came = .error e ∧ ret = -e.code) :
  Counts txn table came ret ↔ ∀ e, came = .error e → 0 < e.code
  := by
  rcases h with ⟨records, hrecords, rfl, rfl⟩ | ⟨e, rfl, rfl⟩
  · apply iff_of_true
    · constructor
      · apply iff_of_true (by omega) ⟨_, rfl⟩
      · intro n hn
        obtain rfl := Except.ok.inj hn
        use records, hrecords
    · rintro e ⟨⟩
  · have hne := e.ne_zero
    constructor
    · rintro ⟨hcount, -⟩ e' he'
      obtain rfl := Except.error.inj he'
      by_contra hpos
      obtain ⟨n, hn⟩ := hcount.mp (by omega)
      cases hn
    · intro hpos
      have he := hpos e rfl
      constructor
      · apply iff_of_false (by omega)
        rintro ⟨n, ⟨⟩⟩
      · rintro n ⟨⟩

include htxn in
/-- In every execution `hed_repo_count` counts exactly if the error of its LMDB calls, when
there is one, is a positive code. -/
theorem count_iff (fates : List Fate) (ret : ℤ) (repo' : HedRepo)
    (h : (exec handle (hedRepoCount repo table) fates w).value = some (ret, repo')) :
  let t := (exec handle (hedRepoCount repo table) fates w).trace
  let came := lmdbCount txn table (fateAt t 0) (fateAt t 1)
  Counts txn table came ret ↔ ∀ e, came = .error e → 0 < e.code
  := by
  intro t came
  apply counts_iff
  apply (wp_iff_exec handle _ _ w).mp (hedRepoCount_returns htxn table w) fates _ h

end Count

/-- A client that opens a repository with a table that it lists twice, and writes a record to it
in a transaction. -/
def countingSession : Sys × List Invocation × Sys :=
  (Sys.fresh.playSession true [[0x75], [0x75]] (O_RDWR ||| O_CREAT ||| O_TRUNC) 0 []
    [(.hedRepoStart, []), (.hedRepoUpdate [0x75] [1] [2], [])]).get (by decide +kernel)

/-- Where it is then, and its transaction. -/
def counting : Sys := countingSession.2.2

def countingTxn : Txn := counting.repo.txn.get (by decide +kernel)

theorem counting_txn :
  counting.repo.txn = some countingTxn
  := (Option.some_get _).symm

/-- What `hed_repo_count` returns there of a table, given the fates of its calls. -/
def countOf (table : Bytes) (fates : List Fate) : Option (ℤ × HedRepo) :=
  (exec handle (hedRepoCount counting.repo table) fates counting.world).value

/-- Of a table that does not exist, `hed_repo_count` returns 30798. -/
theorem missing_table_counted :
  ¬ (∀ (repo : HedRepo) (txn : Txn) (table : Bytes) (w : World) (fates : List Fate) (ret : ℤ)
      (repo' : HedRepo), repo.txn = some txn →
      (exec handle (hedRepoCount repo table) fates w).value = some (ret, repo') →
      let t := (exec handle (hedRepoCount repo table) fates w).trace
      Counts txn table (lmdbCount txn table (fateAt t 0) (fateAt t 1)) ret)
    ∧ countOf [0x76] [] = some (30798, counting.repo)
  := by
  have hvalue : countOf [0x76] [] = some (30798, counting.repo) := by decide +kernel
  constructor
  · intro hcounts
    obtain ⟨n, hn⟩ := (hcounts _ _ _ _ [] _ _ counting_txn hvalue).1.mp (by decide)
    have hmissing : lmdbCount countingTxn [0x76] .ok .ok = .error MDB_NOTFOUND := by
      decide +kernel
    have hn' : lmdbCount countingTxn [0x76] .ok .ok = .ok n := hn
    rw [hmissing] at hn'
    cases hn'
  · apply hvalue

/-- The record is counted, a system error is no count, and the error of the table that does not
exist is taken for one. -/
theorem count_iff_counting :
  Counts countingTxn [0x75] (lmdbCount countingTxn [0x75] .ok .ok) 1
    ∧ Counts countingTxn [0x75] (lmdbCount countingTxn [0x75] (.fail EIO .blank) .ok) (-5)
    ∧ ¬ Counts countingTxn [0x76] (lmdbCount countingTxn [0x76] .ok .ok) 30798
  := by
  have hiff := fun table => count_iff counting_txn table counting.world
  have hcounted : lmdbCount countingTxn [0x75] .ok .ok = .ok 1 := by decide +kernel
  have hmissing : lmdbCount countingTxn [0x76] .ok .ok = .error MDB_NOTFOUND := by
    decide +kernel
  constructor
  · apply (hiff [0x75] [] 1 counting.repo (by decide +kernel)).mpr
    intro e he
    cases hcounted.symm.trans he
  constructor
  · apply (hiff [0x75] [.fail EIO .blank] (-5) counting.repo (by decide +kernel)).mpr
    intro e he
    obtain rfl : EIO = e := Except.error.inj he
    decide
  · apply mt (hiff [0x76] [] 30798 counting.repo (by decide +kernel)).mp
    intro hpos
    have hcode := hpos MDB_NOTFOUND hmissing
    exact absurd hcode (by decide)

end Hed
