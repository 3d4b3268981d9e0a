import Hed.Repo.Publish

/-!
# What a rollback restores

With `CONFIG_HED_REPO_3PC` a client that rolls back wants the content back it last started a
transaction on.  What it gets is the content of the backup file, and that file is written by
every start: by those of the client, failed ones included, and by the one hidden in opening,
reloading and rolling back.  `rollback_restores_iff` says exactly when the two are the same.
-/

namespace Hed

open Program

/-! ### Tables that stay -/

/-- The tables of the repository exist, in the committed content and in the transaction. -/
structure Complete (table : List Bytes) (repo : HedRepo) (w : World) : Prop where
  table_eq : repo.table = table
  committed : repo.env ≠ none → ∃ c, w.content = some c ∧ c.HasAll table
  working : ∀ txn, repo.txn = some txn → txn.content.HasAll table

/-- Opening again keeps the tables, if it gets as far as its commit. -/
theorem Opens.complete {repo3pc : Bool} {repo : HedRepo} {w w' : World}
    {t : List (Event calls Fate)} {r : ℤ × HedRepo} (henv : repo.env = none)
    (htxn : repo.txn = none) (h : Opens repo3pc repo repo.flags w t r w') :
  Complete repo.table r.2 w'
  := by
  have hnone : ∀ txn, r.2.txn = some txn → txn.content.HasAll repo.table := by
    intro txn h'
    rw [h.txn_eq, htxn] at h'
    cases h'
  cases h with
  | failed ret_ne content =>
      constructor
      · rfl
      · intro h
        apply (h henv).elim
      · apply hnone
  | unpublished ret_ne env_flags before setup content =>
      constructor
      · rfl
      · intro _
        have hall := Content.hasAll_setup setup
        obtain rfl := Content.setup_of_accmode repo.flags_accmode setup
        exact ⟨_, content, hall⟩
      · apply hnone
  | opened env_flags before setup content =>
      constructor
      · rfl
      · intro _
        exact ⟨_, content, Content.hasAll_setup setup⟩
      · apply hnone

/-- The operations of a client that does not open again. -/
def Op.opensNothing : Op → Bool
  | .hedRepoOpen _ _ _ => false
  | _ => true

theorem Opens.closed_eq {repo3pc : Bool} {repo : HedRepo} {flags : Flags} {w w' : World}
    {t : List (Event calls Fate)} {r : ℤ × HedRepo} (h : Opens repo3pc repo flags w t r w') :
  r.2.closed = repo.closed
  := by
  cases h with
  | failed => rfl
  | unpublished => rfl
  | opened => rfl

/-- A call that opens nothing changes the handles of the repository and nothing else of it. -/
theorem Effect.closed_eq {repo3pc : Bool} {repo repo' : HedRepo} {w w' : World} {op : Op}
    {t : List (Event calls Fate)} {result : Result}
    (h : Effect repo3pc repo w op t result repo' w') (hop : op.opensNothing = true) :
  repo'.closed = repo.closed
  := by
  cases h with
  | opened => cases hop
  | unopened => cases hop
  | reloaded env_ne txn_none frees opens => exact opens.closed_eq
  | rolledBack env_ne txn_none frees has3pc rollback opens => exact opens.closed_eq
  | _ => rfl

theorem grows_write {op : Op} {f : Content → Option Content} (h : op.write = some f)
    {c c' : Content} (hc : f c = some c') :
  c.Grows c'
  := by
  cases op with
  | hedRepoUpdate table key value =>
      obtain rfl := Option.some.inj h
      apply Content.grows_update hc
  | hedRepoDel table key =>
      obtain rfl := Option.some.inj h
      apply Content.grows_delete hc
  | hedRepoSetVersion value =>
      obtain rfl := Option.some.inj h
      apply Content.grows_update hc
  | _ => cases h

/-- Nothing a client does in a session removes a table. -/
theorem Effect.complete {repo3pc : Bool} {repo repo' : HedRepo} {w w' : World} {op : Op}
    {t : List (Event calls Fate)} {result : Result} {table : List Bytes}
    (hcomplete : Complete table repo w)
    (h : Effect repo3pc repo w op t result repo' w') (hop : op.opensNothing = true) :
  Complete table repo' w'
  := by
  have hends : ∀ w'' : World, (repo.env ≠ none → ∃ c, w''.content = some c ∧ c.HasAll table) →
      Complete table { repo with txn := none } w'' := by
    intro w'' hw
    use hcomplete.table_eq, hw
    rintro txn ⟨⟩
  have hworks : ∀ {txn : Txn} {c : Content}, repo.txn = some txn → txn.content.Grows c →
      Complete table (repo.work txn c) w := by
    intro txn c htxn hgrows
    use hcomplete.table_eq, hcomplete.committed
    rintro _ ⟨⟩
    apply hgrows.hasAll (hcomplete.working txn htxn)
  cases h with
  | opened => cases hop
  | unopened => cases hop
  | closed env_ne closes =>
      use hcomplete.table_eq
      · intro h
        apply (h rfl).elim
      · rintro txn ⟨⟩
  | unclosed => apply hcomplete
  | reloaded env_ne txn_none frees opens =>
      rw [← hcomplete.table_eq]
      apply opens.complete rfl rfl
  | rolledBack env_ne txn_none frees has3pc rollback opens =>
      rw [← hcomplete.table_eq]
      apply opens.complete rfl rfl
  | started env_ne txn_none content =>
      obtain ⟨c, hc, hall⟩ := hcomplete.committed env_ne
      obtain rfl := Option.some.inj (content.symm.trans hc)
      use hcomplete.table_eq
      · intro _
        rw [World.began_content, World.backedUp_content]
        exact ⟨_, hc, hall⟩
      · rintro _ ⟨⟩
        apply hall
  | unstarted env_ne txn_none content =>
      use hcomplete.table_eq, hcomplete.committed, hcomplete.working
  | committed txn_eq content =>
      apply hends
      intro _
      exact ⟨_, content, hcomplete.working _ txn_eq⟩
  | uncommitted txn_eq ret_ne content =>
      apply hends
      rw [content]
      apply hcomplete.committed
  | aborted txn_eq =>
      apply hends
      rw [World.release_content]
      apply hcomplete.committed
  | read => apply hcomplete
  | wrote write txn_eq content => apply hworks txn_eq (grows_write write content)
  | unwritten => apply hcomplete
  | counted txn_eq record length content => apply hworks txn_eq (Content.grows_update content)
  | uncounted => apply hcomplete

/-! ### The history of the backup -/

/-- The content a client wants back when it rolls back: the committed one when its most
recent `hed_repo_start` returned zero, or when `hed_repo_open` returned, in the system `s`. -/
def rollbackPoint (s : Sys) (past : List Invocation) : Option Content :=
  past.foldl (fun point i =>
    if i.op = .hedRepoStart ∧ i.result = .code 0 then i.after.world.content else point)
    s.world.content

/-- The operations that start a transaction, the client's or that of `repo_open`. -/
def Op.starts : Op → Bool
  | .hedRepoReload => true
  | .hedRepoRollback => true
  | .hedRepoStart => true
  | _ => false

theorem Op.starts_of_reads {op : Op} (h : op.reads = true) :
  op.starts = false
  := by
  cases op with
  | hedRepoReload => cases h
  | hedRepoRollback => cases h
  | hedRepoStart => cases h
  | _ => rfl

theorem Op.starts_of_write {op : Op} {f : Content → Option Content} (h : op.write = some f) :
  op.starts = false
  := by
  cases op with
  | hedRepoReload => cases h
  | hedRepoRollback => cases h
  | hedRepoStart => cases h
  | _ => rfl

theorem Effect.env_of_start {repo3pc : Bool} {repo repo' : HedRepo} {w w' : World}
    {t : List (Event calls Fate)} {result : Result}
    (h : Effect repo3pc repo w .hedRepoStart t result repo' w') :
  repo'.env ≠ none
  := by
  cases h with
  | started env_ne => apply env_ne
  | unstarted env_ne => apply env_ne
  | read reads => cases reads
  | wrote write => cases write
  | unwritten write => cases write

/-- The content the last start copied to the backup file, whoever started and whether or not
the start succeeded; of a copy that failed, what it left.  `before` is the system before the
opening, which made the first copy. -/
def lastCopy (before : Sys) (past : List Invocation) : Option Content :=
  past.foldl (fun copy i =>
    if i.op.starts = true then
      match (copies i.trace).getLast? with
      | none => copy
      | some .ok => i.after.world.content
      | some (.fail _ left) => DataFile.content (some left)
    else copy)
    before.world.content

theorem rollbackPoint_snoc (s : Sys) (past : List Invocation) (i : Invocation) :
  rollbackPoint s (past ++ [i])
    = if i.op = .hedRepoStart ∧ i.result = .code 0 then i.after.world.content
      else rollbackPoint s past
  := by
  simp only [rollbackPoint, List.foldl_append, List.foldl_cons, List.foldl_nil]

theorem lastCopy_snoc_of_not_starts (before : Sys) (past : List Invocation) {i : Invocation}
    (h : i.op.starts = false) :
  lastCopy before (past ++ [i]) = lastCopy before past
  := by
  simp only [lastCopy, List.foldl_append, List.foldl_cons, List.foldl_nil, h,
    Bool.false_eq_true, if_false]

theorem lastCopy_snoc_of_starts (before : Sys) (past : List Invocation) {i : Invocation}
    (h : i.op.starts = true) :
  lastCopy before (past ++ [i])
    = match (copies i.trace).getLast? with
      | none => lastCopy before past
      | some .ok => i.after.world.content
      | some (.fail _ left) => DataFile.content (some left)
  := by
  simp only [lastCopy, List.foldl_append, List.foldl_cons, List.foldl_nil, h, if_true]

/-- What a client relies on when it rolls back: the backup file holds the last copy, and the
rollback point has all tables. -/
structure Backed (table : List Bytes) (before s₀ : Sys) (past : List Invocation) (s : Sys) :
    Prop where
  sound : Sound s.repo s.world
  complete : Complete table s.repo s.world
  backup : s.repo.env ≠ none →
    ∃ file, s.world.backup = some file ∧ DataFile.content (some file) = lastCopy before past
  point : ∃ c, rollbackPoint s₀ past = some c ∧ c.HasAll table

/-- A successful opening is the first rollback point, and its start has made the first copy. -/
theorem backed_of_opened {table : List Bytes} {flags : Flags} {mode : ℕ} {before s : Sys}
    (h : Opened true table flags mode before.world s.repo s.world) :
  Backed table before s [] s
  := by
  obtain ⟨env, hrepo, hflags⟩ := h.handle
  obtain ⟨c, c', hc, hsetup, hc', hbackup⟩ := h.content
  have hall : c'.HasAll table := Content.hasAll_setup hsetup
  constructor
  · apply h.sound
  · constructor
    · rw [hrepo]
      rfl
    · intro _
      exact ⟨c', hc', hall⟩
    · intro txn htxn
      rw [hrepo] at htxn
      cases htxn
  · intro _
    exact ⟨.full c, hbackup, hc.symm⟩
  · exact ⟨c', hc', hall⟩

/-- Opening again leaves its copy in the backup file, if it gets as far as its commit. -/
theorem Opens.backup_of_env {repo : HedRepo} {w w' : World} {t : List (Event calls Fate)}
    {r : ℤ × HedRepo} (henv : repo.env = none) (h : Opens true repo repo.flags w t r w')
    (hopen : r.2.env ≠ none) :
  copies t = [.ok] ∧ ∃ file, w'.backup = some file ∧ DataFile.content (some file) = w'.content
  := by
  have hcontent : w'.content = w.content := h.content_eq
  cases h with
  | failed => apply (hopen henv).elim
  | unpublished ret_ne env_flags before setup content live misuse commits backup made =>
      use made
      exact ⟨_, backup, (hcontent.trans before).symm⟩
  | opened env_flags before setup content live misuse commits backup made =>
      use made
      exact ⟨_, backup, (hcontent.trans before).symm⟩

/-- A copy that succeeds. -/
theorem lastCopy_snoc_ok (before : Sys) (past : List Invocation) {i : Invocation}
    (h : i.op.starts = true) (hcopies : copies i.trace = [.ok]) :
  lastCopy before (past ++ [i]) = i.after.world.content
  := by
  rw [lastCopy_snoc_of_starts before past h, hcopies]
  rfl

theorem Rollback.copies_eq {t t' : List (Event calls Fate)} {f : Fate} (h : Rollback t f t') :
  copies t = copies t'
  := by
  obtain ⟨t₀, rfl, -, -, hcopies, -⟩ := h.split
  rw [copies_append, hcopies]
  rfl

/-- Every call but one that opens keeps the backup the last copy. -/
theorem Backed.next {table : List Bytes} {before s₀ s s' : Sys} {past : List Invocation}
    {i : Invocation} (hbacked : Backed table before s₀ past s) (hinvokes : Invokes true s i s')
    (hop : i.op.opensNothing = true) :
  Backed table before s₀ (past ++ [i]) s'
  := by
  have heffect := hinvokes.effect hbacked.sound
  have hafter : i.after = s' := hinvokes.after_eq
  have hcomplete := heffect.complete hbacked.complete hop
  constructor
  · apply hinvokes.sound hbacked.sound
  · apply hcomplete
  · intro henv
    obtain ⟨repo, w⟩ := s
    obtain ⟨repo', w'⟩ := s'
    obtain ⟨before', op, t, result, after⟩ := i
    obtain rfl := hafter
    simp only at heffect henv
    have hsame : op.starts = false → repo.env ≠ none → w'.backup = w.backup →
        ∃ file, w'.backup = some file
          ∧ DataFile.content (some file)
            = lastCopy before (past ++ [⟨before', op, t, result, ⟨repo', w'⟩⟩]) := by
      intro hstarts hopen hw
      rw [hw, lastCopy_snoc_of_not_starts before past hstarts]
      apply hbacked.backup hopen
    cases heffect with
    | opened => cases hop
    | unopened => cases hop
    | closed => apply (henv rfl).elim
    | unclosed env_none => apply (henv env_none).elim
    | reloaded env_ne txn_none frees opens =>
        obtain ⟨hcopies, hfile⟩ := opens.backup_of_env rfl henv
        rw [lastCopy_snoc_ok before past rfl hcopies]
        apply hfile
    | rolledBack env_ne txn_none frees has3pc rollback opens =>
        obtain ⟨hcopies, hfile⟩ := opens.backup_of_env rfl henv
        rw [lastCopy_snoc_ok before past rfl (rollback.copies_eq.trans hcopies)]
        apply hfile
    | started env_ne txn_none content clean made =>
        rw [lastCopy_snoc_ok before past rfl made]
        exact ⟨_, rfl, content.symm⟩
    | unstarted env_ne txn_none content =>
        rw [lastCopy_snoc_of_starts before past rfl, backupOf]
        cases (copies t).getLast? with
        | none => apply hbacked.backup env_ne
        | some f =>
            cases f with
            | ok => exact ⟨_, rfl, content.symm⟩
            | fail e left => exact ⟨left, rfl, rfl⟩
    | committed txn_eq content live misuse backup =>
        apply hsame rfl henv backup
    | uncommitted txn_eq ret_ne content live misuse backup =>
        apply hsame rfl henv backup
    | aborted txn_eq => apply hsame rfl henv (World.release_backup _ _)
    | read reads => apply hsame (Op.starts_of_reads reads) henv rfl
    | wrote write => apply hsame (Op.starts_of_write write) henv rfl
    | unwritten write => apply hsame (Op.starts_of_write write) henv rfl
    | counted => apply hsame rfl henv rfl
    | uncounted => apply hsame rfl henv rfl
  · rw [rollbackPoint_snoc]
    split_ifs with hstart
    · rw [hafter]
      apply hcomplete.committed
      rw [hstart.1] at heffect
      apply heffect.env_of_start
    · apply hbacked.point

/-! ### Rolling back -/

/-- The call of `rename` failed. -/
def RenameFails (t : List (Event calls Fate)) : Prop :=
  ∃ e ∈ t, e.call = .rename ∧ e.fate ≠ .ok

/-- No call but that of `rename` was made to fail. -/
def CleanButRename (t : List (Event calls Fate)) : Prop :=
  ∀ e ∈ t, failed e = true → e.call = .rename

namespace Rollback

variable {t t' : List (Event calls Fate)} {f : Fate}

theorem clean_iff (h : Rollback t f t') :
  Clean t ↔ f = .ok ∧ Clean t'
  := by
  obtain ⟨t₀, rfl, ht₀, -⟩ := h.split
  simp [ht₀, failed, Call.fallible]

theorem renameFails_iff (h : Rollback t f t') :
  RenameFails t ↔ f ≠ .ok
  := by
  obtain ⟨t₀, rfl, -, -, -, hcalls⟩ := h.split
  constructor
  · rintro ⟨e, he, hcall, hfate⟩
    rcases List.mem_append.mp he with he' | he'
    · have hon := hcalls e (by simp [he'])
      rw [hcall] at hon
      cases hon
    · rcases List.mem_cons.mp he' with rfl | he''
      · apply hfate
      · have hon := hcalls e (by simp [he''])
        rw [hcall] at hon
        cases hon
  · intro hf
    exact ⟨⟨.rename, f⟩, by simp, rfl, hf⟩

theorem cleanButRename_iff (h : Rollback t f t') :
  CleanButRename t ↔ Clean t'
  := by
  obtain ⟨t₀, rfl, ht₀, -, -, hcalls⟩ := h.split
  constructor
  · intro h' e he
    by_contra hfailed
    have hcall := h' e (by simp [he]) (by simpa using hfailed)
    have hon := hcalls e (by simp [he])
    rw [hcall] at hon
    cases hon
  · intro ht' e he hfailed
    rcases List.mem_append.mp he with he' | he'
    · rw [ht₀ e he'] at hfailed
      cases hfailed
    · rcases List.mem_cons.mp he' with rfl | he''
      · rfl
      · rw [ht' e he''] at hfailed
        cases hfailed

end Rollback

/-- What the client expects of a rollback to the content `point`: if nothing fails, it
returns zero and the committed content is `point`; if `rename` fails, it returns non-zero
and leaves the committed content. -/
def Restores (point : Option Content) (i : Invocation) : Prop :=
  (Clean i.trace → i.result = .code 0 ∧ i.after.world.content = point)
    ∧ (RenameFails i.trace →
      i.result ≠ .code 0 ∧ i.after.world.content = i.before.world.content)

/-- Opening again returns zero exactly if nothing is made to fail, when all tables exist. -/
theorem Opens.ret_eq_zero_iff {repo3pc : Bool} {repo : HedRepo} {w w' : World}
    {t : List (Event calls Fate)} {r : ℤ × HedRepo} {c : Content}
    (h : Opens repo3pc repo repo.flags w t r w') (hc : w.content = some c)
    (hall : c.HasAll repo.table) :
  r.1 = 0 ↔ Clean t
  := by
  cases h with
  | failed ret_ne content live misuse commits backup cause =>
      apply iff_of_false ret_ne
      rw [hc, Option.bind_some, Content.setup_of_hasAll repo.flags_accmode hall] at cause
      apply cause.resolve_left (by simp)
  | unpublished ret_ne env_flags before setup content live misuse commits backup made dirty =>
      apply iff_of_false ret_ne dirty
  | opened env_flags before setup content live misuse commits backup made clean =>
      apply iff_of_true rfl clean

/-- After a `rename` that succeeds, opening reads the last copy. -/
theorem content_rename {w w'' : World} {file : DataFile} {copy : Option Content}
    (hbackup : w''.backup = w.backup) (hfile : w.backup = some file)
    (hcopy : DataFile.content (some file) = copy) :
  w''.rename.2.content = copy
  := by
  rw [World.rename, hbackup, hfile]
  apply hcopy

/-- A rollback does what the client expects exactly if the last copy is of the rollback
point, unless a call fails, and some other call fails, if `rename` does. -/
theorem Backed.restores_iff {table : List Bytes} {before s₀ s s' : Sys}
    {past : List Invocation} {i : Invocation} (hbacked : Backed table before s₀ past s)
    (hinvokes : Invokes true s i s') (hop : i.op = .hedRepoRollback) :
  Restores (rollbackPoint s₀ past) i
    ↔ (Clean i.trace → lastCopy before past = rollbackPoint s₀ past)
      ∧ (RenameFails i.trace → ¬ CleanButRename i.trace)
  := by
  have heffect := hinvokes.effect hbacked.sound
  have hbefore : i.before = s := hinvokes.before_eq
  have hafter : i.after = s' := hinvokes.after_eq
  obtain ⟨repo, w⟩ := s
  obtain ⟨repo', w'⟩ := s'
  obtain ⟨before', op, t, result, after⟩ := i
  obtain rfl := hbefore
  obtain rfl := hafter
  obtain rfl : op = .hedRepoRollback := hop
  simp only at heffect
  cases heffect with
  | @rolledBack t t' f ret repo' w' w'' env_ne txn_none frees has3pc rollback opens =>
      obtain ⟨c, hc, hall⟩ := hbacked.complete.committed env_ne
      obtain ⟨file, hfile, hcopy⟩ := hbacked.backup env_ne
      obtain ⟨p, hp, hpall⟩ := hbacked.point
      have htable : repo.closed.table = table := hbacked.complete.table_eq
      have hcontent : w'.content = (handle f .rename w'').2.content := opens.content_eq
      rw [Restores, rollback.clean_iff, rollback.renameFails_iff, rollback.cleanButRename_iff]
      cases f with
      | ok =>
          have hrenamed : w'.content = lastCopy before past :=
            hcontent.trans (content_rename frees.backup hfile hcopy)
          simp only [true_and, ne_eq, not_true_eq_false, IsEmpty.forall_iff, and_true, hrenamed]
          constructor
          · intro h ht
            apply (h ht).2
          · intro h ht
            have hopened : (handle .ok .rename w'').2.content = some p := by
              rw [← hcontent, hrenamed, h ht, hp]
            rw [← htable] at hpall
            have hret : ret = 0 := (opens.ret_eq_zero_iff hopened hpall).mpr ht
            rw [hret]
            exact ⟨rfl, h ht⟩
      | fail e left =>
          have hopened : (handle (.fail e left) .rename w'').2.content = some c :=
            frees.content.trans hc
          have hsame : w'.content = w.content := hcontent.trans frees.content
          rw [← htable] at hall
          have hret : ret = 0 ↔ Clean t' := opens.ret_eq_zero_iff hopened hall
          simp [hsame, hret]
  | read reads => cases reads
  | wrote write => cases write
  | unwritten write => cases write

section Session

variable {table : List Bytes} {flags : Flags} {mode : ℕ} {before s s' : Sys}
  {is : List Invocation}

/-- The rollbacks of a session that do what the client expects exactly if, unless one of their
calls fails, the last copy made before is of the rollback point, and some other of their
calls fails, if `rename` does. -/
def RestoresIff (before s : Sys) (past : List Invocation) (i : Invocation) : Prop :=
  i.op = .hedRepoRollback →
    (Restores (rollbackPoint s past) i
      ↔ (Clean i.trace → lastCopy before past = rollbackPoint s past)
        ∧ (RenameFails i.trace → ¬ CleanButRename i.trace))

theorem Session.backed (h : Session true table flags mode before s is s')
    (hops : ∀ i ∈ is, i.op.opensNothing = true) :
  Backed table before s is s' ∧ Along (RestoresIff before s) is
  := by
  apply h.run.along (I := Backed table before s) (C := fun _ i => i.op.opensNothing = true)
    (backed_of_opened h.opened.2) _ (along_iff_forall_mem.mpr hops)
  intro past i s₁ s₂ hbacked hinvokes hop
  use hbacked.next hinvokes hop
  intro hrollback
  apply hbacked.restores_iff hinvokes hrollback

/-- In every session, that is exactly when a rollback does what the client expects. -/
theorem rollback_restores_iff (h : Session true table flags mode before s is s')
    (hops : ∀ i ∈ is, i.op.opensNothing = true) :
  Along (RestoresIff before s) is
  := (h.backed hops).2

/-- A client that commits, reloads, and rolls back to before its commit. -/
def staleReload : List (Op × List Fate) :=
  [(.hedRepoStart, []), (.hedRepoUpdate [0x75] [1] [2], []), (.hedRepoCommit, []),
    (.hedRepoReload, []), (.hedRepoRollback, [])]

/-- The session of that client. -/
def staleSession : Sys × List Invocation × Sys :=
  (Sys.fresh.playSession true [[0x75]] (O_RDWR ||| O_CREAT ||| O_TRUNC) 0 [] staleReload).get rfl

theorem playSession_staleReload :
  Sys.fresh.playSession true [[0x75]] (O_RDWR ||| O_CREAT ||| O_TRUNC) 0 [] staleReload
    = some staleSession
  := (Option.some_get _).symm

/-- Its rollback. -/
def staleRollback : Invocation :=
  staleSession.2.1.getLast (List.ne_nil_of_length_pos (by decide +kernel))

theorem rollback_restores_iff_staleReload :
  Along (RestoresIff Sys.fresh staleSession.1) staleSession.2.1
  := by
  apply rollback_restores_iff (session_of_play playSession_staleReload)
  apply ops_of_playSession (P := fun op => op.opensNothing = true) playSession_staleReload
    (by decide)

/-- The start hidden in a reload overwrites the backup, and the client gets back what it
committed. -/
theorem rollback_after_reload :
  ¬ ∀ (table : List Bytes) (flags : Flags) (mode : ℕ) (before s s' : Sys)
      (is : List Invocation), flags &&& O_ACCMODE = O_RDWR →
      Session true table flags mode before s is s' →
      (∀ i ∈ is, i.op.opensNothing = true) →
      Along (fun past i => i.op = .hedRepoRollback → Restores (rollbackPoint s past) i) is
  := by
  intro hrestores
  have hops := ops_of_playSession (P := fun op => op.opensNothing = true)
    playSession_staleReload (by decide)
  have hlast := hrestores _ _ _ _ _ _ _ (by decide) (session_of_play playSession_staleReload)
    hops staleSession.2.1.dropLast staleRollback [] (List.dropLast_append_getLast _).symm
  have hop : staleRollback.op = .hedRepoRollback := by decide +kernel
  have hclean : Clean staleRollback.trace := by
    rw [Clean]
    decide +kernel
  have hcontent : staleRollback.after.world.content
      ≠ rollbackPoint staleSession.1 staleSession.2.1.dropLast := by decide +kernel
  apply hcontent ((hlast hop).1 hclean).2

end Session

end Hed
