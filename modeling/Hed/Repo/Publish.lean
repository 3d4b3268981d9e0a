import Hed.Prelude.Store
import Hed.Repo.Client
import Hed.Repo.Setup

/-!
# What publishes

Between the calls of a client the repository is a transactional store: what is committed is
the content of the data file, and the transaction works on a content of its own.  As long as
the client does not open or roll back, each of its calls is a move of that store, whatever
fails on the way.  So only a commit that returns zero publishes.
-/

namespace Hed

open Program

/-! ### Opening again -/

/-- Opening again, with the access mode the repository was opened with, leaves the committed
content. -/
theorem Opens.content_eq {repo3pc : Bool} {repo : HedRepo} {w w' : World}
    {t : List (Event calls Fate)} {r : ℤ × HedRepo}
    (h : Opens repo3pc repo repo.flags w t r w') :
  w'.content = w.content
  := by
  cases h with
  | failed ret_ne content => apply content
  | unpublished ret_ne env_flags before setup content => rw [before, content]
  | opened env_flags before setup content =>
      obtain rfl := Content.setup_of_accmode repo.flags_accmode setup
      rw [before, content]

/-- Opening leaves no transaction. -/
theorem Opens.txn_eq {repo3pc : Bool} {repo : HedRepo} {flags : Flags} {w w' : World}
    {t : List (Event calls Fate)} {r : ℤ × HedRepo} (h : Opens repo3pc repo flags w t r w') :
  r.2.txn = repo.txn
  := by
  cases h with
  | failed => rfl
  | unpublished => rfl
  | opened => rfl

/-! ### The store a client works on -/

/-- The store: the committed content, as far as it can be read, and the content of the
transaction. -/
def Sys.store (s : Sys) : Store (Option Content) :=
  ⟨s.world.content, s.repo.txn.map (fun txn => some txn.content)⟩

/-- The operations of a client that neither opens nor rolls back. -/
def Op.inSession : Op → Bool
  | .hedRepoOpen _ _ _ => false
  | .hedRepoRollback => false
  | _ => true

/-- The move a call is. -/
def Op.move (op : Op) (result : Result) : Store.Move :=
  match op with
  | .hedRepoStart => if result = .code 0 then .begin else .idle
  | .hedRepoCommit => if result = .code 0 then .commit else .drop
  | .hedRepoAbort => .drop
  | .hedRepoClose => .drop
  | .hedRepoUpdate _ _ _ => .work
  | .hedRepoDel _ _ => .work
  | .hedRepoSetVersion _ => .work
  | .hedRepoNextSeq _ => .work
  | _ => .idle

theorem Op.move_of_write {op : Op} {f : Content → Option Content} (h : op.write = some f)
    (result : Result) :
  op.move result = .work
  := by
  cases op with
  | hedRepoUpdate table key value => rfl
  | hedRepoDel table key => rfl
  | hedRepoSetVersion value => rfl
  | _ => cases h

theorem Op.move_eq_commit {op : Op} {result : Result} :
  op.move result ≠ .commit ↔ ¬ (op = .hedRepoCommit ∧ result = .code 0)
  := by
  cases op with
  | hedRepoCommit =>
      rw [Op.move]
      split_ifs with hret
      · simp [hret]
      · simp [hret]
  | hedRepoStart =>
      rw [Op.move]
      split_ifs with hret
      · simp
      · simp
  | _ => simp [Op.move]

/-- A call with an effect is a move of the store. -/
theorem Effect.moves {repo3pc : Bool} {repo repo' : HedRepo} {w w' : World} {op : Op}
    {t : List (Event calls Fate)} {result : Result} (hsound : Sound repo w)
    (h : Effect repo3pc repo w op t result repo' w') (hop : op.inSession = true) :
  Store.Moves (Sys.store ⟨repo, w⟩) (op.move result) (Sys.store ⟨repo', w'⟩)
  := by
  cases h with
  | opened => cases hop
  | unopened => cases hop
  | closed env_ne closes =>
      have hcontent : w'.content = w.content := congrArg DataFile.content closes.data
      rw [Sys.store, Sys.store, hcontent]
      apply Store.Moves.drop
  | unclosed env_none =>
      rw [Sys.store, hsound.env_of_txn env_none]
      apply Store.Moves.drop
  | reloaded env_ne txn_none frees opens =>
      have hcontent : w'.content = w.content := opens.content_eq.trans frees.content
      have htxn : repo'.txn = none := opens.txn_eq
      rw [Sys.store, Sys.store, hcontent, htxn, txn_none]
      apply Store.Moves.idle
  | rolledBack => cases hop
  | started env_ne txn_none content =>
      rw [Sys.store, Sys.store, World.began_content, World.backedUp_content, txn_none, content]
      apply Store.Moves.begin
  | unstarted env_ne txn_none content ret_ne =>
      rw [Op.move, if_neg (by simpa using ret_ne)]
      apply Store.Moves.idle
  | committed txn_eq content =>
      rw [Sys.store, Sys.store, content, txn_eq]
      apply Store.Moves.commit
  | uncommitted txn_eq ret_ne content =>
      rw [Op.move, if_neg (by simpa using ret_ne), Sys.store, Sys.store, content]
      apply Store.Moves.drop
  | aborted txn_eq =>
      rw [Sys.store, Sys.store, World.release_content]
      apply Store.Moves.drop
  | read reads =>
      cases op with
      | hedRepoGet table key => apply Store.Moves.idle
      | hedRepoCount table => apply Store.Moves.idle
      | hedRepoGetVersion => apply Store.Moves.idle
      | _ => cases reads
  | wrote write txn_eq content =>
      rw [Op.move_of_write write, Sys.store, Sys.store, txn_eq]
      apply Store.Moves.work
  | unwritten write txn_eq =>
      rw [Op.move_of_write write, Sys.store, txn_eq]
      apply Store.Moves.work
  | counted txn_eq record length content =>
      rw [Sys.store, Sys.store, txn_eq]
      apply Store.Moves.work
  | uncounted txn_eq =>
      rw [Sys.store, txn_eq]
      apply Store.Moves.work

/-! ### Publishing -/

/-- The committed content changes only at a commit that returns zero, and then becomes the
content of the transaction it ends. -/
def OnlyCommitPublishes (i : Invocation) : Prop :=
  if i.op = .hedRepoCommit ∧ i.result = .code 0 then
    ∃ txn, i.before.repo.txn = some txn ∧ i.after.world.content = some txn.content
  else i.after.world.content = i.before.world.content

theorem onlyCommitPublishes_of_moves {i : Invocation}
    (h : Store.Moves i.before.store (i.op.move i.result) i.after.store) :
  OnlyCommitPublishes i
  := by
  rw [OnlyCommitPublishes]
  split_ifs with hcommit
  · rw [hcommit.1, hcommit.2] at h
    have hworking := Store.Moves.committed_of_commit h
    obtain ⟨txn, htxn, hcontent⟩ := Option.map_eq_some_iff.mp hworking
    exact ⟨txn, htxn, hcontent.symm⟩
  · apply h.committed_eq
    rw [Op.move_eq_commit]
    apply hcommit

section Session

variable {repo3pc : Bool} {table : List Bytes} {flags : Flags} {mode : ℕ} {before s s' : Sys}
  {is : List Invocation}

/-- In a session every call is a move of the store. -/
theorem session_moves (h : Session repo3pc table flags mode before s is s')
    (hops : ∀ i ∈ is, i.op.inSession = true) :
  Sound s'.repo s'.world
    ∧ Along (fun _ i => Store.Moves i.before.store (i.op.move i.result) i.after.store) is
  := by
  apply h.run.along (I := fun _ s => Sound s.repo s.world)
    (C := fun _ i => i.op.inSession = true) h.sound
  · intro _ i s₁ s₂ hsound hinvokes hin
    use hinvokes.sound hsound
    rw [hinvokes.before_eq, hinvokes.after_eq]
    apply (hinvokes.effect hsound).moves hsound hin
  · rw [along_iff_forall_mem]
    apply hops

/-- From a successful open on, whatever the client calls, and whatever fails, the committed
content changes only at a commit that returns zero. -/
theorem only_commit_publishes (h : Session repo3pc table flags mode before s is s')
    (hops : ∀ i ∈ is, i.op.inSession = true) :
  ∀ i ∈ is, OnlyCommitPublishes i
  := by
  obtain ⟨-, hmoves⟩ := session_moves h hops
  rw [along_iff_forall_mem] at hmoves
  intro i hi
  apply onlyCommitPublishes_of_moves (hmoves i hi)

/-- A client whose first commit fails, that reloads, and that closes with a transaction
open. -/
def failedCommit : List (Op × List Fate) :=
  [(.hedRepoStart, []), (.hedRepoUpdate [0x75] [1] [2], []), (.hedRepoCommit, [.fail EIO .blank]),
    (.hedRepoReload, []), (.hedRepoStart, []), (.hedRepoNextSeq [0x75], []), (.hedRepoClose, [])]

theorem only_commit_publishes_failedCommit :
  ∃ s is s', Sys.fresh.playSession true [[0x75]] (O_RDWR ||| O_CREAT ||| O_TRUNC) 0 []
      failedCommit = some (s, is, s')
    ∧ ∀ i ∈ is, OnlyCommitPublishes i
  := by
  have hplay : (Sys.fresh.playSession true [[0x75]] (O_RDWR ||| O_CREAT ||| O_TRUNC) 0 []
      failedCommit).isSome = true := rfl
  obtain ⟨⟨s, is, s'⟩, h⟩ := Option.isSome_iff_exists.mp hplay
  use s, is, s', h
  apply only_commit_publishes (session_of_play h)
  apply ops_of_playSession (P := fun op => op.inSession = true) h (by decide)

end Session

end Hed
