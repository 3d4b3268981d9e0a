import Hed.Repo.Publish

/-!
# Read-only repositories

Since `O_RDONLY` is zero, no test of it holds, and a repository opened with it is opened for
writing: its environment and its transactions accept writes, and starting rewrites the
backup file.
-/

namespace Hed

open Program

/-- The systems a session goes through. -/
def states (s : Sys) (is : List Invocation) : List Sys := s :: is.map Invocation.after

/-- A read-only session: the environment and the transactions refuse writes, every function
that writes fails, and neither the committed content nor the backup file changes. -/
structure StaysReadOnly (before s : Sys) (is : List Invocation) : Prop where
  env : ∀ s' ∈ states s is, ∀ env, s'.repo.env = some env → env.flags &&& MDB_RDONLY ≠ 0
  txn : ∀ s' ∈ states s is, ∀ txn, s'.repo.txn = some txn → txn.readonly = true
  writes : ∀ i ∈ is, i.op.write ≠ none → i.result ≠ .code 0
  seqs : ∀ i ∈ is, ∀ table, i.op = .hedRepoNextSeq table → i.result = .seq 0
  content : ∀ s' ∈ states s is, s'.world.content = before.world.content
  backup : ∀ s' ∈ states s is, s'.world.backup = before.world.backup

section Session

variable {repo3pc : Bool} {table : List Bytes} {flags : Flags} {mode : ℕ} {before s s' : Sys}
  {is : List Invocation}

/-- Whatever the access mode, every environment and every transaction of a session accepts
writes. -/
theorem session_writable (h : Session repo3pc table flags mode before s is s') :
  ∀ s₁ ∈ states s is,
    (∀ env, s₁.repo.env = some env → env.flags &&& MDB_RDONLY = 0)
      ∧ ∀ txn, s₁.repo.txn = some txn → txn.readonly = false
  := by
  have hwritable : ∀ {s₁ : Sys}, Sound s₁.repo s₁.world →
      (∀ env, s₁.repo.env = some env → env.flags &&& MDB_RDONLY = 0)
        ∧ ∀ txn, s₁.repo.txn = some txn → txn.readonly = false := by
    intro s₁ hsound
    constructor
    · intro env henv
      rw [hsound.env_flags env henv]
      decide
    · apply hsound.txn_writable
  have hkeep := h.run.along (I := fun _ s => Sound s.repo s.world) (C := fun _ _ => True)
    (P := fun _ i => Sound i.after.repo i.after.world) h.sound
  obtain ⟨-, hstates⟩ := hkeep (by
    intro _ i s₁ s₂ hsound hinvokes _
    use hinvokes.sound hsound
    rw [hinvokes.after_eq]
    apply hinvokes.sound hsound) (along_iff_forall_mem.mpr (by simp))
  intro s₁ hs₁
  apply hwritable
  rcases List.mem_cons.mp hs₁ with rfl | hmem
  · apply h.sound
  · obtain ⟨i, hi, rfl⟩ := List.mem_map.mp hmem
    apply along_iff_forall_mem.mp hstates i hi

/-- A session with the access mode `O_RDONLY` is never read-only, although the repository
keeps that access mode. -/
theorem rdonly_session_not_readonly (h : Session repo3pc table flags mode before s is s')
    (hrdonly : flags &&& O_ACCMODE = O_RDONLY) :
  s.repo.flags = O_RDONLY ∧ ¬ StaysReadOnly before s is
  := by
  obtain ⟨env, hrepo, -⟩ := h.opened.2.handle
  constructor
  · rw [hrepo, ← hrdonly]
    rfl
  · intro hreadonly
    have henv : s.repo.env = some env := by rw [hrepo]
    have hs : s ∈ states s is := List.mem_cons_self
    apply hreadonly.env s hs env henv
    apply (session_writable h s hs).1 env henv

/-- A process that has opened nothing, and a repository with one table. -/
def Sys.stored : Sys :=
  ⟨HedRepo.unset, ⟨(Content.setup ∅ (O_RDWR ||| O_CREAT ||| O_TRUNC) [[0x75]]).map .full, none,
    [], false, 0⟩⟩

/-- A client that writes to a repository it has opened read-only. -/
def writingReader : List (Op × List Fate) :=
  [(.hedRepoStart, []), (.hedRepoUpdate [0x75] [1] [2], []), (.hedRepoCommit, [])]

/-- The session of that client. -/
def writingSession : Sys × List Invocation × Sys :=
  (Sys.stored.playSession true [[0x75]] O_RDONLY 0 [] writingReader).get rfl

theorem playSession_writingReader :
  Sys.stored.playSession true [[0x75]] O_RDONLY 0 [] writingReader = some writingSession
  := (Option.some_get _).symm

theorem rdonly_session_not_readonly_writingReader :
  writingSession.1.repo.flags = O_RDONLY
    ∧ ¬ StaysReadOnly Sys.stored writingSession.1 writingSession.2.1
  := rdonly_session_not_readonly (session_of_play playSession_writingReader) (by decide)

/-- The update of that client returns zero, its commit changes the committed content, and its
start creates a backup. -/
theorem rdonly_session_writes :
  ¬ ∀ (repo3pc : Bool) (table : List Bytes) (flags : Flags) (mode : ℕ) (before s s' : Sys)
      (is : List Invocation), flags &&& O_ACCMODE = O_RDONLY →
      Session repo3pc table flags mode before s is s' → StaysReadOnly before s is
  := by
  intro h
  have hreadonly := h _ _ _ _ _ _ _ _ (by decide) (session_of_play playSession_writingReader)
  have hlast : writingSession.2.2 ∈ states writingSession.1 writingSession.2.1 := by
    rw [states]
    decide +kernel
  have hcontent := hreadonly.content _ hlast
  revert hcontent
  decide +kernel

end Session

end Hed
