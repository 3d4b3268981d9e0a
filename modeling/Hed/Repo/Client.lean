import Hed.Prelude.Run
import Hed.Repo.Opening

/-!
# What a client sees of the repository

A client calls the functions of `repo.h` one after another.  An `Invocation` is one such
call, with the external calls it made, what it returned, and the repository and the world
before and after it; the runs of a client are the runs of `Invokes`.  A call whose
assertions fail is not one.  `Effect` says once what each function can do, and
`Invokes.effect` that it does nothing else.
-/

namespace Hed

open Program

/-- A call of a function of `repo.h`. -/
inductive Op where
  | hedRepoOpen (table : List Bytes) (flags : Flags) (mode : ℕ)
  | hedRepoClose
  | hedRepoReload
  | hedRepoStart
  | hedRepoCommit
  | hedRepoAbort
  | hedRepoRollback
  | hedRepoGet (table key : Bytes)
  | hedRepoUpdate (table key value : Bytes)
  | hedRepoDel (table key : Bytes)
  | hedRepoCount (table : Bytes)
  | hedRepoNextSeq (table : Bytes)
  | hedRepoGetVersion
  | hedRepoSetVersion (value : Bytes)
  deriving DecidableEq

/-- What a function of `repo.h` returns: a code, a sequence number, a value or nothing. -/
inductive Result where
  | code (ret : ℤ)
  | seq (n : ℕ)
  | value (v : Except Errno Bytes)
  | void
  deriving DecidableEq

/-- The function an operation calls. -/
def Op.run (repo3pc : Bool) (repo : HedRepo) : Op → Repo (Result × HedRepo)
  | .hedRepoOpen table flags mode => do
      let r ← Hed.hedRepoOpen repo3pc table flags mode
      pure (.code r.1, r.2)
  | .hedRepoClose => do
      let r ← Hed.hedRepoClose repo
      pure (.void, r)
  | .hedRepoReload => do
      let r ← Hed.hedRepoReload repo3pc repo
      pure (.code r.1, r.2)
  | .hedRepoStart => do
      let r ← Hed.hedRepoStart repo3pc repo
      pure (.code r.1, r.2)
  | .hedRepoCommit => do
      let r ← Hed.hedRepoCommit repo
      pure (.code r.1, r.2)
  | .hedRepoAbort => do
      let r ← Hed.hedRepoAbort repo
      pure (.void, r)
  | .hedRepoRollback => do
      require (repo3pc = true)
      let r ← Hed.hedRepoRollback repo
      pure (.code r.1, r.2)
  | .hedRepoGet table key => do
      let r ← Hed.hedRepoGet repo table key
      pure (.value r.1, r.2)
  | .hedRepoUpdate table key value => do
      let r ← Hed.hedRepoUpdate repo table key value
      pure (.code r.1, r.2)
  | .hedRepoDel table key => do
      let r ← Hed.hedRepoDel repo table key
      pure (.code r.1, r.2)
  | .hedRepoCount table => do
      let r ← Hed.hedRepoCount repo table
      pure (.code r.1, r.2)
  | .hedRepoNextSeq table => do
      let r ← Hed.hedRepoNextSeq repo table
      pure (.seq r.1, r.2)
  | .hedRepoGetVersion => do
      let r ← Hed.hedRepoGetVersion repo
      pure (.value r.1, r.2)
  | .hedRepoSetVersion value => do
      let r ← Hed.hedRepoSetVersion repo value
      pure (.code r.1, r.2)

/-- A repository and the world it is in. -/
structure Sys where
  repo : HedRepo
  world : World
  deriving DecidableEq

/-- A call of a function, as a client and the system see it. -/
structure Invocation where
  before : Sys
  op : Op
  trace : List (Event calls Fate)
  result : Result
  after : Sys

/-- Call a function, with the given fates for its external calls. -/
def Sys.invoke (repo3pc : Bool) (s : Sys) (op : Op) (fates : List Fate) : Option Invocation :=
  let o := exec handle (op.run repo3pc s.repo) fates s.world
  o.value.map (fun r => ⟨s, op, o.trace, r.1, ⟨r.2, o.world⟩⟩)

/-- The steps of a client. -/
def Invokes (repo3pc : Bool) (s : Sys) (i : Invocation) (s' : Sys) : Prop :=
  (∃ fates, s.invoke repo3pc i.op fates = some i) ∧ i.after = s'

/-- Play a script: the invocations it leads to, if no assertion fails. -/
def Sys.play (repo3pc : Bool) : Sys → List (Op × List Fate) → Option (List Invocation × Sys)
  | s, [] => some ([], s)
  | s, (op, fates) :: rest =>
      (s.invoke repo3pc op fates).bind (fun i =>
        (i.after.play repo3pc rest).map (fun r => (i :: r.1, r.2)))

theorem invoke_op {repo3pc : Bool} {s : Sys} {op : Op} {fates : List Fate} {i : Invocation}
    (h : s.invoke repo3pc op fates = some i) :
  i.op = op
  := by
  obtain ⟨r, -, rfl⟩ := Option.map_eq_some_iff.mp h
  rfl

/-- What a script plays is a run. -/
theorem run_play {repo3pc : Bool} {s s' : Sys} {script : List (Op × List Fate)}
    {is : List Invocation} (h : s.play repo3pc script = some (is, s')) :
  Run (Invokes repo3pc) s is s'
  := by
  induction script generalizing s is with
  | nil =>
      cases h
      apply Run.nil
  | cons turn rest ih =>
      obtain ⟨op, fates⟩ := turn
      obtain ⟨i, hi, h'⟩ := Option.bind_eq_some_iff.mp h
      obtain ⟨⟨is', s''⟩, hrest, h''⟩ := Option.map_eq_some_iff.mp h'
      cases h''
      apply Run.cons_iff.mpr
      use i.after
      constructor
      · use ⟨fates, by rw [invoke_op hi, hi]⟩
      · apply ih hrest

/-- The calls of a run that a script plays are those of the script. -/
theorem ops_of_play {repo3pc : Bool} {s s' : Sys} {script : List (Op × List Fate)}
    {is : List Invocation} {P : Op → Prop} (h : s.play repo3pc script = some (is, s'))
    (hP : ∀ turn ∈ script, P turn.1) :
  ∀ i ∈ is, P i.op
  := by
  induction script generalizing s is with
  | nil =>
      cases h
      rintro i ⟨⟩
  | cons turn rest ih =>
      obtain ⟨op, fates⟩ := turn
      obtain ⟨hop, hrest⟩ := List.forall_mem_cons.mp hP
      obtain ⟨i, hi, h'⟩ := Option.bind_eq_some_iff.mp h
      obtain ⟨⟨is', s''⟩, hplay, h''⟩ := Option.map_eq_some_iff.mp h'
      cases h''
      rintro j hj
      rcases List.mem_cons.mp hj with rfl | hj'
      · rw [invoke_op hi]
        apply hop
      · apply ih hplay hrest j hj'

/-- What every execution of the function satisfies, the invocation satisfies. -/
theorem Invokes.of_wp {repo3pc : Bool} {s s' : Sys} {i : Invocation}
    (h : Invokes repo3pc s i s')
    {Q : List (Event calls Fate) → Result × HedRepo → World → Prop}
    (hQ : wp handle (i.op.run repo3pc s.repo) Q s.world) :
  Q i.trace (i.result, s'.repo) s'.world
  := by
  obtain ⟨⟨fates, hinvoke⟩, rfl⟩ := h
  obtain ⟨r, hr, hi⟩ := Option.map_eq_some_iff.mp hinvoke
  have hexec := (wp_iff_exec handle _ Q _).mp hQ fates r hr
  rw [← hi]
  rw [← hi] at hexec
  apply hexec

theorem Invokes.before_eq {repo3pc : Bool} {s s' : Sys} {i : Invocation}
    (h : Invokes repo3pc s i s') :
  i.before = s
  := by
  obtain ⟨⟨fates, hinvoke⟩, rfl⟩ := h
  obtain ⟨r, -, hi⟩ := Option.map_eq_some_iff.mp hinvoke
  apply (congrArg Invocation.before hi).symm

theorem Invokes.after_eq {repo3pc : Bool} {s s' : Sys} {i : Invocation}
    (h : Invokes repo3pc s i s') :
  i.after = s'
  := h.2

/-- A function whose assertions hold can be called, without anything failing. -/
theorem invokes_of_safe {repo3pc : Bool} {s : Sys} {op : Op}
    (h : Safe handle (op.run repo3pc s.repo) s.world) :
  ∃ i, Invokes repo3pc s i i.after ∧ i.op = op ∧ Clean i.trace
  := by
  obtain ⟨r, hr⟩ := (safe_iff_exec handle _ _).mp h []
  have hinvoke : ∃ i, s.invoke repo3pc op [] = some i := by
    use ⟨s, op, (exec handle (op.run repo3pc s.repo) [] s.world).trace, r.1,
      ⟨r.2, (exec handle (op.run repo3pc s.repo) [] s.world).world⟩⟩
    simp [Sys.invoke, hr]
  obtain ⟨i, hi⟩ := hinvoke
  obtain ⟨r', hr', hi'⟩ := Option.map_eq_some_iff.mp hi
  have hop : i.op = op := invoke_op hi
  use i
  constructor
  · use ⟨[], by rw [hop, hi]⟩
  · use hop
    intro e he
    rw [← hi'] at he
    have hfate := exec_nil handle _ _ e he
    simp only [failed, hfate]
    exact Bool.and_false _

/-! ### What the functions can do -/

namespace Op

/-- What the functions that write make of the content of the transaction. -/
def write : Op → Option (Content → Option Content)
  | .hedRepoUpdate table key value => some (fun c => c.update table key value)
  | .hedRepoDel table key => some (fun c => c.delete table key)
  | .hedRepoSetVersion value => some (fun c => c.update hedTable versionKey value)
  | _ => none

/-- The functions that read the content of the transaction. -/
def reads : Op → Bool
  | .hedRepoGet _ _ => true
  | .hedRepoCount _ => true
  | .hedRepoGetVersion => true
  | _ => false

end Op

/-- What the functions can do to a repository and the world: which operation, the calls it
made, its result, and the repository and the world after it. -/
inductive Effect (repo3pc : Bool) (repo : HedRepo) (w : World) :
    Op → List (Event calls Fate) → Result → HedRepo → World → Prop where
  | opened {table : List Bytes} {flags : Flags} {mode : ℕ} {t : List (Event calls Fate)}
      {repo' : HedRepo} {w' : World} (admits : Admits flags)
      (opened : Opened repo3pc table flags mode w repo' w') :
      Effect repo3pc repo w (.hedRepoOpen table flags mode) t (.code 0) repo' w'
  | unopened {table : List Bytes} {flags : Flags} {mode : ℕ} {t : List (Event calls Fate)}
      {ret : ℤ} {repo' : HedRepo} {w' : World} (admits : Admits flags) (ret_ne : ret ≠ 0)
      (content : w'.content = w.content) (txn_none : repo'.txn = none) (sound : Sound repo' w') :
      Effect repo3pc repo w (.hedRepoOpen table flags mode) t (.code ret) repo' w'
  | closed {t : List (Event calls Fate)} {w' : World} (env_ne : repo.env ≠ none)
      (closes : Closes repo w t w') :
      Effect repo3pc repo w .hedRepoClose t .void repo.closed w'
  | unclosed {t : List (Event calls Fate)} (env_none : repo.env = none) :
      Effect repo3pc repo w .hedRepoClose t .void repo w
  | reloaded {t : List (Event calls Fate)} {ret : ℤ} {repo' : HedRepo} {w' w'' : World}
      (env_ne : repo.env ≠ none) (txn_none : repo.txn = none) (frees : Frees repo w w'')
      (opens : Opens repo3pc repo.closed repo.flags w'' t (ret, repo') w') :
      Effect repo3pc repo w .hedRepoReload t (.code ret) repo' w'
  | rolledBack {t t' : List (Event calls Fate)} {f : Fate} {ret : ℤ} {repo' : HedRepo}
      {w' w'' : World} (env_ne : repo.env ≠ none) (txn_none : repo.txn = none)
      (frees : Frees repo w w'') (has3pc : repo3pc = true) (rollback : Rollback t f t')
      (opens : Opens repo3pc repo.closed repo.flags (handle f .rename w'').2 t' (ret, repo') w') :
      Effect repo3pc repo w .hedRepoRollback t (.code ret) repo' w'
  | started {t : List (Event calls Fate)} {c : Content} (env_ne : repo.env ≠ none)
      (txn_none : repo.txn = none) (content : w.content = some c) (clean : Clean t)
      (copies : copies t = madeBy repo3pc) :
      Effect repo3pc repo w .hedRepoStart t (.code 0)
        { repo with txn := some ⟨w.next, false, c⟩ } (w.backedUp repo3pc c).began
  | unstarted {t : List (Event calls Fate)} {ret : ℤ} {c : Content} (env_ne : repo.env ≠ none)
      (txn_none : repo.txn = none) (content : w.content = some c) (ret_ne : ret ≠ 0)
      (dirty : ¬ Clean t) :
      Effect repo3pc repo w .hedRepoStart t (.code ret) repo
        { w with backup := backupOf c w.backup t }
  | committed {txn : Txn} {t : List (Event calls Fate)} {w' : World}
      (txn_eq : repo.txn = some txn) (content : w'.content = some txn.content)
      (live : w'.live = (w.release (.txn txn.id)).live)
      (misuse : w'.misuse = (w.release (.txn txn.id)).misuse) (backup : w'.backup = w.backup) :
      Effect repo3pc repo w .hedRepoCommit t (.code 0) { repo with txn := none } w'
  | uncommitted {txn : Txn} {t : List (Event calls Fate)} {ret : ℤ} {w' : World}
      (txn_eq : repo.txn = some txn) (ret_ne : ret ≠ 0) (content : w'.content = w.content)
      (live : w'.live = (w.release (.txn txn.id)).live)
      (misuse : w'.misuse = (w.release (.txn txn.id)).misuse) (backup : w'.backup = w.backup) :
      Effect repo3pc repo w .hedRepoCommit t (.code ret) { repo with txn := none } w'
  | aborted {txn : Txn} {t : List (Event calls Fate)} (txn_eq : repo.txn = some txn) :
      Effect repo3pc repo w .hedRepoAbort t .void { repo with txn := none }
        (w.release (.txn txn.id))
  | read {op : Op} {t : List (Event calls Fate)} {result : Result} (reads : op.reads = true) :
      Effect repo3pc repo w op t result repo w
  | wrote {op : Op} {f : Content → Option Content} {txn : Txn} {c : Content}
      {t : List (Event calls Fate)} (write : op.write = some f) (txn_eq : repo.txn = some txn)
      (content : f txn.content = some c) :
      Effect repo3pc repo w op t (.code 0) (repo.work txn c) w
  | unwritten {op : Op} {f : Content → Option Content} {txn : Txn} {ret : ℤ}
      {t : List (Event calls Fate)} (write : op.write = some f) (txn_eq : repo.txn = some txn)
      (ret_ne : ret ≠ 0) (cause : f txn.content = none ∨ ¬ Clean t) :
      Effect repo3pc repo w op t (.code ret) repo w
  | counted {table : Bytes} {txn : Txn} {old : Bytes} {c : Content}
      {t : List (Event calls Fate)} (txn_eq : repo.txn = some txn)
      (record : txn.content.record hedTable table = some old) (length : old.length = 4)
      (content : txn.content.update hedTable table
        (encode32 ((decode32 old + 1) % 4294967296)) = some c) (clean : Clean t) :
      Effect repo3pc repo w (.hedRepoNextSeq table) t
        (.seq ((decode32 old + 1) % 4294967296)) (repo.work txn c) w
  | uncounted {table : Bytes} {txn : Txn} {t : List (Event calls Fate)}
      (txn_eq : repo.txn = some txn)
      (cause : txn.content.record hedTable table = none ∨ ¬ Clean t) :
      Effect repo3pc repo w (.hedRepoNextSeq table) t (.seq 0) repo w

/-- A function whose code is its result does what the function does. -/
theorem wp_code {p : Repo (ℤ × HedRepo)} {w : World}
    {Q : List (Event calls Fate) → Result → HedRepo → World → Prop}
    (h : wp handle p (fun t r w' => Q t (.code r.1) r.2 w') w) :
  wp handle (do
      let r ← p
      pure (Result.code r.1, r.2))
    (fun t r w' => Q t r.1 r.2 w') w
  := by
  apply wp_bind_of handle h
  intro t r w' hQ
  rw [wp_pure, List.append_nil]
  apply hQ

section Effects

variable {repo3pc : Bool} {repo : HedRepo} {w : World}

theorem effect_open (table : List Bytes) (flags : Flags) (mode : ℕ) :
  wp handle (Op.run repo3pc repo (.hedRepoOpen table flags mode))
    (fun t r w' => Effect repo3pc repo w (.hedRepoOpen table flags mode) t r.1 r.2 w') w
  := by
  apply wp_code
  apply wp_mono handle (hedRepoOpen_spec repo3pc table flags mode w)
  rintro t ⟨ret, repo'⟩ w' ⟨hadmits, ⟨hret, hopened⟩ | ⟨hret, hcontent, htxn, hsound'⟩⟩
  · obtain rfl : ret = 0 := hret
    apply Effect.opened hadmits hopened
  · apply Effect.unopened hadmits hret hcontent htxn hsound'

theorem effect_reload :
  wp handle (Op.run repo3pc repo .hedRepoReload)
    (fun t r w' => Effect repo3pc repo w .hedRepoReload t r.1 r.2 w') w
  := by
  apply wp_code
  apply wp_mono handle (hedRepoReload_spec repo3pc repo w)
  rintro t ⟨ret, repo'⟩ w' ⟨henv, htxn, w'', hfrees, hopens⟩
  apply Effect.reloaded henv htxn hfrees hopens

theorem effect_rollback :
  wp handle (Op.run repo3pc repo .hedRepoRollback)
    (fun t r w' => Effect repo3pc repo w .hedRepoRollback t r.1 r.2 w') w
  := by
  rw [Op.run, wp_require_bind]
  rintro rfl
  apply wp_code
  apply wp_mono handle (hedRepoRollback_spec repo w)
  rintro t ⟨ret, repo'⟩ w' ⟨henv, htxn, f, t', w'', hrollback, hfrees, hopens⟩
  apply Effect.rolledBack henv htxn hfrees rfl hrollback hopens

theorem effect_abort :
  wp handle (Op.run repo3pc repo .hedRepoAbort)
    (fun t r w' => Effect repo3pc repo w .hedRepoAbort t r.1 r.2 w') w
  := by
  cases htxn : repo.txn with
  | none =>
      rw [Op.run, hedRepoAbort, htxn]
      cases repo.env with
      | none => trivial
      | some env => trivial
  | some txn =>
      apply wp_bind_of handle (hedRepoAbort_spec htxn w)
      rintro t _ _ ⟨rfl, rfl, -⟩
      rw [wp_pure, List.append_nil]
      apply Effect.aborted htxn

/-- A function that reads. -/
theorem effect_read {op : Op} {α : Type} {p : Repo (α × HedRepo)} {f : α → Result}
    (hreads : op.reads = true) (h : wp handle p (fun _ r w' => w' = w ∧ r.2 = repo) w) :
  wp handle (do
      let r ← p
      pure (f r.1, r.2))
    (fun t r w' => Effect repo3pc repo w op t r.1 r.2 w') w
  := by
  apply wp_bind_of handle h
  rintro t ⟨a, _⟩ _ ⟨rfl, rfl⟩
  apply Effect.read hreads

theorem wp_hedRepoGet (table key : Bytes) :
  wp handle (hedRepoGet repo table key) (fun _ r w' => w' = w ∧ r.2 = repo) w
  := by
  cases htxn : repo.txn with
  | none =>
      rw [hedRepoGet_halt htxn]
      trivial
  | some txn =>
      apply wp_mono handle (hedRepoGet_spec htxn w table key)
      rintro t r w' ⟨hw, hrepo, -⟩
      use hw

theorem effect_get (table key : Bytes) :
  wp handle (Op.run repo3pc repo (.hedRepoGet table key))
    (fun t r w' => Effect repo3pc repo w (.hedRepoGet table key) t r.1 r.2 w') w
  := effect_read rfl (wp_hedRepoGet table key)

theorem effect_getVersion :
  wp handle (Op.run repo3pc repo .hedRepoGetVersion)
    (fun t r w' => Effect repo3pc repo w .hedRepoGetVersion t r.1 r.2 w') w
  := effect_read rfl (wp_hedRepoGet hedTable versionKey)

theorem effect_count (table : Bytes) :
  wp handle (Op.run repo3pc repo (.hedRepoCount table))
    (fun t r w' => Effect repo3pc repo w (.hedRepoCount table) t r.1 r.2 w') w
  := by
  apply effect_read rfl
  cases htxn : repo.txn with
  | none =>
      rw [hedRepoCount_halt htxn]
      trivial
  | some txn => apply hedRepoCount_spec htxn w table

/-- A function that writes. -/
theorem effect_write {op : Op} {p : Repo (ℤ × HedRepo)} {f : Content → Option Content}
    {txn : Txn} (hwrite : op.write = some f) (htxn : repo.txn = some txn)
    (h : wp handle p (Writes repo txn w (f txn.content)) w) :
  wp handle (do
      let r ← p
      pure (Result.code r.1, r.2))
    (fun t r w' => Effect repo3pc repo w op t r.1 r.2 w') w
  := by
  apply wp_code
  apply wp_mono handle h
  rintro t ⟨ret, repo'⟩ _ ⟨rfl, ⟨c, hc, hr, -⟩ | ⟨hret, hrepo, hcause⟩⟩
  · obtain ⟨rfl, rfl⟩ := Prod.mk.inj hr
    apply Effect.wrote hwrite htxn hc
  · obtain rfl : repo' = repo := hrepo
    apply Effect.unwritten hwrite htxn hret hcause

variable (hsound : Sound repo w)
include hsound

theorem effect_close :
  wp handle (Op.run repo3pc repo .hedRepoClose)
    (fun t r w' => Effect repo3pc repo w .hedRepoClose t r.1 r.2 w') w
  := by
  apply wp_bind_of handle (hedRepoClose_spec hsound.env_of_txn w)
  rintro t _ w' ⟨rfl, ⟨henv, rfl⟩ | ⟨henv, hcloses⟩⟩
  · rw [wp_pure, HedRepo.closed_of_none henv (hsound.env_of_txn henv)]
    apply Effect.unclosed henv
  · rw [wp_pure, List.append_nil]
    apply Effect.closed henv hcloses

theorem effect_start :
  wp handle (Op.run repo3pc repo .hedRepoStart)
    (fun t r w' => Effect repo3pc repo w .hedRepoStart t r.1 r.2 w') w
  := by
  apply wp_code
  cases henv : repo.env with
  | none =>
      rw [hedRepoStart, henv]
      trivial
  | some env =>
      have hne : repo.env ≠ none := by simp [henv]
      obtain ⟨c, hc⟩ := hsound.content hne
      have hwrite : env.flags &&& MDB_RDONLY = 0 := by
        rw [hsound.env_flags env henv]
        decide
      apply wp_mono handle (hedRepoStart_spec repo3pc hc henv hwrite)
      rintro t ⟨ret, repo'⟩ w' ⟨htxn, -, -, ⟨hr, rfl, ht, hcopies⟩ | ⟨hret, hrepo, rfl, ht⟩⟩
      · obtain ⟨rfl, rfl⟩ := Prod.mk.inj hr
        apply Effect.started hne htxn hc ht hcopies
      · obtain rfl : repo' = repo := hrepo
        apply Effect.unstarted hne htxn hc hret ht

theorem effect_commit :
  wp handle (Op.run repo3pc repo .hedRepoCommit)
    (fun t r w' => Effect repo3pc repo w .hedRepoCommit t r.1 r.2 w') w
  := by
  apply wp_code
  cases htxn : repo.txn with
  | none =>
      rw [hedRepoCommit, htxn]
      cases repo.env with
      | none => trivial
      | some env => trivial
  | some txn =>
      apply wp_mono handle (hedRepoCommit_spec htxn (hsound.txn_writable txn htxn) w)
      rintro t ⟨ret, repo'⟩ w' ⟨rfl, hlive, hmisuse, hbackup, -, -,
        ⟨rfl, hc, -⟩ | ⟨hret, hdata, -⟩⟩
      · apply Effect.committed htxn hc hlive hmisuse hbackup
      · apply Effect.uncommitted htxn hret (congrArg DataFile.content hdata) hlive hmisuse hbackup

theorem effect_update (table key value : Bytes) :
  wp handle (Op.run repo3pc repo (.hedRepoUpdate table key value))
    (fun t r w' => Effect repo3pc repo w (.hedRepoUpdate table key value) t r.1 r.2 w') w
  := by
  cases htxn : repo.txn with
  | none =>
      rw [Op.run, hedRepoUpdate_halt htxn]
      trivial
  | some txn =>
      apply effect_write rfl htxn
      apply hedRepoUpdate_spec htxn w (hsound.txn_writable txn htxn)

theorem effect_del (table key : Bytes) :
  wp handle (Op.run repo3pc repo (.hedRepoDel table key))
    (fun t r w' => Effect repo3pc repo w (.hedRepoDel table key) t r.1 r.2 w') w
  := by
  cases htxn : repo.txn with
  | none =>
      rw [Op.run, hedRepoDel_halt htxn]
      trivial
  | some txn =>
      apply effect_write rfl htxn
      apply hedRepoDel_spec htxn w (hsound.txn_writable txn htxn)

theorem effect_setVersion (value : Bytes) :
  wp handle (Op.run repo3pc repo (.hedRepoSetVersion value))
    (fun t r w' => Effect repo3pc repo w (.hedRepoSetVersion value) t r.1 r.2 w') w
  := by
  cases htxn : repo.txn with
  | none =>
      rw [Op.run, hedRepoSetVersion, hedRepoUpdate_halt htxn]
      trivial
  | some txn =>
      apply effect_write rfl htxn
      apply hedRepoUpdate_spec htxn w (hsound.txn_writable txn htxn)

theorem effect_nextSeq (table : Bytes) :
  wp handle (Op.run repo3pc repo (.hedRepoNextSeq table))
    (fun t r w' => Effect repo3pc repo w (.hedRepoNextSeq table) t r.1 r.2 w') w
  := by
  cases htxn : repo.txn with
  | none =>
      rw [Op.run, hedRepoNextSeq_halt htxn]
      trivial
  | some txn =>
      apply wp_bind_of handle
        (hedRepoNextSeq_spec htxn w (hsound.txn_writable txn htxn) table)
      rintro t _ _ ⟨rfl, ⟨old, c, hold, hlength, hc, rfl, ht⟩ | ⟨rfl, hcause⟩⟩
      · rw [wp_pure, List.append_nil]
        apply Effect.counted htxn hold hlength hc ht
      · rw [wp_pure, List.append_nil]
        apply Effect.uncounted htxn hcause

/-- Every function does what `Effect` says. -/
theorem effect_run (op : Op) :
  wp handle (Op.run repo3pc repo op)
    (fun t r w' => Effect repo3pc repo w op t r.1 r.2 w') w
  := by
  cases op with
  | hedRepoOpen table flags mode => apply effect_open
  | hedRepoClose => apply effect_close hsound
  | hedRepoReload => apply effect_reload
  | hedRepoStart => apply effect_start hsound
  | hedRepoCommit => apply effect_commit hsound
  | hedRepoAbort => apply effect_abort
  | hedRepoRollback => apply effect_rollback
  | hedRepoGet table key => apply effect_get
  | hedRepoUpdate table key value => apply effect_update hsound
  | hedRepoDel table key => apply effect_del hsound
  | hedRepoCount table => apply effect_count
  | hedRepoNextSeq table => apply effect_nextSeq hsound
  | hedRepoGetVersion => apply effect_getVersion
  | hedRepoSetVersion value => apply effect_setVersion hsound

end Effects

/-! ### Soundness -/

namespace Sound

variable {repo : HedRepo} {w : World}

theorem no_env (hsound : Sound repo w) (h : repo.txn ≠ none) :
  repo.env ≠ none
  := by
  intro henv
  apply h (hsound.env_of_txn henv)

/-- Ending the transaction keeps a repository sound. -/
theorem end_txn (hsound : Sound repo w) {w' : World}
    (hw : repo.env ≠ none → ∃ c, w'.content = some c) :
  Sound { repo with txn := none } w'
  := by
  constructor
  · apply hsound.env_flags
  · intro _
    rfl
  · rintro txn ⟨⟩
  · apply hw

/-- Working in the transaction keeps a repository sound. -/
theorem work (hsound : Sound repo w) {txn : Txn} (htxn : repo.txn = some txn) (c : Content) :
  Sound (repo.work txn c) w
  := by
  constructor
  · apply hsound.env_flags
  · intro henv
    have hnone := hsound.env_of_txn henv
    rw [htxn] at hnone
    cases hnone
  · rintro _ ⟨⟩
    apply hsound.txn_writable txn htxn
  · apply hsound.content

end Sound

theorem Opened.sound {repo3pc : Bool} {table : List Bytes} {flags : Flags} {mode : ℕ}
    {repo : HedRepo} {w w' : World} (h : Opened repo3pc table flags mode w repo w') :
  Sound repo w'
  := by
  obtain ⟨env, rfl, hflags⟩ := h.handle
  obtain ⟨c, c', -, -, hc', -⟩ := h.content
  exact Sound.of_env rfl hflags rfl hc'

/-- Every function keeps a repository sound. -/
theorem Effect.sound {repo3pc : Bool} {repo repo' : HedRepo} {w w' : World} {op : Op}
    {t : List (Event calls Fate)} {result : Result} (hsound : Sound repo w)
    (h : Effect repo3pc repo w op t result repo' w') :
  Sound repo' w'
  := by
  cases h with
  | opened admits opened => apply opened.sound
  | unopened admits ret_ne content txn_none sound => apply sound
  | closed env_ne closes => apply Sound.of_closed rfl rfl
  | unclosed env_none => apply hsound
  | reloaded env_ne txn_none frees opens => apply opens.sound rfl rfl
  | rolledBack env_ne txn_none frees has3pc rollback opens => apply opens.sound rfl rfl
  | started env_ne txn_none content =>
      constructor
      · apply hsound.env_flags
      · intro henv
        apply (env_ne henv).elim
      · rintro _ ⟨⟩
        rfl
      · intro _
        rw [World.began_content, World.backedUp_content]
        apply hsound.content env_ne
  | unstarted env_ne txn_none content ret_ne dirty =>
      constructor
      · apply hsound.env_flags
      · apply hsound.env_of_txn
      · apply hsound.txn_writable
      · apply hsound.content
  | committed txn_eq content live misuse backup =>
      apply hsound.end_txn
      intro _
      exact ⟨_, content⟩
  | uncommitted txn_eq ret_ne content live misuse backup =>
      apply hsound.end_txn
      rw [content]
      apply hsound.content
  | aborted txn_eq =>
      apply hsound.end_txn
      rw [World.release_content]
      apply hsound.content
  | read reads => apply hsound
  | wrote write txn_eq content => apply hsound.work txn_eq
  | unwritten write txn_eq ret_ne cause => apply hsound
  | counted txn_eq record length content => apply hsound.work txn_eq
  | uncounted txn_eq cause => apply hsound

/-- Every invocation on a sound repository has one of the effects. -/
theorem Invokes.effect {repo3pc : Bool} {s s' : Sys} {i : Invocation}
    (hsound : Sound s.repo s.world) (h : Invokes repo3pc s i s') :
  Effect repo3pc s.repo s.world i.op i.trace i.result s'.repo s'.world
  := h.of_wp (effect_run hsound i.op)

theorem Invokes.sound {repo3pc : Bool} {s s' : Sys} {i : Invocation}
    (hsound : Sound s.repo s.world) (h : Invokes repo3pc s i s') :
  Sound s'.repo s'.world
  := (h.effect hsound).sound hsound

/-- A `hed_repo_open` that returns zero has opened the repository, whatever the repository
structure was before. -/
theorem Invokes.opened {repo3pc : Bool} {s s' : Sys} {i : Invocation} {table : List Bytes}
    {flags : Flags} {mode : ℕ} (h : Invokes repo3pc s i s')
    (hop : i.op = .hedRepoOpen table flags mode) (hret : i.result = .code 0) :
  Admits flags ∧ Opened repo3pc table flags mode s.world s'.repo s'.world
  := by
  have hwp : wp handle (i.op.run repo3pc s.repo)
      (fun t r w' => Effect repo3pc s.repo s.world i.op t r.1 r.2 w') s.world := by
    rw [hop]
    apply effect_open
  have heffect := h.of_wp hwp
  rw [hop, hret] at heffect
  obtain ⟨repo, w⟩ := s
  obtain ⟨repo', w'⟩ := s'
  clear h hwp
  cases heffect with
  | opened admits opened => exact ⟨admits, opened⟩
  | unopened admits ret_ne => apply (ret_ne rfl).elim
  | read reads => cases reads
  | wrote write => cases write
  | unwritten write => cases write

/-- In every run from a sound system the systems stay sound, and every call has one of the
effects. -/
theorem run_effects {repo3pc : Bool} {s s' : Sys} {is : List Invocation}
    (hsound : Sound s.repo s.world) (h : Run (Invokes repo3pc) s is s') :
  Sound s'.repo s'.world
    ∧ Along (fun _ i => Effect repo3pc i.before.repo i.before.world i.op i.trace i.result
      i.after.repo i.after.world) is
  := by
  apply h.along (I := fun _ s => Sound s.repo s.world) (C := fun _ _ => True) hsound
  · intro _ i s₁ s₂ hsound₁ hinvokes _
    use hinvokes.sound hsound₁
    rw [hinvokes.before_eq, hinvokes.after_eq]
    apply hinvokes.effect hsound₁
  · intro _ _ _ _
    trivial

/-! ### Sessions -/

/-- What a client does from a successful `hed_repo_open` on: `before` is the system before
the opening, `s` the one at its return, and `is` are the calls made since. -/
structure Session (repo3pc : Bool) (table : List Bytes) (flags : Flags) (mode : ℕ)
    (before s : Sys) (is : List Invocation) (s' : Sys) : Prop where
  opening : ∃ i, Invokes repo3pc before i s ∧ i.op = .hedRepoOpen table flags mode
    ∧ i.result = .code 0
  run : Run (Invokes repo3pc) s is s'

namespace Session

variable {repo3pc : Bool} {table : List Bytes} {flags : Flags} {mode : ℕ} {before s s' : Sys}
  {is : List Invocation}

theorem opened (h : Session repo3pc table flags mode before s is s') :
  Admits flags ∧ Opened repo3pc table flags mode before.world s.repo s.world
  := by
  obtain ⟨i, hinvokes, hop, hret⟩ := h.opening
  apply hinvokes.opened hop hret

theorem sound (h : Session repo3pc table flags mode before s is s') :
  Sound s.repo s.world
  := h.opened.2.sound

/-- Every call of a session, whatever the client calls, has one of the effects. -/
theorem effects (h : Session repo3pc table flags mode before s is s') :
  ∀ i ∈ is, Effect repo3pc i.before.repo i.before.world i.op i.trace i.result
    i.after.repo i.after.world
  := by
  have hrun := run_effects h.sound h.run
  apply along_iff_forall_mem.mp hrun.2

end Session

/-- Open a repository and play a script: the system at the return of the opening, and what
the script leads to. -/
def Sys.playSession (repo3pc : Bool) (before : Sys) (table : List Bytes) (flags : Flags)
    (mode : ℕ) (fates : List Fate) (script : List (Op × List Fate)) :
    Option (Sys × List Invocation × Sys) :=
  (before.invoke repo3pc (.hedRepoOpen table flags mode) fates).bind (fun i =>
    if i.result = .code 0 then (i.after.play repo3pc script).map (fun r => (i.after, r)) else none)

theorem session_of_play {repo3pc : Bool} {before s s' : Sys} {table : List Bytes}
    {flags : Flags} {mode : ℕ} {fates : List Fate} {script : List (Op × List Fate)}
    {is : List Invocation}
    (h : before.playSession repo3pc table flags mode fates script = some (s, is, s')) :
  Session repo3pc table flags mode before s is s'
  := by
  obtain ⟨i, hi, h'⟩ := Option.bind_eq_some_iff.mp h
  split_ifs at h' with hret
  obtain ⟨r, hplay, hr⟩ := Option.map_eq_some_iff.mp h'
  obtain ⟨rfl, rfl⟩ := Prod.mk.inj hr
  have hop : i.op = .hedRepoOpen table flags mode := invoke_op hi
  constructor
  · use i
    constructor
    · use ⟨fates, by rw [hop, hi]⟩
    · exact ⟨hop, hret⟩
  · apply run_play hplay

theorem ops_of_playSession {repo3pc : Bool} {before s s' : Sys} {table : List Bytes}
    {flags : Flags} {mode : ℕ} {fates : List Fate} {script : List (Op × List Fate)}
    {is : List Invocation} {P : Op → Prop}
    (h : before.playSession repo3pc table flags mode fates script = some (s, is, s'))
    (hP : ∀ turn ∈ script, P turn.1) :
  ∀ i ∈ is, P i.op
  := by
  obtain ⟨i, -, h'⟩ := Option.bind_eq_some_iff.mp h
  split_ifs at h' with hret
  obtain ⟨r, hplay, hr⟩ := Option.map_eq_some_iff.mp h'
  obtain ⟨rfl, rfl⟩ := Prod.mk.inj hr
  apply ops_of_play hplay hP

/-- A process that has opened nothing, and no file at the path. -/
def Sys.fresh : Sys := ⟨HedRepo.unset, ⟨none, none, [], false, 0⟩⟩

end Hed
