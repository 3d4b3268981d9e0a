import Hed.Prelude.Contract
import Hed.Repo.Processes
import Hed.Repo.Sequential
import Hed.Repo.Setup

/-!
# What a process does to its transaction

Every function of `repo.h` but `hed_repo_rollback` keeps to one contract, whatever other
processes do between its calls: a process copies to a backup it has opened itself, begins
transactions in the environment it has opened, and commits what its functions amount to.
-/

namespace Hed

open Program

/-- Processes that call the functions of `repo.h`, with or without `CONFIG_HED_REPO_3PC`. -/
def clients (repo3pc : Bool) (ι : Type) [DecidableEq ι] :
    Interleaving calls ι Fate (Shared ι) Op Result HedRepo where
  program op repo := op.run repo3pc repo
  handle := Shared.handle
  waits _ := Shared.waits

/-- What a commit publishes besides the calls on records made since its transaction began:
a repository is opened and reloaded in a transaction of its own. -/
def Op.publishes : Op → List (Op × Result)
  | .hedRepoCommit => []
  | op => [(op, .code 0)]

/-- What a process does in its transaction when a function returns. -/
def Op.logs (op : Op) (result : Result) : List (Op × Result) :=
  if op.recorded then [(op, result)] else []

/-! ### The contract -/

/-- How far a process is: the function it is in; whether it has opened a backup to copy to;
the environment it has opened last; the transaction it has; and the content its functions
have left in that transaction so far. -/
structure Stage where
  op : Option Op
  created : Bool
  env : Option ℕ
  work : Option ℕ
  held : Option Content

namespace Stage

/-- A process that has done nothing. -/
def unset : Stage := ⟨none, false, none, none, none⟩

/-- The transaction of the process has ended. -/
def free (θ : Stage) : Stage := { θ with work := none, held := none }

/-- The transaction of a repository is the one the process has. -/
def Works (θ : Stage) (repo : HedRepo) : Prop :=
  ∀ txn, repo.txn = some txn → θ.work = some txn.id ∧ txn.readonly = false

/-- The environment and the transaction of a repository are the ones the process has. -/
def Owns (θ : Stage) (repo : HedRepo) : Prop :=
  (∀ env, repo.env = some env → θ.env = some env.id) ∧ θ.Works repo

theorem works_of_none {repo : HedRepo} (htxn : repo.txn = none) (θ : Stage) :
  θ.Works repo
  := by
  intro txn h
  cases htxn.symm.trans h

theorem owns_closed (θ : Stage) (repo : HedRepo) :
  θ.Owns repo.closed
  := by
  constructor
  · rintro env ⟨⟩
  · rintro txn ⟨⟩

/-- A process commits what the functions of its transaction amount to. -/
def Commits (θ : Stage) (txn : Txn) : Prop :=
  ∃ op c, θ.op = some op ∧ θ.held = some c ∧ Run Hed.Works c op.publishes txn.content

end Stage

/-- A process copies to a backup it has opened.  It begins transactions that can write, in
the environment it has opened, and ends the one it has.  Calls on records get the replies
LMDB gives, whatever the state of the files. -/
def clientTerms : Terms calls Op Result HedRepo Stage where
  allows θ c :=
    match c with
    | .rename => False
    | .mdbEnvCopyfd _ => θ.created = true
    | .mdbTxnBegin env flags => θ.env = some env.id ∧ flags = 0
    | .mdbTxnCommit txn => θ.work = some txn.id ∧ txn.readonly = false ∧ θ.Commits txn
    | .mdbTxnAbort txn => θ.work = some txn.id ∧ txn.readonly = false
    | _ => True
  can _ c reply :=
    match c, reply with
    | .mdbEnvOpen env _ _, .ok env' => env'.id = env.id
    | .mdbTxnBegin _ flags, .ok txn => txn.readonly = decide (flags &&& MDB_RDONLY ≠ 0)
    | _, _ => c.OnRecords → ∀ w, ∃ f, handle f c w = (reply, w)
  next θ c reply :=
    match c, reply with
    | .ufileNew _ _, .ok _ => { θ with created := true }
    | .mdbEnvOpen _ _ _, .ok env => { θ with env := some env.id }
    | .mdbTxnBegin _ _, .ok txn => { θ with work := some txn.id, held := some txn.content }
    | .mdbTxnCommit _, _ => θ.free
    | .mdbTxnAbort _, _ => θ.free
    | _, _ => θ
  enter op θ := { θ with op := some op }
  leave r θ := { θ with held := r.2.txn.map Txn.content }
  Rest θ repo :=
    θ.Owns repo ∧ ∀ txn, repo.txn = some txn → θ.held = some txn.content
  Post op θ r :=
    θ.Owns r.2 ∧ (op.recorded = true → r.2.txn ≠ none) ∧ ∀ txn, r.2.txn = some txn →
      ∃ c, θ.held = some c ∧ Run Works c (op.logs r.1) txn.content
  Admits op := op ≠ .hedRepoRollback

/-! ### The functions honour the contract -/

section Honours

variable {θ : Stage} {repo : HedRepo} {txn : Txn}

/-- A program of calls on records gets the replies it gets in any world. -/
theorem honours_onRecords {α : Type} {p : Repo α}
    {Q : List (Event calls Fate) → α → World → Prop} (hp : p.Calls Call.OnRecords) (w : World)
    (h : wp handle p Q w) :
  Honours clientTerms.toContract p (fun θ' a => θ' = θ ∧ ∃ t, Q t a w) θ
  := by
  apply honours_of_wp _ handle hp _ _ _ h
  · intro c hc
    cases c with
    | mdbDbiOpen txn name flags => trivial
    | mdbDrop txn dbi => trivial
    | mdbGet txn dbi key => trivial
    | mdbPut txn dbi key value => trivial
    | mdbDel txn dbi key => trivial
    | mdbStat txn dbi => trivial
    | _ => cases hc
  · intro c reply hc
    cases c with
    | mdbDbiOpen txn name flags => rfl
    | mdbDrop txn dbi => rfl
    | mdbGet txn dbi key => rfl
    | mdbPut txn dbi key value => rfl
    | mdbDel txn dbi key => rfl
    | mdbStat txn dbi => rfl
    | _ => cases hc
  · intro c reply hc hcan
    cases c with
    | mdbDbiOpen txn name flags => apply hcan trivial
    | mdbDrop txn dbi => apply hcan trivial
    | mdbGet txn dbi key => apply hcan trivial
    | mdbPut txn dbi key value => apply hcan trivial
    | mdbDel txn dbi key => apply hcan trivial
    | mdbStat txn dbi => apply hcan trivial
    | _ => cases hc

/-- Without a transaction the functions on records halt. -/
theorem halt_recorded {op : Op} (hop : op.recorded = true) (repo3pc : Bool)
    (htxn : repo.txn = none) :
  op.run repo3pc repo = .halt
  := by
  cases op with
  | hedRepoGet table key => rw [Op.run, hedRepoGet_halt htxn, halt_bind]
  | hedRepoUpdate table key value => rw [Op.run, hedRepoUpdate_halt htxn, halt_bind]
  | hedRepoDel table key => rw [Op.run, hedRepoDel_halt htxn, halt_bind]
  | hedRepoCount table => rw [Op.run, hedRepoCount_halt htxn, halt_bind]
  | hedRepoNextSeq table => rw [Op.run, hedRepoNextSeq_halt htxn, halt_bind]
  | hedRepoGetVersion => rw [Op.run, hedRepoGetVersion, hedRepoGet_halt htxn, halt_bind]
  | hedRepoSetVersion value => rw [Op.run, hedRepoSetVersion, hedRepoUpdate_halt htxn, halt_bind]
  | _ => cases hop

/-- The functions on records leave the transaction with what they have made of its content. -/
theorem honours_recorded {op : Op} (hop : op.recorded = true) (repo3pc : Bool)
    (hrest : clientTerms.Rest θ repo) :
  Honours clientTerms.toContract (op.run repo3pc repo) (clientTerms.Post op) θ
  := by
  cases htxn : repo.txn with
  | none =>
      rw [halt_recorded hop repo3pc htxn]
      trivial
  | some txn =>
      obtain ⟨⟨henv, hwork⟩, hheld⟩ := hrest
      obtain ⟨hid, hro⟩ := hwork txn htxn
      apply honours_mono _ (honours_onRecords (calls_recorded hop repo3pc repo) Sys.fresh.world
        (works_recorded htxn _ hro hop repo3pc))
      rintro _ ⟨result, repo'⟩ ⟨rfl, -, c, hrepo, hworks⟩
      obtain rfl : repo' = repo.work txn c := hrepo
      constructor
      · use henv
        rintro _ ⟨⟩
        exact ⟨hid, hro⟩
      · constructor
        · rintro - ⟨⟩
        · rintro _ ⟨⟩
          use txn.content, hheld txn htxn
          rw [Op.logs, if_pos hop]
          apply Run.single hworks

/-- Preparing the tables in the transaction sets up its content. -/
theorem honours_repoSetup (htxn : repo.txn = some txn) (hro : txn.readonly = false)
    (flags : Flags) :
  Honours clientTerms.toContract (repoSetup repo flags)
    (fun θ' r => θ' = θ ∧ ∃ c, r.2 = repo.work txn c
      ∧ (r.1 = 0 → txn.content.setup flags repo.table = some c)) θ
  := by
  apply honours_mono _ (honours_onRecords (calls_repoSetup repo flags) Sys.fresh.world
    (repoSetup_spec htxn hro _ flags))
  rintro _ ⟨ret, repo'⟩ ⟨rfl, t, -, ⟨c, hc, hr, -⟩ | ⟨hret, ⟨c, hrepo⟩, -⟩⟩
  · obtain ⟨rfl, rfl⟩ := Prod.mk.inj hr
    exact ⟨rfl, c, rfl, fun _ => hc⟩
  · exact ⟨rfl, c, hrepo, fun hzero => (hret hzero).elim⟩

theorem honours_hedRepoAbort (hwork : θ.Works repo) :
  Honours clientTerms.toContract (hedRepoAbort repo)
    (fun θ' repo' => θ' = θ.free ∧ repo' = { repo with txn := none }) θ
  := by
  rw [hedRepoAbort, honours_demand_bind]
  intro env _
  rw [honours_demand_bind]
  intro txn htxn
  use hwork txn htxn
  intro _ _
  exact ⟨rfl, rfl⟩

theorem honours_hedRepoCommit (hwork : θ.Works repo)
    (hcommits : ∀ txn, repo.txn = some txn → θ.Commits txn) :
  Honours clientTerms.toContract (hedRepoCommit repo)
    (fun θ' r => θ' = θ.free ∧ r.2 = { repo with txn := none }) θ
  := by
  rw [hedRepoCommit, honours_demand_bind]
  intro env _
  rw [honours_demand_bind]
  intro txn htxn
  obtain ⟨hid, hro⟩ := hwork txn htxn
  use ⟨hid, hro, hcommits txn htxn⟩
  intro _ _
  exact ⟨rfl, rfl⟩

/-- Closing ends a transaction that is open. -/
theorem honours_repoClose {env : Env} (henv : repo.env = some env) (hwork : θ.Works repo) :
  Honours clientTerms.toContract (repoClose repo)
    (fun θ' repo' => θ'.op = θ.op ∧ repo' = repo.closed) θ
  := by
  rw [repoClose, henv]
  cases htxn : repo.txn with
  | none =>
      rw [repoAbortPending, htxn]
      use trivial
      intro _ _
      use rfl
      rw [HedRepo.closed, ← htxn]
  | some txn =>
      rw [repoAbortPending, htxn]
      apply honours_bind_of _ (honours_hedRepoAbort hwork)
      rintro _ _ ⟨rfl, rfl⟩
      use trivial
      intro _ _
      exact ⟨rfl, rfl⟩

theorem honours_repoOpenError {env : Env} (henv : repo.env = some env) (hwork : θ.Works repo)
    (ret : ℤ) :
  Honours clientTerms.toContract (repoOpenError repo ret)
    (fun θ' r => θ'.Owns r.2 ∧ r.2.txn = none) θ
  := by
  apply honours_bind_of _ (honours_repoClose henv hwork)
  rintro θ' _ ⟨-, rfl⟩
  exact ⟨Stage.owns_closed θ' repo, rfl⟩

theorem honours_repoBackup (repo3pc : Bool) (repo : HedRepo) (env : Env) (flags : Flags) :
  Honours clientTerms.toContract (repoBackup repo3pc repo env flags)
    (fun θ' _ => θ'.op = θ.op ∧ θ'.env = θ.env) θ
  := by
  rw [repoBackup]
  split_ifs with h
  · use trivial
    rintro (e | _) _
    · exact ⟨rfl, rfl⟩
    · use rfl
      intro ret _
      use trivial
      intro _ _
      exact ⟨rfl, rfl⟩
  · exact ⟨rfl, rfl⟩

/-- A start begins a transaction and holds what it began from, or changes nothing. -/
theorem honours_hedRepoStart (repo3pc : Bool)
    (henv : ∀ env, repo.env = some env → θ.env = some env.id) :
  Honours clientTerms.toContract (hedRepoStart repo3pc repo)
    (fun θ' r => θ'.op = θ.op ∧ θ'.env = θ.env
      ∧ ((r.1 ≠ 0 ∧ r.2 = repo ∧ repo.txn = none)
        ∨ (r.1 = 0 ∧ ∃ txn, r.2 = { repo with txn := some txn } ∧ θ'.work = some txn.id
          ∧ txn.readonly = false ∧ θ'.held = some txn.content))) θ
  := by
  rw [hedRepoStart, honours_demand_bind]
  intro env hrepo
  rw [honours_require_bind]
  intro htxn
  simp only [rdonly_flag]
  apply honours_bind_of _ (honours_repoBackup repo3pc repo env 0)
  rintro θ' ret ⟨hop, henv'⟩
  split_ifs with hret
  · exact ⟨hop, henv', Or.inl ⟨hret, rfl, htxn⟩⟩
  · use ⟨henv'.trans (henv env hrepo), rfl⟩
    rintro (e | txn) hcan
    · exact ⟨hop, henv', Or.inl ⟨e.ne_zero, rfl, htxn⟩⟩
    · have hro : txn.readonly = false := hcan
      exact ⟨hop, henv', Or.inr ⟨rfl, txn, rfl, rfl, hro, rfl⟩⟩

/-- Opening a repository publishes what it has set up, and leaves no transaction. -/
theorem honours_repoOpen (repo3pc : Bool) (repo : HedRepo) {flags : Flags} {op : Op}
    (hop : θ.op = some op)
    (hworks : ∀ c c', c.setup flags repo.table = some c' → Run Works c op.publishes c') :
  Honours clientTerms.toContract (repoOpen repo3pc repo flags)
    (fun θ' r => θ'.Owns r.2 ∧ r.2.txn = none) θ
  := by
  rw [repoOpen, honours_require_bind]
  intro henv
  rw [honours_require_bind]
  intro htxn
  simp only [rdonly_flag]
  have herror : ∀ (θ' : Stage) (env : Env) (ret : ℤ),
      Honours clientTerms.toContract (repoOpenError { repo with env := some env } ret)
        (fun θ'' r => θ''.Owns r.2 ∧ r.2.txn = none) θ' := by
    intro θ' env ret
    have henv' : HedRepo.env { repo with env := some env } = some env := rfl
    apply honours_repoOpenError henv'
    apply Stage.works_of_none htxn
  apply honours_ask_bind _ trivial
  rintro (e | env) _
  · constructor
    · constructor
      · intro env h
        cases henv.symm.trans h
      · apply Stage.works_of_none htxn
    · apply htxn
  · apply honours_ask_bind _ trivial
    intro ret _
    split_ifs with hret
    · apply herror
    · apply honours_ask_bind _ trivial
      rintro (e | env') _
      · apply herror
      · apply honours_bind_of _ (honours_hedRepoStart repo3pc (by rintro _ ⟨⟩; rfl))
        rintro θ' ⟨ret', repo'⟩ ⟨hop', henv', ⟨hret', rfl, -⟩ | ⟨hret', txn, rfl, hid, hro, hheld⟩⟩
        · simp only [if_pos hret']
          apply herror
        · obtain rfl : ret' = 0 := hret'
          have hwork : ∀ c, θ'.Works { repo with
              env := some env', txn := some (txn.withContent c) } := by
            rintro c _ ⟨⟩
            exact ⟨hid, hro⟩
          apply honours_bind_of _ (honours_repoSetup rfl hro flags)
          rintro θ'' ⟨ret'', repo''⟩ ⟨rfl, c, hrepo, hsetup⟩
          obtain rfl := hrepo
          dsimp only
          split_ifs with hret''
          · exact honours_repoOpenError rfl (hwork c) ret''
          · have hcontent := hsetup (by_contra hret'')
            have hcommits : ∀ x, some (txn.withContent c) = some x → θ''.Commits x := by
              rintro _ ⟨⟩
              exact ⟨op, txn.content, hop'.trans hop, hheld, hworks _ _ hcontent⟩
            apply honours_mono _ (honours_hedRepoCommit (hwork c) hcommits)
            rintro _ ⟨ret₃, repo₃⟩ ⟨rfl, hrepo₃⟩
            obtain rfl := hrepo₃
            constructor
            · constructor
              · rintro _ ⟨⟩
                apply henv'
              · rintro _ ⟨⟩
            · rfl

theorem honours_hedRepoOpen (repo3pc : Bool) {table : List Bytes} {flags : Flags} {mode : ℕ}
    (hop : θ.op = some (.hedRepoOpen table flags mode)) :
  Honours clientTerms.toContract (hedRepoOpen repo3pc table flags mode)
    (fun θ' r => θ'.Owns r.2 ∧ r.2.txn = none) θ
  := by
  have hinit : ∀ θ' : Stage, θ'.Owns (HedRepo.init table flags mode)
      ∧ (HedRepo.init table flags mode).txn = none := by
    intro θ'
    exact ⟨Stage.owns_closed θ' (HedRepo.init table flags mode), rfl⟩
  rw [hedRepoOpen, honours_require_bind]
  intro _
  rw [honours_require_bind]
  intro _
  rw [honours_require_bind]
  intro _
  apply honours_ask_bind _ trivial
  intro backup _
  split_ifs with hbackup
  · apply hinit
  · apply honours_ask_bind _ trivial
    intro ret _
    split_ifs with hret
    · apply honours_ask_bind _ trivial
      intro _ _
      apply hinit
    · apply honours_ask_bind _ trivial
      intro ret' _
      split_ifs with hret'
      · apply honours_ask_bind _ trivial
        intro _ _
        apply hinit
      · apply honours_bind_of _ (honours_repoOpen repo3pc (HedRepo.init table flags mode) hop _)
        · rintro θ' ret'' hr
          split_ifs with hret''
          · apply honours_ask_bind _ trivial
            intro _ _
            apply honours_ask_bind _ trivial
            intro _ _
            apply hr
          · apply hr
        · intro c c' hsetup
          apply Run.single (Works.opened hsetup)

theorem honours_hedRepoReload (repo3pc : Bool) (hop : θ.op = some .hedRepoReload) :
  Honours clientTerms.toContract (hedRepoReload repo3pc repo)
    (fun θ' r => θ'.Owns r.2 ∧ r.2.txn = none) θ
  := by
  rw [hedRepoReload, honours_demand_bind]
  intro env henv
  rw [honours_require_bind]
  intro htxn
  apply honours_bind_of _ (honours_repoClose henv (Stage.works_of_none htxn θ))
  rintro θ' _ ⟨hop', rfl⟩
  apply honours_repoOpen repo3pc repo.closed (hop'.trans hop)
  intro c c' hsetup
  obtain rfl := Content.setup_of_accmode repo.flags_accmode hsetup
  apply Run.single Works.reloaded

theorem honours_hedRepoClose {env : Env} (henv : repo.env = some env) (hwork : θ.Works repo) :
  Honours clientTerms.toContract (hedRepoClose repo)
    (fun θ' repo' => θ'.Owns repo' ∧ repo'.txn = none) θ
  := by
  rw [hedRepoClose, henv]
  apply honours_bind_of _ (honours_repoClose henv hwork)
  rintro θ' _ ⟨-, rfl⟩
  have hclosed : ∀ θ' : Stage, θ'.Owns repo.closed ∧ repo.closed.txn = none := by
    intro θ'
    exact ⟨Stage.owns_closed θ' repo, rfl⟩
  split_ifs with hrdwr
  · apply honours_ask_bind _ trivial
    intro _ _
    apply honours_ask_bind _ trivial
    intro _ _
    apply honours_ask_bind _ trivial
    intro _ _
    apply hclosed
  · apply honours_ask_bind _ trivial
    intro _ _
    apply honours_ask_bind _ trivial
    intro _ _
    apply hclosed

/-- A function that leaves no transaction ends as the contract says. -/
theorem honours_returns {op : Op} (hop : op.recorded = false) {α : Type} {p : Repo α}
    {f : α → Result × HedRepo} (h : Honours clientTerms.toContract p
      (fun θ' a => θ'.Owns (f a).2 ∧ (f a).2.txn = none) θ) :
  Honours clientTerms.toContract (do
      let r ← p
      pure (f r)) (clientTerms.Post op) θ
  := by
  apply honours_bind_of _ h
  rintro θ' a ⟨howns, htxn⟩
  use howns
  constructor
  · intro hrecorded
    cases hop.symm.trans hrecorded
  · intro txn htxn'
    cases htxn.symm.trans htxn'

/-- Ending the transaction leaves the environment. -/
theorem owns_free (hrest : clientTerms.Rest θ repo) :
  θ.free.Owns { repo with txn := none }
  := by
  constructor
  · apply hrest.1.1
  · rintro txn ⟨⟩

/-- Every function of `repo.h` but `hed_repo_rollback` honours the contract. -/
theorem honours_run (repo3pc : Bool) {op : Op} (hop : op ≠ .hedRepoRollback)
    (hrest : clientTerms.Rest θ repo) :
  Honours clientTerms.toContract (op.run repo3pc repo) (clientTerms.Post op)
    (clientTerms.enter op θ)
  := by
  have hrest' : clientTerms.Rest (clientTerms.enter op θ) repo := hrest
  have hwork : Stage.Works (clientTerms.enter op θ) repo := hrest.1.2
  cases op with
  | hedRepoOpen table flags mode => apply honours_returns rfl (honours_hedRepoOpen repo3pc rfl)
  | hedRepoReload => apply honours_returns rfl (honours_hedRepoReload repo3pc rfl)
  | hedRepoClose =>
      cases henv : repo.env with
      | none =>
          rw [Op.run, hedRepoClose, henv]
          use hrest.1
          constructor
          · rintro ⟨⟩
          · intro txn htxn
            use txn.content, hrest.2 txn htxn
            apply Run.nil
      | some env => apply honours_returns rfl (honours_hedRepoClose henv hwork)
  | hedRepoStart =>
      apply honours_bind_of _ (honours_hedRepoStart repo3pc hrest'.1.1)
      rintro θ' ⟨ret, repo'⟩ ⟨-, henv, hstart⟩
      have henv' : ∀ env, repo.env = some env → θ'.env = some env.id := by
        rw [henv]
        apply hrest'.1.1
      rcases hstart with ⟨-, hrepo, htxn⟩ | ⟨-, txn, hrepo, hid, hro, hheld⟩
      · obtain rfl : repo' = repo := hrepo
        use ⟨henv', Stage.works_of_none htxn θ'⟩
        constructor
        · rintro ⟨⟩
        · intro txn h
          cases htxn.symm.trans h
      · obtain rfl : repo' = { repo with txn := some txn } := hrepo
        constructor
        · use henv'
          rintro _ ⟨⟩
          exact ⟨hid, hro⟩
        · constructor
          · rintro ⟨⟩
          · rintro _ ⟨⟩
            exact ⟨txn.content, hheld, Run.nil⟩
  | hedRepoCommit =>
      apply honours_returns rfl
      apply honours_mono _ (honours_hedRepoCommit hwork _)
      · rintro _ ⟨ret, repo'⟩ ⟨rfl, hrepo⟩
        obtain rfl := hrepo
        exact ⟨owns_free hrest', rfl⟩
      · intro txn htxn
        exact ⟨.hedRepoCommit, txn.content, rfl, hrest.2 txn htxn, Run.nil⟩
  | hedRepoAbort =>
      apply honours_returns rfl
      apply honours_mono _ (honours_hedRepoAbort hwork)
      rintro _ _ ⟨rfl, rfl⟩
      exact ⟨owns_free hrest', rfl⟩
  | hedRepoRollback => apply (hop rfl).elim
  | _ => apply honours_recorded rfl repo3pc hrest'

end Honours

end Hed
