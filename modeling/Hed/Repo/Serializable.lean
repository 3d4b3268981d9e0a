import Hed.Repo.Stages

/-!
# Serializability

Any number of processes call the functions of `repo.h` on one repository, and between any
two external calls of one of them the others may make theirs.  `run_serial` says that none of
this shows: what the committed transactions told their processes, and what they left in the
data file, is what the same calls do one after another, in the order of the commits; and a
process in a transaction sees all that was committed before, and its own calls.  Rollbacks are
left out: they move another file over the data file while others work on it.
-/

namespace Hed

open Program

/-! ### The journal -/

/-- What processes have done: the function each of them has called last; for each that has
a transaction, the functions that have returned in it, with their results; and those of the
committed transactions, in the order of their commits. -/
structure Journal (ι : Type) where
  called : ι → Option Op
  pending : ι → Option (List (Op × Result))
  committed : List (Op × Result)

namespace Journal

variable {ι : Type}

/-- Nothing has been done. -/
def empty : Journal ι := ⟨fun _ => none, fun _ => none, []⟩

/-- What the transaction of a process would publish. -/
def publishing (j : Journal ι) (p : ι) : List (Op × Result) :=
  (j.pending p).getD [] ++ ((j.called p).map Op.publishes).getD []

variable [DecidableEq ι]

/-- The journal after a step. -/
def next (j : Journal ι) : ProcessMove ι → Journal ι
  | .call p op => { j with called := Function.update j.called p (some op) }
  | .ask p c _ _ reply =>
      match c, reply with
      | .mdbTxnBegin _ _, .ok _ => { j with pending := Function.update j.pending p (some []) }
      | .mdbTxnAbort _, _ => { j with pending := Function.update j.pending p none }
      | .mdbTxnCommit _, .error _ => { j with pending := Function.update j.pending p none }
      | .mdbTxnCommit _, .ok _ =>
          { j with
            pending := Function.update j.pending p none
            committed := j.committed ++ j.publishing p }
      | _, _ => j
  | .ret p op result _ =>
      { j with
        pending := Function.update j.pending p
          ((j.pending p).map (fun es => es ++ op.logs result)) }

end Journal

/-- The journal of a run. -/
def journal {ι : Type} [DecidableEq ι] (ms : List (ProcessMove ι)) : Journal ι :=
  ms.foldl Journal.next .empty

theorem journal_snoc {ι : Type} [DecidableEq ι] (ms : List (ProcessMove ι))
    (m : ProcessMove ι) :
  journal (ms ++ [m]) = (journal ms).next m
  := by
  rw [journal, List.foldl_append]
  rfl

/-- A call that neither begins nor ends a transaction is no entry of the journal. -/
theorem Journal.next_of_not_bounds {ι : Type} [DecidableEq ι] (j : Journal ι) {p : ι} {c : Call}
    (hc : ¬ c.Bounds) (f : Fate) (w : Shared ι) (reply : c.Reply) :
  j.next (.ask p c f w reply) = j
  := by
  cases c with
  | mdbTxnBegin env flags => apply (hc trivial).elim
  | mdbTxnCommit txn => apply (hc trivial).elim
  | mdbTxnAbort txn => apply (hc trivial).elim
  | _ => rfl

/-! ### The files of a process -/

section Files

variable {ι : Type}

/-- The environment and the transaction of a process work on the file with the name of the
repository, and the backup it copies to is another one. -/
structure Placed (θ : Stage) (p : ι) (s : Shared ι) : Prop where
  env : ∀ id, θ.env = some id → s.data = some (s.mapped p id)
  work : ∀ id, θ.work = some id → s.data = some (s.mapped p id)
  created : θ.created = true → s.fd p < s.fresh ∧ s.data ≠ some (s.fd p)

theorem Placed.of_eq {θ θ' : Stage} {p : ι} {s s' : Shared ι} (h : Placed θ p s)
    (henv : θ'.env = θ.env) (hwork : θ'.work = θ.work) (hcreated : θ'.created = θ.created)
    (hdata : s'.data = s.data) (hmapped : s'.mapped p = s.mapped p) (hfd : s'.fd p = s.fd p)
    (hfresh : s.fresh ≤ s'.fresh) :
  Placed θ' p s'
  := by
  constructor
  · rw [henv, hdata, hmapped]
    apply h.env
  · rw [hwork, hdata, hmapped]
    apply h.work
  · rw [hcreated, hdata, hfd]
    intro hθ
    exact ⟨(h.created hθ).1.trans_le hfresh, (h.created hθ).2⟩

/-- Ending the transaction leaves the files. -/
theorem Placed.free {θ : Stage} {p : ι} {s : Shared ι} (h : Placed θ p s) :
  Placed θ.free p s
  := by
  constructor
  · apply h.env
  · rintro id ⟨⟩
  · apply h.created

variable [DecidableEq ι] {p q : ι} {f : Fate} {c : Call} {s s' : Shared ι} {θ : Stage}

/-- The calls of the others leave the files of a process. -/
theorem Placed.others (h : Placed θ q s) (hchange : Shared.Change p f c s s') (hq : q ≠ p)
    (hc : c ≠ .rename) :
  Placed θ q s'
  := by
  obtain ⟨hfd, hmapped⟩ := hchange.others hq
  rcases hchange.data hc with hdata | ⟨hnone, hdata⟩
  · exact h.of_eq rfl rfl rfl hdata hmapped hfd hchange.fresh_le
  · constructor
    · intro id hid
      cases hnone.symm.trans (h.env id hid)
    · intro id hid
      cases hnone.symm.trans (h.work id hid)
    · intro hθ
      obtain ⟨hlt, -⟩ := h.created hθ
      rw [hfd, hdata]
      use hlt.trans_le hchange.fresh_le
      intro heq
      apply hlt.ne (Option.some.inj heq).symm

/-- Mapping the file with the name of the repository. -/
theorem Placed.map (h : Placed θ p s) {i : Inode} (hdata : s.data = some i) (id : ℕ) :
  Placed θ p (s.map p id i) ∧ (s.map p id i).mapped p id = i
  := by
  have hmapped : ∀ id', s.data = some (s.mapped p id') →
      s.data = some ((s.map p id i).mapped p id') := by
    intro id' h'
    simp only [Shared.map, Function.update_self]
    by_cases hid : id' = id
    · rw [hid, Function.update_self, hdata]
    · rw [Function.update_of_ne hid, h']
  constructor
  · constructor
    · intro id' hid'
      apply hmapped id' (h.env id' hid')
    · intro id' hid'
      apply hmapped id' (h.work id' hid')
    · apply h.created
  · simp only [Shared.map, Function.update_self]

/-- Creating the backup opens a file that is not the one with the name of the repository. -/
theorem Placed.create (h : Placed θ p s) (hapart : s.Apart) (flags : Flags) :
  Placed { θ with created := true } p (s.create p flags)
  := by
  rw [Shared.create]
  split
  · constructor
    · apply h.env
    · apply h.work
    · intro _
      simp only [Function.update_self]
      use Nat.lt_succ_self _
      intro hdata
      apply (hapart.data_lt _ hdata).ne rfl
  · rename_i i hi
    constructor
    · apply h.env
    · apply h.work
    · intro _
      simp only [Function.update_self]
      exact ⟨hapart.backup_lt i hi, hapart.data_ne i hi⟩

/-- Opening an environment maps the file with the name of the repository. -/
theorem Placed.envOpen (h : Placed θ p s) (env : Env) (flags : Flags) (mode : ℕ) :
  Placed (clientTerms.next θ (.mdbEnvOpen env flags mode) (s.envOpen p env flags).1) p
    (s.envOpen p env flags).2
  := by
  have hmap : ∀ {i : Inode}, s.data = some i →
      Placed { θ with env := some env.id } p (s.map p env.id i) := by
    intro i hdata
    obtain ⟨hplaced, hmapped⟩ := h.map hdata env.id
    constructor
    · rintro id ⟨⟩
      rw [hmapped]
      apply hdata
    · apply hplaced.work
    · apply hplaced.created
  rw [Shared.envOpen]
  split
  · rename_i hnone
    split_ifs with hro
    · apply h
    · constructor
      · rintro id ⟨⟩
        simp only [Shared.map, Function.update_self]
      · intro id hid
        cases hnone.symm.trans (h.work id hid)
      · intro hθ
        obtain ⟨hlt, -⟩ := h.created hθ
        use hlt.trans (Nat.lt_succ_self _)
        intro heq
        apply hlt.ne (Option.some.inj heq).symm
  · rename_i i hdata
    split
    · apply h
    · apply hmap hdata
    · split_ifs with hro
      · apply h
      · exact (hmap hdata).of_eq rfl rfl rfl rfl rfl rfl (le_refl _)

/-- A call the contract allows leaves a process with its files, if it neither begins nor ends
a transaction. -/
theorem Placed.own (h : Placed θ p s) (hapart : s.Apart) (hallows : clientTerms.allows θ c)
    (hc : ¬ c.Bounds) :
  Placed (clientTerms.next θ c (Shared.handle p f c s).1) p (Shared.handle p f c s).2
  := by
  by_cases hquiet : c.Quiet
  · obtain ⟨n, writer, hs⟩ := Shared.handle_quiet (p := p) (f := f) (s := s) hquiet
    rw [hs]
    have hnext : ∀ reply, clientTerms.next θ c reply = θ := by
      cases c with
      | ufileNew flags mode => cases hquiet
      | mdbEnvOpen env flags mode => cases hquiet
      | mdbTxnAbort txn => apply (hc trivial).elim
      | mdbTxnBegin env flags => cases hquiet
      | mdbTxnCommit txn => cases hquiet
      | _ => exact fun _ => rfl
    rw [hnext]
    exact h.of_eq rfl rfl rfl rfl rfl rfl (le_refl _)
  cases c with
  | ufileNew flags mode =>
      cases f with
      | ok => exact h.create hapart flags
      | fail e left => exact h
  | rename => apply hallows.elim
  | remove =>
      have hremove : ∃ backup, (Shared.handle p f .remove s).2 = { s with backup := backup } := by
        cases f with
        | ok =>
            simp only [Shared.handle, attempt, Shared.remove]
            split
            · exact ⟨s.backup, rfl⟩
            · exact ⟨none, rfl⟩
        | fail e left => exact ⟨s.backup, rfl⟩
      obtain ⟨backup, hbackup⟩ := hremove
      rw [hbackup]
      exact h.of_eq rfl rfl rfl rfl rfl rfl (le_refl _)
  | mdbEnvOpen env flags mode =>
      cases f with
      | ok =>
          have hopen : Shared.handle p .ok (.mdbEnvOpen env flags mode) s
              = s.envOpen p env flags := rfl
          rw [hopen]
          apply h.envOpen
      | fail e left => exact h
  | mdbEnvCopyfd env =>
      have hcopy : Shared.handle p f (.mdbEnvCopyfd env) s = s.copy p env f := rfl
      rw [hcopy, Shared.copy.eq_def]
      split
      · exact h
      · exact h.of_eq rfl rfl rfl rfl rfl rfl (le_refl _)
  | mdbTxnBegin env flags => apply (hc trivial).elim
  | mdbTxnCommit txn => apply (hc trivial).elim
  | _ => apply (hquiet trivial).elim

/-- Calls that neither begin nor end a transaction leave the committed content. -/
theorem Placed.committed (h : Placed θ p s) (hapart : s.Apart)
    (hallows : clientTerms.allows θ c) (hc : ¬ c.Bounds) :
  (Shared.handle p f c s).2.committed = s.committed
  := by
  have hrename : c ≠ .rename := by
    rintro rfl
    apply hallows
  rcases (Shared.change_handle p f c s).committed hapart hrename with
    hsame | ⟨i, file, hwrites, hdata, -⟩
  · apply hsame
  · exfalso
    cases c with
    | ufileNew flags mode =>
        rw [Shared.writes] at hwrites
        split_ifs at hwrites with htrunc
        obtain ⟨j, hbackup, hj⟩ := Option.map_eq_some_iff.mp hwrites
        obtain ⟨rfl, -⟩ := Prod.mk.inj hj
        apply hapart.data_ne j hbackup hdata
    | mdbEnvCopyfd env =>
        obtain ⟨file', -, hj⟩ := Option.map_eq_some_iff.mp hwrites
        obtain ⟨rfl, -⟩ := Prod.mk.inj hj
        apply (h.created hallows).2 hdata
    | mdbTxnCommit txn => apply hc trivial
    | _ => cases hwrites

end Files

/-! ### The invariant -/

section Invariant

variable {ι : Type}

/-- What holds of one process while the committed content is `c`: its files are where they
should be; it has the lock exactly while it has a transaction; and what its functions have
left there is what they make of the committed content. -/
structure Member (c : Content) (called : Option Op) (pending : Option (List (Op × Result)))
    (θ : Stage) (p : ι) (s : Shared ι) : Prop where
  placed : Placed θ p s
  called_eq : called = θ.op
  lock : s.writer = some p ↔ θ.work ≠ none
  pending_iff : pending = none ↔ θ.work = none
  held : ∀ c', θ.held = some c' → θ.work ≠ none ∧ Run Works c (pending.getD []) c'

/-- What holds of the processes and of their world: the committed content is what the
committed transactions, one after another, make of the content there was. -/
structure Serial (c₀ : Content) (j : Journal ι) (θ : ι → Stage) (s : Shared ι) : Prop where
  apart : s.Apart
  members : ∃ c, s.committed = some c ∧ Run Works c₀ j.committed c
    ∧ ∀ p, Member c (j.called p) (j.pending p) (θ p) p s

variable {c c' : Content} {called : Option Op} {pending : Option (List (Op × Result))}
  {θ : Stage} {p q : ι} {s s' : Shared ι}

/-- A process without the lock has no transaction, so it does not matter to it what the
committed content is. -/
theorem Member.idle (h : Member c called pending θ p s) (hplaced : Placed θ p s')
    (hwriter : s.writer ≠ some p) (hwriter' : s'.writer ≠ some p) :
  Member c' called pending θ p s'
  := by
  have hwork : θ.work = none := by
    by_contra hne
    apply hwriter (h.lock.mpr hne)
  constructor
  · apply hplaced
  · apply h.called_eq
  · apply iff_of_false hwriter'
    intro hne
    apply hne hwork
  · apply h.pending_iff
  · intro c'' hheld
    apply ((h.held c'' hheld).1 hwork).elim

/-- A process keeps its transaction, if the lock stays where it is. -/
theorem Member.keep {θ' : Stage} (h : Member c called pending θ p s)
    (hplaced : Placed θ' p s') (hwriter : s'.writer = s.writer) (hop : θ'.op = θ.op)
    (hwork : θ'.work = θ.work) (hheld : θ'.held = θ.held) :
  Member c called pending θ' p s'
  := by
  constructor
  · apply hplaced
  · rw [hop]
    apply h.called_eq
  · rw [hwriter, hwork]
    apply h.lock
  · rw [hwork]
    apply h.pending_iff
  · rw [hheld, hwork]
    apply h.held

/-- A process whose transaction has ended. -/
theorem Member.free (h : Member c called pending θ p s) (hplaced : Placed θ.free p s')
    (hwriter : s'.writer = none) :
  Member c' called none θ.free p s'
  := by
  constructor
  · apply hplaced
  · apply h.called_eq
  · apply iff_of_false
    · rw [hwriter]
      rintro ⟨⟩
    · intro hne
      apply hne rfl
  · apply iff_of_true rfl rfl
  · rintro c'' ⟨⟩

variable [DecidableEq ι] {c₀ : Content} {j j' : Journal ι} {stages : ι → Stage}

/-- The members after a step of the process `p`. -/
theorem members_update {z : Stage} (hp : Member c' (j'.called p) (j'.pending p) z p s')
    (others : ∀ q, q ≠ p → Member c' (j'.called q) (j'.pending q) (stages q) q s') :
  ∀ q, Member c' (j'.called q) (j'.pending q) (Function.update stages p z q) q s'
  := by
  intro q
  by_cases hq : q = p
  · obtain rfl := hq
    rw [Function.update_self]
    apply hp
  · rw [Function.update_of_ne hq]
    apply others q hq

/-- A process calls a function. -/
theorem Serial.entering (h : Serial c₀ j stages s) (p : ι) (op : Op) :
  Serial c₀ (j.next (.call p op)) (Function.update stages p (clientTerms.enter op (stages p))) s
  := by
  obtain ⟨c, hc, hrun, hmembers⟩ := h.members
  use h.apart, c, hc, hrun
  have hp := hmembers p
  apply members_update
  · simp only [Journal.next, Function.update_self]
    constructor
    · exact hp.placed.of_eq rfl rfl rfl rfl rfl rfl (le_refl _)
    · rfl
    · apply hp.lock
    · apply hp.pending_iff
    · apply hp.held
  · intro q hq
    simp only [Journal.next, Function.update_of_ne hq]
    apply hmembers

/-- A function returns. -/
theorem Serial.leaving (h : Serial c₀ j stages s) {op : Op} {result : Result} {own : HedRepo}
    (hpost : clientTerms.Post op (stages p) (result, own)) :
  Serial c₀ (j.next (.ret p op result own))
    (Function.update stages p (clientTerms.leave (result, own) (stages p))) s
  := by
  obtain ⟨c, hc, hrun, hmembers⟩ := h.members
  use h.apart, c, hc, hrun
  have hp := hmembers p
  apply members_update
  · simp only [Journal.next, Function.update_self]
    constructor
    · exact hp.placed.of_eq rfl rfl rfl rfl rfl rfl (le_refl _)
    · apply hp.called_eq
    · apply hp.lock
    · rw [Option.map_eq_none_iff]
      apply hp.pending_iff
    · intro c' hheld
      obtain ⟨txn, htxn, rfl⟩ := Option.map_eq_some_iff.mp hheld
      obtain ⟨c₁, hc₁, hlogs⟩ := hpost.2.2 txn htxn
      obtain ⟨hwork, hrun₁⟩ := hp.held c₁ hc₁
      use hwork
      obtain ⟨es, hes⟩ := Option.ne_none_iff_exists'.mp (mt hp.pending_iff.mp hwork)
      rw [hes, Option.getD_some] at hrun₁
      rw [hes, Option.map_some, Option.getD_some]
      apply hrun₁.append hlogs
  · intro q hq
    simp only [Journal.next, Function.update_of_ne hq]
    apply hmembers

section Calling

variable {f : Fate} {call : Call}

/-- The state of the contract changes little in a call that neither begins nor ends a
transaction. -/
theorem next_of_not_bounds (hcall : ¬ call.Bounds) (θ : Stage) (reply : call.Reply) :
  (clientTerms.next θ call reply).op = θ.op ∧ (clientTerms.next θ call reply).work = θ.work
    ∧ (clientTerms.next θ call reply).held = θ.held
  := by
  cases call with
  | ufileNew flags mode =>
      rcases reply with e | _
      · exact ⟨rfl, rfl, rfl⟩
      · exact ⟨rfl, rfl, rfl⟩
  | mdbEnvOpen env flags mode =>
      rcases reply with e | env'
      · exact ⟨rfl, rfl, rfl⟩
      · exact ⟨rfl, rfl, rfl⟩
  | mdbTxnBegin env flags => apply (hcall trivial).elim
  | mdbTxnCommit txn => apply (hcall trivial).elim
  | mdbTxnAbort txn => apply (hcall trivial).elim
  | _ => exact ⟨rfl, rfl, rfl⟩

/-- A process makes a call that neither begins nor ends a transaction. -/
theorem Serial.keep (h : Serial c₀ j stages s) (hallows : clientTerms.allows (stages p) call)
    (hcall : ¬ call.Bounds) :
  Serial c₀ j
    (Function.update stages p
      (clientTerms.next (stages p) call (Shared.handle p f call s).1))
    (Shared.handle p f call s).2
  := by
  obtain ⟨c, hc, hrun, hmembers⟩ := h.members
  have hchange := Shared.change_handle p f call s
  have hp := hmembers p
  have hrename : call ≠ .rename := by
    rintro rfl
    apply hallows
  have hwriter : (Shared.handle p f call s).2.writer = s.writer := Shared.handle_writer hcall
  obtain ⟨hop, hwork, hheld⟩ := next_of_not_bounds hcall (stages p) (Shared.handle p f call s).1
  use h.apart.change hchange, c, (hp.placed.committed h.apart hallows hcall).trans hc, hrun
  apply members_update
  · exact hp.keep (hp.placed.own h.apart hallows hcall) hwriter hop hwork hheld
  · intro q hq
    have hplaced := (hmembers q).placed.others hchange hq hrename
    exact (hmembers q).keep hplaced hwriter rfl rfl rfl

/-- The transaction of a process ends, and leaves the committed content `c`. -/
theorem Serial.ended (h : Serial c₀ j stages s) (hwork : (stages p).work ≠ none)
    (hchange : Shared.Change p f call s s') (hcall : call ≠ .rename)
    (hplaced : Placed (stages p).free p s') (hwriter : s'.writer = none)
    (hc : s'.committed = some c) {es : List (Op × Result)} (hrun : Run Works c₀ es c) :
  Serial c₀ { j with pending := Function.update j.pending p none, committed := es }
    (Function.update stages p (stages p).free) s'
  := by
  obtain ⟨c', -, -, hmembers⟩ := h.members
  use h.apart.change hchange, c, hc, hrun
  have hholder : s.writer = some p := (hmembers p).lock.mpr hwork
  apply members_update
  · simp only [Function.update_self]
    apply (hmembers p).free hplaced hwriter
  · intro q hq
    simp only [Function.update_of_ne hq]
    apply (hmembers q).idle ((hmembers q).placed.others hchange hq hcall)
    · rw [hholder]
      intro heq
      apply hq (Option.some.inj heq).symm
    · rw [hwriter]
      rintro ⟨⟩

/-- A call that fails, or has no effect for another reason, changes nothing. -/
theorem Serial.unchanged (h : Serial c₀ j stages s) (p : ι) :
  Serial c₀ j (Function.update stages p (stages p)) s
  := by
  rw [Function.update_eq_self]
  apply h

/-- A process begins a transaction: no other one has one. -/
theorem Serial.begin (h : Serial c₀ j stages s) {env : Env} {flags : Flags}
    (hallows : clientTerms.allows (stages p) (.mdbTxnBegin env flags))
    (hwaits : Shared.waits (.mdbTxnBegin env flags) f s = false) :
  Serial c₀
    (j.next (.ask p (.mdbTxnBegin env flags) f s
      (Shared.handle p f (.mdbTxnBegin env flags) s).1))
    (Function.update stages p (clientTerms.next (stages p) (.mdbTxnBegin env flags)
      (Shared.handle p f (.mdbTxnBegin env flags) s).1))
    (Shared.handle p f (.mdbTxnBegin env flags) s).2
  := by
  cases f with
  | fail e left => exact h.unchanged p
  | ok =>
      have hbegin : Shared.handle p .ok (.mdbTxnBegin env flags) s
          = s.txnBegin p env flags := rfl
      have hchange := Shared.change_handle p .ok (.mdbTxnBegin env flags) s
      obtain ⟨henv, rfl⟩ := hallows
      have hfree : s.writer = none := by simpa [Shared.waits] using hwaits
      rw [hbegin] at hchange ⊢
      rcases Shared.txnBegin_cases p s env with ⟨e, hfail⟩ | ⟨c, hcontent, hok⟩
      · rw [hfail]
        exact h.unchanged p
      · rw [hok] at hchange ⊢
        obtain ⟨c', hc', hrun, hmembers⟩ := h.members
        have hp := hmembers p
        have hdata : s.data = some (s.mapped p env.id) := hp.placed.env env.id henv
        have hcommitted : s.committed = s.content (s.mapped p env.id) := by
          rw [Shared.committed, Shared.content, hdata, Option.map_some]
        obtain rfl := Option.some.inj (hc'.symm.trans (hcommitted.trans hcontent))
        obtain ⟨hplaced, hmapped⟩ := hp.placed.map hdata s.next
        use h.apart.change hchange, c', hc', hrun
        apply members_update
        · simp only [Journal.next, Function.update_self]
          constructor
          · constructor
            · apply hplaced.env
            · rintro id ⟨⟩
              exact hdata.trans (congrArg some hmapped).symm
            · apply hplaced.created
          · apply hp.called_eq
          · apply iff_of_true rfl
            rintro ⟨⟩
          · apply iff_of_false
            · rintro ⟨⟩
            · rintro ⟨⟩
          · rintro _ ⟨⟩
            constructor
            · rintro ⟨⟩
            · exact Run.nil
        · intro q hq
          simp only [Journal.next, Function.update_of_ne hq]
          apply (hmembers q).idle
          · apply (hmembers q).placed.others hchange hq
            rintro ⟨⟩
          · rw [hfree]
            rintro ⟨⟩
          · intro heq
            apply hq (Option.some.inj heq).symm

/-- A process aborts its transaction. -/
theorem Serial.abort (h : Serial c₀ j stages s) {txn : Txn}
    (hallows : clientTerms.allows (stages p) (.mdbTxnAbort txn)) :
  Serial c₀ (j.next (.ask p (.mdbTxnAbort txn) f s ()))
    (Function.update stages p (stages p).free) (Shared.handle p f (.mdbTxnAbort txn) s).2
  := by
  obtain ⟨hid, hro⟩ := hallows
  obtain ⟨c, hc, hrun, hmembers⟩ := h.members
  have habort : (Shared.handle p f (.mdbTxnAbort txn) s).2 = s.unlock txn := rfl
  have hchange := Shared.change_handle p f (.mdbTxnAbort txn) s
  have hwork : (stages p).work ≠ none := by
    rw [hid]
    rintro ⟨⟩
  rw [habort, Shared.unlock_of_writable hro] at hchange ⊢
  have hplaced : Placed (stages p).free p { s with writer := none } :=
    (hmembers p).placed.free.of_eq rfl rfl rfl rfl rfl rfl (le_refl _)
  exact h.ended hwork hchange (by rintro ⟨⟩) hplaced rfl hc hrun

/-- A process commits its transaction, or fails to. -/
theorem Serial.commit (h : Serial c₀ j stages s) {txn : Txn}
    (hallows : clientTerms.allows (stages p) (.mdbTxnCommit txn)) :
  Serial c₀
    (j.next (.ask p (.mdbTxnCommit txn) f s (Shared.handle p f (.mdbTxnCommit txn) s).1))
    (Function.update stages p (stages p).free) (Shared.handle p f (.mdbTxnCommit txn) s).2
  := by
  obtain ⟨hid, hro, op, c₁, hop, hheld, hpublishes⟩ := hallows
  obtain ⟨c, hc, hrun, hmembers⟩ := h.members
  have hp := hmembers p
  have hwork : (stages p).work ≠ none := by
    rw [hid]
    rintro ⟨⟩
  have hchange := Shared.change_handle p f (.mdbTxnCommit txn) s
  cases f with
  | fail e left =>
      have hcommit : Shared.handle p (.fail e left) (.mdbTxnCommit txn) s
          = (.error e, s.unlock txn) := rfl
      rw [hcommit, Shared.unlock_of_writable hro] at hchange ⊢
      have hplaced : Placed (stages p).free p { s with writer := none } :=
        hp.placed.free.of_eq rfl rfl rfl rfl rfl rfl (le_refl _)
      exact h.ended hwork hchange (by rintro ⟨⟩) hplaced rfl hc hrun
  | ok =>
      have hcommit : Shared.handle p .ok (.mdbTxnCommit txn) s
          = (.ok (), (s.publish p txn).unlock txn) := rfl
      have hdata : s.data = some (s.mapped p txn.id) := hp.placed.work txn.id hid
      have hpublish : s.publish p txn = s.write (s.mapped p txn.id) (.full txn.content) := by
        rw [Shared.publish, hro, if_neg Bool.false_ne_true]
      rw [hcommit, Shared.unlock_of_writable hro, hpublish] at hchange ⊢
      have hplaced : Placed (stages p).free p
          { s.write (s.mapped p txn.id) (.full txn.content) with writer := none } :=
        hp.placed.free.of_eq rfl rfl rfl rfl rfl rfl (le_refl _)
      have hcommitted : Shared.committed
          { s.write (s.mapped p txn.id) (.full txn.content) with writer := none }
          = some txn.content := by
        simp only [Shared.committed, Shared.write, hdata, Option.map_some, Function.update_self]
        rfl
      have hpublishing : Run Works c (j.publishing p) txn.content := by
        rw [Journal.publishing, hp.called_eq, hop]
        apply (hp.held c₁ hheld).2.append hpublishes
      exact h.ended hwork hchange (by rintro ⟨⟩) hplaced rfl hcommitted (hrun.append hpublishing)

/-- A process makes a call. -/
theorem Serial.calling (h : Serial c₀ j stages s) (hallows : clientTerms.allows (stages p) call)
    (hwaits : Shared.waits call f s = false) :
  Serial c₀ (j.next (.ask p call f s (Shared.handle p f call s).1))
    (Function.update stages p
      (clientTerms.next (stages p) call (Shared.handle p f call s).1))
    (Shared.handle p f call s).2
  := by
  by_cases hcall : call.Bounds
  · cases call with
    | mdbTxnBegin env flags => apply h.begin hallows hwaits
    | mdbTxnCommit txn => apply h.commit hallows
    | mdbTxnAbort txn => apply h.abort hallows
    | _ => cases hcall
  · rw [j.next_of_not_bounds hcall]
    apply h.keep hallows hcall

end Calling

/-- The replies are among those the contract says. -/
theorem Placed.replies {f : Fate} {call : Call} (hallows : clientTerms.allows θ call) :
  clientTerms.can θ call (Shared.handle p f call s).1
  := by
  have hpure : ∀ {α : Type} {r : Except Errno α} (w : World),
      ∃ f', attempt f' w (r, w) = ((attempt f s (r, s)).1, w) := by
    intro α r w
    use f
    cases f with
    | ok => rfl
    | fail e left => rfl
  cases call with
  | mdbDbiOpen txn name flags => exact fun _ => hpure
  | mdbDrop txn dbi => exact fun _ => hpure
  | mdbGet txn dbi key => exact fun _ => hpure
  | mdbPut txn dbi key value => exact fun _ => hpure
  | mdbDel txn dbi key => exact fun _ => hpure
  | mdbStat txn dbi => exact fun _ => hpure
  | mdbEnvOpen env flags mode =>
      cases f with
      | fail e left => exact fun h => h.elim
      | ok =>
          have hhandle : (Shared.handle p .ok (.mdbEnvOpen env flags mode) s).1
              = (s.envOpen p env flags).1 := rfl
          rw [hhandle]
          cases hopen : (s.envOpen p env flags).1 with
          | error e => exact fun h => h.elim
          | ok env' => exact Shared.envOpen_id hopen
  | mdbTxnBegin env flags =>
      obtain ⟨-, rfl⟩ := hallows
      cases f with
      | fail e left => exact fun h => h.elim
      | ok =>
          have hhandle : (Shared.handle p .ok (.mdbTxnBegin env 0) s).1
              = (s.txnBegin p env 0).1 := rfl
          rw [hhandle]
          rcases Shared.txnBegin_cases p s env with ⟨e, hfail⟩ | ⟨c, -, hok⟩
          · rw [hfail]
            exact fun h => h.elim
          · rw [hok]
            rfl
  | _ => exact fun h => h.elim

end Invariant

/-! ### Runs -/

section Run

variable {ι : Type} [DecidableEq ι] {repo3pc : Bool} {s s' : Processes ι}
  {ms : List (ProcessMove ι)} {c₀ : Content}

theorem binds (repo3pc : Bool) (c₀ : Content) :
  Interleaving.Binds (clients repo3pc ι) clientTerms (fun past => Serial c₀ (journal past))
  := by
  constructor
  · intro op own θ hop hrest
    apply honours_run repo3pc hop hrest
  · rintro op θ ⟨result, own⟩ ⟨howns, -, -⟩
    use howns
    intro txn htxn
    exact congrArg (Option.map Txn.content) htxn
  · intro past θ w p op h
    rw [journal_snoc]
    apply h.entering
  · intro past θ w p c f h hallows hwaits
    apply Placed.replies hallows
  · intro past θ w p c f h hallows hwaits
    rw [journal_snoc]
    apply h.calling hallows hwaits
  · intro past θ w p op result own h hpost
    rw [journal_snoc]
    apply h.leaving hpost

/-- Where the processes start: they have opened nothing, none has the lock, and the committed
content is `c₀`. -/
structure Starts (c₀ : Content) (s : Processes ι) : Prop where
  fresh : Fresh s
  free : s.world.writer = none
  committed : s.world.committed = some c₀

/-- No process calls `hed_repo_rollback`. -/
def NoRollback (ms : List (ProcessMove ι)) : Prop := ∀ p, .call p .hedRepoRollback ∉ ms

/-- In every run the processes honour the contract, and the invariant holds. -/
theorem run_binds (hstarts : Starts c₀ s) (run : Run (clients repo3pc ι).Steps s ms s')
    (hms : NoRollback ms) :
  (∀ p, Interleaving.Honest clientTerms
      (Interleaving.stages clientTerms (fun _ => Stage.unset) ms p) (s'.process p))
    ∧ Serial c₀ (journal ms) (Interleaving.stages clientTerms (fun _ => Stage.unset) ms) s'.world
  := by
  apply Interleaving.run_contract (binds repo3pc c₀) run
  · intro p
    rw [hstarts.fresh.rest p]
    constructor
    · apply Stage.owns_closed Stage.unset HedRepo.unset
    · rintro txn ⟨⟩
  · use hstarts.fresh.apart, c₀, hstarts.committed, Run.nil
    intro p
    constructor
    · constructor
      · rintro id ⟨⟩
      · rintro id ⟨⟩
      · rintro ⟨⟩
    · rfl
    · rw [hstarts.free]
      apply iff_of_false
      · rintro ⟨⟩
      · intro hne
        apply hne rfl
    · apply iff_of_true rfl rfl
    · rintro c' ⟨⟩
  · intro m hm
    cases m with
    | call p op =>
        rintro rfl
        apply hms p hm
    | ask p c f before reply => trivial
    | ret p op result own => trivial

/-- In every interleaving of any number of processes, whatever LMDB and the file system make
fail: the committed content is what the functions of the committed transactions, with the
results they returned, make of the content there was, one after another in the order of the
commits; and the transaction of a process has the content its own functions have made of that
one. -/
theorem run_serial (hstarts : Starts c₀ s) (run : Run (clients repo3pc ι).Steps s ms s')
    (hms : NoRollback ms) :
  (∃ c, s'.world.committed = some c ∧ Run Works c₀ (journal ms).committed c)
    ∧ ∀ p own txn, s'.process p = .rest own → own.txn = some txn →
      ∃ es, (journal ms).pending p = some es
        ∧ Run Works c₀ ((journal ms).committed ++ es) txn.content
  := by
  obtain ⟨hhonest, -, c, hc, hrun, hmembers⟩ := run_binds hstarts run hms
  constructor
  · exact ⟨c, hc, hrun⟩
  · intro p own txn hown htxn
    have hp := hhonest p
    rw [hown] at hp
    obtain ⟨hwork, hpending⟩ := (hmembers p).held txn.content (hp.2 txn htxn)
    obtain ⟨es, hes⟩ := Option.ne_none_iff_exists'.mp (mt (hmembers p).pending_iff.mp hwork)
    use es, hes
    rw [hes] at hpending
    apply hrun.append hpending

/-- In every interleaving at most one process has a transaction, and a process that waits
does so for one that has. -/
theorem run_exclusive (hstarts : Starts c₀ s) (run : Run (clients repo3pc ι).Steps s ms s')
    (hms : NoRollback ms) :
  (∀ p q, (journal ms).pending p ≠ none → (journal ms).pending q ≠ none → p = q)
    ∧ ∀ p op c next f, s'.process p = .busy op (.call c next) →
      (clients repo3pc ι).step s' (.ask p f) = none → ∃ q, (journal ms).pending q ≠ none
  := by
  obtain ⟨hhonest, -, c, hc, hrun, hmembers⟩ := run_binds hstarts run hms
  have hlock : ∀ p, s'.world.writer = some p ↔ (journal ms).pending p ≠ none := by
    intro p
    apply (hmembers p).lock.trans (not_congr (hmembers p).pending_iff).symm
  constructor
  · intro p q hp hq
    exact Option.some.inj (((hlock p).mpr hp).symm.trans ((hlock q).mpr hq))
  · intro p op call next f hbusy hstuck
    rw [Interleaving.step, hbusy] at hstuck
    simp only at hstuck
    split_ifs at hstuck with hwaits
    have hwriter : s'.world.writer ≠ none := by
      intro hnone
      have hfree : (clients repo3pc ι).waits p call f s'.world = false :=
        Shared.waits_of_free hnone call f
      rw [hfree] at hwaits
      cases hwaits
    obtain ⟨q, hq⟩ := Option.ne_none_iff_exists'.mp hwriter
    exact ⟨q, (hlock q).mp hq⟩

/-- In every interleaving the numbers of a table that the committed transactions were handed,
whatever their processes, are consecutive, in the order of the commits, and the last one is in
the record; and a process in a transaction is handed the ones after them. -/
theorem run_serial_numbers (hstarts : Starts c₀ s) (run : Run (clients repo3pc ι).Steps s ms s')
    (hms : NoRollback ms) {T : Bytes} (hT : T ≠ versionKey)
    (hspares : ∀ e ∈ (journal ms).committed, e.1.sparesNumbers = true)
    (hfull : c₀.number T + asked T (journal ms).committed < 4294967296) :
  ∃ c k, s'.world.committed = some c ∧ c.number T = c₀.number T + k
    ∧ (journal ms).committed.filterMap (handedOut T) = List.range' (c₀.number T + 1) k
    ∧ ∀ p own txn es, s'.process p = .rest own → own.txn = some txn →
      (journal ms).pending p = some es → (∀ e ∈ es, e.1.sparesNumbers = true) →
      c.number T + asked T es < 4294967296 →
      ∃ k', txn.content.number T = c.number T + k'
        ∧ es.filterMap (handedOut T) = List.range' (c.number T + 1) k'
  := by
  obtain ⟨hhonest, -, c, hc, hrun, hmembers⟩ := run_binds hstarts run hms
  obtain ⟨k, -, hnumber, hnumbers⟩ := run_numbers hrun hT hspares hfull
  use c, k, hc, hnumber, hnumbers
  intro p own txn es hown htxn hes hspares' hfull'
  have hp := hhonest p
  rw [hown] at hp
  obtain ⟨-, hpending⟩ := (hmembers p).held txn.content (hp.2 txn htxn)
  rw [hes, Option.getD_some] at hpending
  obtain ⟨k', -, hnumber', hnumbers'⟩ := run_numbers hpending hT hspares' hfull'
  exact ⟨k', hnumber', hnumbers'⟩

theorem recorded_of_asks {op : Op} {table key : Bytes} (h : op.asks = some (table, key)) :
  op.recorded = true
  := by
  cases op with
  | hedRepoGet table' key' => rfl
  | hedRepoGetVersion => rfl
  | _ => cases h

/-- In every interleaving a process reads what was written last: by the functions its own
transaction has called before, or else by the transactions committed before it began. -/
theorem run_serial_reads (hstarts : Starts c₀ s) {p : ι} {op : Op} {v : Bytes} {own : HedRepo}
    (run : Run (clients repo3pc ι).Steps s (ms ++ [.ret p op (.value (.ok v)) own]) s')
    (hms : NoRollback ms) {table key : Bytes} (hasks : op.asks = some (table, key))
    (htable : table ≠ hedTable) :
  ∃ es, (journal ms).pending p = some es
    ∧ lastWritten table key (c₀.record table key) ((journal ms).committed ++ es) = some v
  := by
  obtain ⟨s₁, hrun₁, hlast⟩ := Run.snoc_iff.mp run
  obtain ⟨hhonest, -, c, hc, hrun, hmembers⟩ := run_binds hstarts hrun₁ hms
  have hp := hhonest p
  rw [Interleaving.process_of_ret hlast] at hp
  obtain ⟨-, hne, hpost⟩ := hp
  have hrecorded : op.recorded = true := recorded_of_asks hasks
  obtain ⟨txn, htxn⟩ := Option.ne_none_iff_exists'.mp (hne hrecorded)
  obtain ⟨c₁, hheld, hlogs⟩ := hpost txn htxn
  obtain ⟨hwork, hpending⟩ := (hmembers p).held c₁ hheld
  obtain ⟨es, hes⟩ := Option.ne_none_iff_exists'.mp (mt (hmembers p).pending_iff.mp hwork)
  use es, hes
  rw [hes, Option.getD_some] at hpending
  rw [← run_record (hrun.append hpending) htable]
  rw [Op.logs, if_pos hrecorded] at hlogs
  obtain ⟨c₂, hworks, -⟩ := Run.cons_iff.mp hlogs
  cases hworks with
  | read asks found =>
      obtain ⟨rfl, rfl⟩ := Prod.mk.inj (Option.some.inj (hasks.symm.trans asks))
      apply found v rfl

end Run

/-! ### Two processes -/

/-- A step does not call `hed_repo_rollback`. -/
def sparesRollback (m : ProcessMove Side) : Bool :=
  match m with
  | .call _ op => op ≠ .hedRepoRollback
  | _ => true

theorem noRollback_of_all {ms : List (ProcessMove Side)} (h : ms.all sparesRollback = true) :
  NoRollback ms
  := by
  intro p hp
  cases List.all_eq_true.mp h _ hp

theorem noRollback_raced :
  NoRollback raced.1
  := by
  apply noRollback_of_all
  decide +kernel

/-- The two processes of the race start with no file: the committed content is empty. -/
theorem starts_freshSides :
  Starts ∅ freshSides
  := ⟨fresh_freshSides, rfl, rfl⟩

theorem run_serial_raced :
  (∃ c, raced.2.world.committed = some c ∧ Run Works ∅ (journal raced.1).committed c)
    ∧ ∀ p own txn, raced.2.process p = .rest own → own.txn = some txn →
      ∃ es, (journal raced.1).pending p = some es
        ∧ Run Works ∅ ((journal raced.1).committed ++ es) txn.content
  := by
  have hrun : Run (clients true Side).Steps freshSides raced.1 raced.2 := run_raced
  apply run_serial starts_freshSides hrun noRollback_raced

theorem run_exclusive_raced :
  (∀ p q, (journal raced.1).pending p ≠ none → (journal raced.1).pending q ≠ none → p = q)
    ∧ ∀ p op c next f, raced.2.process p = .busy op (.call c next) →
      (clients true Side).step raced.2 (.ask p f) = none → ∃ q, (journal raced.1).pending q ≠ none
  := by
  have hrun : Run (clients true Side).Steps freshSides raced.1 raced.2 := run_raced
  apply run_exclusive starts_freshSides hrun noRollback_raced

/-- A repository with one table, which has the sequence number zero. -/
def numbered : Content :=
  ((∅ : Content).put hedTable ((∅ : Table).put [0x75] (encode32 0))).put [0x75] ∅

/-- Two processes that have opened nothing, and that repository. -/
def numberedSides : Processes Side where
  process _ := .rest .unset
  world :=
    ⟨fun _ => .full numbered, some 0, none, 1, fun _ _ => 0, fun _ => 0, none, 0⟩

theorem starts_numberedSides :
  Starts numbered numberedSides
  := by
  constructor
  · constructor
    · intro p
      rfl
    · constructor
      · rintro _ ⟨⟩
        apply Nat.one_pos
      · rintro i ⟨⟩
      · intro p id
        apply Nat.one_pos
      · rintro i ⟨⟩
      · rintro i ⟨⟩
  · rfl
  · rfl

/-- Both processes ask for a number; `b` calls its start while `a` has the lock, and reads what `a`
has written. -/
def shared : List (Interleaving.Turn Side Fate Op) :=
  turns .a (.hedRepoOpen [[0x75]] O_RDWR 0) 13
    ++ turns .b (.hedRepoOpen [[0x75]] O_RDWR 0) 13
    ++ turns .a .hedRepoStart 4
    ++ turns .a (.hedRepoNextSeq [0x75]) 4
    ++ [.call .b .hedRepoStart, .ask .b .ok]
    ++ turns .a (.hedRepoUpdate [0x75] [1] [2]) 2
    ++ turns .a .hedRepoCommit 1
    ++ [.ask .b .ok, .ask .b .ok, .ask .b .ok, .ret .b]
    ++ turns .b (.hedRepoNextSeq [0x75]) 4
    ++ turns .b (.hedRepoGet [0x75] [1]) 2

/-- The steps of that schedule, and where they lead. -/
def sharing : List (ProcessMove Side) × Processes Side :=
  ((clients true Side).play numberedSides shared).get rfl

theorem run_sharing :
  Run (clients true Side).Steps numberedSides sharing.1 sharing.2
  := by
  have hplay : (clients true Side).play numberedSides shared = some sharing :=
    (Option.some_get _).symm
  apply Interleaving.run_play _ hplay

theorem run_serial_numbers_sharing :
  ∃ c k, sharing.2.world.committed = some c ∧ c.number [0x75] = numbered.number [0x75] + k
    ∧ (journal sharing.1).committed.filterMap (handedOut [0x75])
      = List.range' (numbered.number [0x75] + 1) k
    ∧ ∀ p own txn es, sharing.2.process p = .rest own → own.txn = some txn →
      (journal sharing.1).pending p = some es → (∀ e ∈ es, e.1.sparesNumbers = true) →
      c.number [0x75] + asked [0x75] es < 4294967296 →
      ∃ k', txn.content.number [0x75] = c.number [0x75] + k'
        ∧ es.filterMap (handedOut [0x75]) = List.range' (c.number [0x75] + 1) k'
  := by
  have hspares : ∀ e ∈ (journal sharing.1).committed, e.1.sparesNumbers = true := by
    apply List.all_eq_true.mp
    decide +kernel
  apply run_serial_numbers starts_numberedSides run_sharing _ (by decide) hspares
    (by decide +kernel)
  apply noRollback_of_all
  decide +kernel

theorem run_serial_reads_sharing :
  ∃ es, (journal sharing.1.dropLast).pending .b = some es
    ∧ lastWritten [0x75] [1] (numbered.record [0x75] [1])
      ((journal sharing.1.dropLast).committed ++ es) = some [2]
  := by
  have hlast : sharing.1 = sharing.1.dropLast
      ++ [.ret .b (.hedRepoGet [0x75] [1]) (.value (.ok [2])) (lastRepo sharing.1)] := rfl
  have hrun := run_sharing
  rw [hlast] at hrun
  apply run_serial_reads starts_numberedSides hrun _ rfl (by decide)
  apply noRollback_of_all
  decide +kernel

end Hed
