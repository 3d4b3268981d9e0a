import Hed.Repo.Code

/-!
# The functions that work in a transaction

What the functions on records return and what they leave in the transaction.  None of
them changes the world: a table is created, emptied or written in the content the
transaction works on.  `Content.setup` is what opening a repository makes of the content.
-/

namespace Hed

open Program

/-! ### Traces and transactions -/

@[simp]
theorem clean_nil :
  Clean []
  := by
  rintro e ⟨⟩

@[simp]
theorem clean_cons {e : Event calls Fate} {t : List (Event calls Fate)} :
  Clean (e :: t) ↔ failed e = false ∧ Clean t
  := List.forall_mem_cons

@[simp]
theorem clean_append {t t' : List (Event calls Fate)} :
  Clean (t ++ t') ↔ Clean t ∧ Clean t'
  := List.forall_mem_append

theorem not_clean_fail {c : Call} (hc : c.fallible = true) (e : Errno) (left : DataFile) :
  ¬ Clean [⟨c, .fail e left⟩]
  := by
  simp [failed, hc]

namespace HedRepo

/-- The repository working on the content `c` in the transaction `txn`. -/
def work (repo : HedRepo) (txn : Txn) (c : Content) : HedRepo :=
  { repo with txn := some (txn.withContent c) }

theorem work_self {repo : HedRepo} {txn : Txn} (h : repo.txn = some txn) :
  repo.work txn txn.content = repo
  := by
  obtain ⟨env, _, flags, mode, table, hflags⟩ := repo
  obtain rfl := h
  rfl

theorem work_txn (repo : HedRepo) (txn : Txn) (c : Content) :
  (repo.work txn c).txn = some (txn.withContent c)
  := rfl

end HedRepo

/-! ### What the functions make of a content -/

namespace Content

/-- A table can be opened in a content without creating it. -/
def Has (c : Content) (table : Bytes) : Prop := table ≠ [] ∧ (c.get table).isSome

instance (c : Content) (table : Bytes) : Decidable (c.Has table) :=
  inferInstanceAs (Decidable (_ ∧ _))

/-- The content after a record has been written, if its table exists. -/
def update (c : Content) (table key value : Bytes) : Option Content :=
  if c.Has table then some (c.modify table (fun t => t.put key value)) else none

/-- The content after a record has been deleted, if there is one. -/
def delete (c : Content) (table key : Bytes) : Option Content :=
  if c.Has table ∧ c.record table key ≠ none then
    some (c.modify table (fun t => t.erase key))
  else none

/-- The content after a table has been opened with the flags of `open()`. -/
def openTable (c : Content) (flags : Flags) (table : Bytes) : Option Content :=
  if c.Has table then some (if flags &&& O_TRUNC ≠ 0 then c.put table ∅ else c)
  else if table ≠ [] ∧ flags &&& O_CREAT ≠ 0 then some (c.put table ∅)
  else none

/-- The content after the tables of a list, whose names must not start with a dot, have been
opened, one after another. -/
def openTables (flags : Flags) : Content → List Bytes → Option Content
  | c, [] => some c
  | c, table :: rest =>
      if table.head? = some dot then none
      else (c.openTable flags table).bind (fun c' => openTables flags c' rest)

/-- The content after the tables of a list have been given the sequence number zero. -/
def initSeqs : Content → List Bytes → Option Content
  | c, [] => some c
  | c, table :: rest =>
      (c.update hedTable table (encode32 0)).bind (fun c' => initSeqs c' rest)

/-- The content after a repository with the given tables has been opened. -/
def setup (c : Content) (flags : Flags) (tables : List Bytes) : Option Content :=
  (c.openTable flags hedTable).bind (fun c' =>
    (openTables flags c' tables).bind (fun c'' =>
      if flags &&& O_TRUNC ≠ 0 then c''.initSeqs tables else some c''))

end Content

/-- A table that exists is opened whatever the flags. -/
theorem Txn.dbiOpen_of_has {txn : Txn} {table : Bytes} (h : txn.content.Has table)
    (flags : Flags) :
  txn.dbiOpen table flags = .ok (table, txn)
  := by
  rw [dbiOpen, if_neg h.1, if_pos h.2]

/-- A table that does not exist is not opened without `MDB_CREATE`. -/
theorem Txn.dbiOpen_of_not_has {txn : Txn} {table : Bytes} (flags : Flags)
    (h : ¬ txn.content.Has table) (hname : table = [] ∨ flags &&& MDB_CREATE = 0) :
  ∃ e, txn.dbiOpen table flags = .error e
  := by
  rw [dbiOpen]
  by_cases hempty : table = []
  · rw [if_pos hempty]
    use MDB_BAD_VALSIZE
  · rw [if_neg hempty, if_neg (fun hsome => h ⟨hempty, hsome⟩),
      if_pos (hname.resolve_left hempty)]
    use MDB_NOTFOUND

/-- A table that does not exist is created with `MDB_CREATE`. -/
theorem Txn.dbiOpen_create {txn : Txn} (hro : txn.readonly = false) {table : Bytes}
    {flags : Flags} (h : ¬ txn.content.Has table) (hname : table ≠ [])
    (hflags : flags &&& MDB_CREATE ≠ 0) :
  txn.dbiOpen table flags = .ok (table, txn.withContent (txn.content.put table ∅))
  := by
  rw [dbiOpen, if_neg hname, if_neg (fun hsome => h ⟨hname, hsome⟩), if_neg hflags, hro,
    if_neg Bool.false_ne_true]

/-! ### Records -/

/-- What a function that writes leaves: it returns zero and the content `after`, or an error
code and everything as it was, the latter only if there is no such content or LMDB is made
to fail. -/
def Writes (repo : HedRepo) (txn : Txn) (w : World) (after : Option Content)
    (t : List (Event calls Fate)) (r : ℤ × HedRepo) (w' : World) : Prop :=
  w' = w ∧ ((∃ c, after = some c ∧ r = (0, repo.work txn c) ∧ Clean t)
    ∨ (r.1 ≠ 0 ∧ r.2 = repo ∧ (after = none ∨ ¬ Clean t)))

theorem Writes.of_failure {repo repo' : HedRepo} {txn : Txn} {w : World}
    {after : Option Content} {t : List (Event calls Fate)} {ret : ℤ} (hret : ret ≠ 0)
    (hrepo : repo' = repo) (herr : after = none ∨ ¬ Clean t) :
  Writes repo txn w after t (ret, repo') w
  := by
  use rfl
  right
  exact ⟨hret, hrepo, herr⟩

section Records

variable {repo : HedRepo} {txn : Txn} (htxn : repo.txn = some txn) (w : World)
include htxn

/-- Opening a table asks LMDB, and fails when LMDB is made to fail. -/
theorem repoDbiOpen_spec (table : Bytes) (flags : Flags) :
  wp handle (repoDbiOpen repo table flags)
    (fun t r w' => w' = w
      ∧ ((r = txn.dbiOpen table flags ∧ Clean t) ∨ ((∃ e, r = .error e) ∧ ¬ Clean t)))
    w
  := by
  simp only [repoDbiOpen, wp_demand_bind, wp_mdbDbiOpen]
  rintro env - txn' htxn'
  obtain rfl := Option.some.inj (htxn.symm.trans htxn')
  constructor
  · use trivial
    left
    use rfl
    simp [failed]
  · intro e left
    use trivial
    right
    use ⟨e, rfl⟩
    apply not_clean_fail rfl

/-- A function that opens a table without flags goes on with the table, or with an error if
there is no such table or LMDB is made to fail. -/
theorem wp_repoDbiOpen_bind {α : Type} {k : Except Errno (Dbi × Txn) → Repo α}
    {Q : List (Event calls Fate) → α → World → Prop} (table : Bytes)
    (hopened : txn.content.Has table → ∀ t, Clean t →
      wp handle (k (.ok (table, txn))) (fun t' => Q (t ++ t')) w)
    (hmissed : ∀ e t, ¬ txn.content.Has table ∨ ¬ Clean t →
      wp handle (k (.error e)) (fun t' => Q (t ++ t')) w) :
  wp handle (repoDbiOpen repo table 0 >>= k) Q w
  := by
  apply wp_bind_of handle (repoDbiOpen_spec htxn w table 0)
  rintro t _ w' ⟨rfl, ⟨rfl, ht⟩ | ⟨⟨e, rfl⟩, ht⟩⟩
  · by_cases hhas : txn.content.Has table
    · rw [Txn.dbiOpen_of_has hhas]
      apply hopened hhas t ht
    · obtain ⟨e, he⟩ := Txn.dbiOpen_of_not_has 0 hhas (Or.inr (by decide))
      rw [he]
      apply hmissed e t (Or.inl hhas)
  · apply hmissed e t (Or.inr ht)

/-- `hed_repo_get` returns the record, or an error when there is none or LMDB is made to
fail, and changes nothing. -/
theorem hedRepoGet_spec (table key : Bytes) :
  wp handle (hedRepoGet repo table key)
    (fun t r w' => w' = w ∧ r.2 = repo
      ∧ ((∃ v, r.1 = .ok v ∧ txn.content.record table key = some v ∧ Clean t)
        ∨ ((∃ e, r.1 = .error e)
          ∧ (table = [] ∨ txn.content.record table key = none ∨ ¬ Clean t))))
    w
  := by
  rw [hedRepoGet, wp_require_bind]
  intro hkey
  apply wp_repoDbiOpen_bind htxn w table
  · intro hhas t ht
    rw [wp_bind, wp_mdbGet]
    constructor
    · use rfl, HedRepo.work_self htxn
      cases hrec : txn.content.record table key with
      | none =>
          right
          use ⟨MDB_NOTFOUND, by rw [Txn.get, if_neg hkey, hrec]⟩
          right
          left
          rfl
      | some v =>
          left
          use v, by rw [Txn.get, if_neg hkey, hrec], rfl
          simp [ht, failed]
    · intro e left
      use rfl, HedRepo.work_self htxn
      right
      use ⟨e, rfl⟩
      right
      right
      simp [failed, Call.fallible]
  · intro e t herr
    rw [wp_pure]
    use rfl, rfl
    right
    use ⟨e, rfl⟩
    rcases herr with hhas | ht
    · by_cases hname : table = []
      · left
        apply hname
      · right
        left
        rw [Content.record, Option.not_isSome_iff_eq_none.mp (fun hsome => hhas ⟨hname, hsome⟩)]
        rfl
    · right
      right
      simpa using ht

/-- `hed_repo_update` writes the record. -/
theorem hedRepoUpdate_spec (hro : txn.readonly = false) (table key value : Bytes) :
  wp handle (hedRepoUpdate repo table key value)
    (Writes repo txn w (txn.content.update table key value)) w
  := by
  rw [hedRepoUpdate, wp_require_bind]
  intro hkey
  rw [wp_require_bind]
  intro _
  apply wp_repoDbiOpen_bind htxn w table
  · intro hhas t ht
    rw [wp_bind, wp_mdbPut, Txn.put, if_neg hkey, hro, if_neg Bool.false_ne_true]
    constructor
    · use rfl
      left
      use txn.content.modify table (fun t => t.put key value), if_pos hhas, rfl
      simp [ht, failed]
    · intro e left
      apply Writes.of_failure e.ne_zero (HedRepo.work_self htxn)
      right
      simp [failed, Call.fallible]
  · intro e t herr
    apply Writes.of_failure e.ne_zero rfl
    rcases herr with hhas | ht
    · left
      apply if_neg hhas
    · right
      simpa using ht

/-- `hed_repo_del` deletes the record. -/
theorem hedRepoDel_spec (hro : txn.readonly = false) (table key : Bytes) :
  wp handle (hedRepoDel repo table key)
    (Writes repo txn w (txn.content.delete table key)) w
  := by
  rw [hedRepoDel, wp_require_bind]
  intro hkey
  apply wp_repoDbiOpen_bind htxn w table
  · intro hhas t ht
    rw [wp_bind, wp_mdbDel, Txn.del, if_neg hkey, hro, if_neg Bool.false_ne_true]
    constructor
    · by_cases hrec : txn.content.record table key = none
      · rw [if_pos hrec]
        apply Writes.of_failure MDB_NOTFOUND.ne_zero (HedRepo.work_self htxn)
        left
        apply if_neg (fun h => h.2 hrec)
      · rw [if_neg hrec]
        use rfl
        left
        use txn.content.modify table (fun t => t.erase key), if_pos ⟨hhas, hrec⟩, rfl
        simp [ht, failed]
    · intro e left
      apply Writes.of_failure e.ne_zero (HedRepo.work_self htxn)
      right
      simp [failed, Call.fallible]
  · intro e t herr
    apply Writes.of_failure e.ne_zero rfl
    rcases herr with hhas | ht
    · left
      apply if_neg (fun h => hhas h.1)
    · right
      simpa using ht

/-- `hed_repo_count` changes nothing. -/
theorem hedRepoCount_spec (table : Bytes) :
  wp handle (hedRepoCount repo table) (fun _ r w' => w' = w ∧ r.2 = repo) w
  := by
  rw [hedRepoCount]
  apply wp_repoDbiOpen_bind htxn w table
  · intro _ t _
    rw [wp_bind, wp_mdbStat]
    constructor
    · use rfl
      apply HedRepo.work_self htxn
    · intro e left
      use rfl
      apply HedRepo.work_self htxn
  · intro e t _
    use rfl

/-- `hed_repo_next_seq` returns the successor of the number in the record, modulo `2^32`,
and writes it there, or it returns zero and leaves everything as it was. -/
theorem hedRepoNextSeq_spec (hro : txn.readonly = false) (table : Bytes) :
  wp handle (hedRepoNextSeq repo table)
    (fun t r w' => w' = w
      ∧ ((∃ old c, txn.content.record hedTable table = some old ∧ old.length = 4
          ∧ txn.content.update hedTable table (encode32 ((decode32 old + 1) % 4294967296)) = some c
          ∧ r = ((decode32 old + 1) % 4294967296, repo.work txn c) ∧ Clean t)
        ∨ (r = (0, repo) ∧ (txn.content.record hedTable table = none ∨ ¬ Clean t))))
    w
  := by
  rw [hedRepoNextSeq]
  apply wp_bind_of handle (hedRepoGet_spec htxn w hedTable table)
  rintro t ⟨_, _⟩ w' ⟨rfl, rfl, ⟨old, rfl, hrec, ht⟩ | ⟨⟨e, rfl⟩, herr⟩⟩
  · simp only [wp_require_bind]
    intro hlen
    apply wp_bind_of handle (hedRepoUpdate_spec htxn w' hro hedTable table _)
    rintro t' ⟨ret, repo'⟩ _ ⟨rfl, ⟨c, hc, hr, ht'⟩ | ⟨hret, rfl, herr⟩⟩
    · obtain ⟨rfl, rfl⟩ := Prod.mk.inj hr
      use rfl
      left
      use old, c, hrec, hlen, hc, rfl
      simp [ht, ht']
    · simp only [if_pos hret]
      use rfl
      right
      use rfl
      right
      have hhas : txn.content.Has hedTable := by
        use by decide
        obtain ⟨tab, htab, -⟩ := Option.bind_eq_some_iff.mp hrec
        rw [htab]
        rfl
      rcases herr with hnone | ht
      · rw [Content.update, if_pos hhas] at hnone
        cases hnone
      · simp only [clean_append, not_and]
        intro _ h
        apply (ht h).elim
  · use rfl
    right
    use rfl
    rcases herr with hname | hnone | ht
    · cases hname
    · left
      apply hnone
    · right
      simpa using ht

end Records

/-- With a transaction a table is asked for. -/
theorem safe_repoDbiOpen {repo : HedRepo} {env : Env} {txn : Txn} (henv : repo.env = some env)
    (htxn : repo.txn = some txn) (w : World) (table : Bytes) (flags : Flags) :
  Safe handle (repoDbiOpen repo table flags) w
  := by
  rw [repoDbiOpen, henv, htxn]
  apply safe_ask

section NoTransaction

variable {repo : HedRepo} (htxn : repo.txn = none)
include htxn

/-- Without a transaction the functions on records halt. -/
theorem repoDbiOpen_halt (table : Bytes) (flags : Flags) :
  repoDbiOpen repo table flags = .halt
  := by
  rw [repoDbiOpen, htxn]
  cases repo.env with
  | none => rfl
  | some env => rfl

theorem hedRepoGet_halt (table key : Bytes) :
  hedRepoGet repo table key = .halt
  := by
  rw [hedRepoGet, repoDbiOpen_halt htxn]
  apply require_bind_halt

theorem hedRepoUpdate_halt (table key value : Bytes) :
  hedRepoUpdate repo table key value = .halt
  := by
  rw [hedRepoUpdate, repoDbiOpen_halt htxn]
  simp only [halt_bind, require_bind_halt]

theorem hedRepoDel_halt (table key : Bytes) :
  hedRepoDel repo table key = .halt
  := by
  rw [hedRepoDel, repoDbiOpen_halt htxn]
  apply require_bind_halt

theorem hedRepoCount_halt (table : Bytes) :
  hedRepoCount repo table = .halt
  := by
  rw [hedRepoCount, repoDbiOpen_halt htxn]
  rfl

theorem hedRepoNextSeq_halt (table : Bytes) :
  hedRepoNextSeq repo table = .halt
  := by
  rw [hedRepoNextSeq, hedRepoGet_halt htxn]
  rfl

end NoTransaction

/-! ### The calls of the functions -/

/-- The calls that work on the content of a transaction. -/
def Call.OnRecords : Call → Prop
  | .mdbDbiOpen _ _ _ => True
  | .mdbDrop _ _ => True
  | .mdbGet _ _ _ => True
  | .mdbPut _ _ _ _ => True
  | .mdbDel _ _ _ => True
  | .mdbStat _ _ => True
  | _ => False

section OnRecords

variable (repo : HedRepo) (table : Bytes)

theorem calls_repoDbiOpen (flags : Flags) :
  (repoDbiOpen repo table flags).Calls Call.OnRecords
  := by
  apply Calls.bind (calls_demand _ _)
  intro env
  apply Calls.bind (calls_demand _ _)
  intro txn
  apply calls_ask trivial

theorem calls_hedRepoGet (key : Bytes) :
  (hedRepoGet repo table key).Calls Call.OnRecords
  := by
  apply Calls.bind (calls_require _ _)
  intro _
  apply Calls.bind (calls_repoDbiOpen repo table 0)
  rintro (e | ⟨dbi, txn⟩)
  · trivial
  · apply Calls.bind (calls_ask trivial)
    intro ret
    trivial

theorem calls_hedRepoUpdate (key value : Bytes) :
  (hedRepoUpdate repo table key value).Calls Call.OnRecords
  := by
  apply Calls.bind (calls_require _ _)
  intro _
  apply Calls.bind (calls_require _ _)
  intro _
  apply Calls.bind (calls_repoDbiOpen repo table 0)
  rintro (e | ⟨dbi, txn⟩)
  · trivial
  · apply Calls.bind (calls_ask trivial)
    rintro (e | txn')
    · trivial
    · trivial

theorem calls_hedRepoDel (key : Bytes) :
  (hedRepoDel repo table key).Calls Call.OnRecords
  := by
  apply Calls.bind (calls_require _ _)
  intro _
  apply Calls.bind (calls_repoDbiOpen repo table 0)
  rintro (e | ⟨dbi, txn⟩)
  · trivial
  · apply Calls.bind (calls_ask trivial)
    rintro (e | txn')
    · trivial
    · trivial

theorem calls_hedRepoCount :
  (hedRepoCount repo table).Calls Call.OnRecords
  := by
  apply Calls.bind (calls_repoDbiOpen repo table 0)
  rintro (e | ⟨dbi, txn⟩)
  · trivial
  · apply Calls.bind (calls_ask trivial)
    rintro (e | entries)
    · trivial
    · trivial

theorem calls_hedRepoNextSeq :
  (hedRepoNextSeq repo table).Calls Call.OnRecords
  := by
  apply Calls.bind (calls_hedRepoGet repo hedTable table)
  rintro ⟨e | old, repo'⟩
  · trivial
  · apply Calls.bind (calls_require _ _)
    intro _
    apply Calls.bind (calls_hedRepoUpdate repo' hedTable table _)
    rintro ⟨ret, repo''⟩
    by_cases h : ret = 0
    · simp only [ne_eq, h, not_true_eq_false, if_false]
      trivial
    · simp only [ne_eq, h, not_false_eq_true, if_true]
      trivial

end OnRecords

/-- A step whose code is checked makes the calls of the step and of what follows it. -/
theorem calls_checked {P : Call → Prop} {p : Repo (ℤ × HedRepo)}
    {error next : ℤ × HedRepo → Repo (ℤ × HedRepo)} (hp : p.Calls P)
    (herror : ∀ r, (error r).Calls P) (hnext : ∀ r, (next r).Calls P) :
  (p >>= fun r => if r.1 ≠ 0 then error r else next r).Calls P
  := by
  apply Calls.bind hp
  intro r
  apply calls_ite (herror r) (hnext r)

/-! ### Opening tables -/

theorem calls_repoOpenTable (repo : HedRepo) (table : Bytes) (flags : Flags) :
  (repoOpenTable repo table flags).Calls Call.OnRecords
  := by
  apply Calls.bind (calls_repoDbiOpen repo table _)
  rintro (e | ⟨dbi, txn⟩)
  · trivial
  · by_cases h : flags &&& O_TRUNC = 0
    · simp only [h, if_true]
      trivial
    · simp only [h, if_false]
      apply Calls.bind (calls_ask trivial)
      rintro (e | txn')
      · trivial
      · trivial

theorem calls_repoOpenTables (flags : Flags) (repo : HedRepo) (tables : List Bytes) :
  (repoOpenTables flags repo tables).Calls Call.OnRecords
  := by
  induction tables generalizing repo with
  | nil => trivial
  | cons table rest ih =>
      apply Calls.bind (calls_require _ _)
      intro _
      apply calls_checked (calls_repoOpenTable repo table flags)
      · intro r
        trivial
      · intro r
        apply ih

theorem calls_repoInitSeqs (repo : HedRepo) (tables : List Bytes) :
  (repoInitSeqs repo tables).Calls Call.OnRecords
  := by
  induction tables generalizing repo with
  | nil => trivial
  | cons table rest ih =>
      apply calls_checked (calls_hedRepoUpdate repo hedTable table _)
      · intro r
        trivial
      · intro r
        apply ih

theorem calls_repoSetup (repo : HedRepo) (flags : Flags) :
  (repoSetup repo flags).Calls Call.OnRecords
  := by
  apply calls_checked (calls_repoOpenTable repo hedTable flags)
  · intro r
    trivial
  · intro r
    apply calls_checked (calls_repoOpenTables flags r.2 repo.table)
    · intro r'
      trivial
    · intro r'
      split_ifs with h
      · apply calls_repoInitSeqs
      · trivial

/-- What a function that prepares the tables leaves: it returns zero and the content
`after`, or an error code, the latter only if there is no such content or LMDB is made to
fail. -/
def Prepares (repo : HedRepo) (txn : Txn) (w : World) (after : Option Content)
    (t : List (Event calls Fate)) (r : ℤ × HedRepo) (w' : World) : Prop :=
  w' = w ∧ ((∃ c, after = some c ∧ r = (0, repo.work txn c) ∧ Clean t)
    ∨ (r.1 ≠ 0 ∧ (∃ c, r.2 = repo.work txn c) ∧ (after = none ∨ ¬ Clean t)))

theorem Writes.prepares {repo : HedRepo} {txn : Txn} (htxn : repo.txn = some txn)
    {w w' : World} {after : Option Content} {t : List (Event calls Fate)} {r : ℤ × HedRepo}
    (h : Writes repo txn w after t r w') :
  Prepares repo txn w after t r w'
  := by
  obtain ⟨hw, hok | ⟨hret, hrepo, herr⟩⟩ := h
  · use hw
    left
    apply hok
  · use hw
    right
    use hret, ⟨txn.content, hrepo.trans (HedRepo.work_self htxn).symm⟩

section Prepares

variable {repo repo' : HedRepo} {txn : Txn} {w : World} {after : Option Content}
  {t : List (Event calls Fate)}

theorem Prepares.of_success {c : Content} (hafter : after = some c) (ht : Clean t) :
  Prepares repo txn w after t (0, repo.work txn c) w
  := by
  use rfl
  left
  exact ⟨c, hafter, rfl, ht⟩

theorem Prepares.of_failure {ret : ℤ} {c : Content} (hret : ret ≠ 0)
    (hrepo : repo' = repo.work txn c) (herr : after = none ∨ ¬ Clean t) :
  Prepares repo txn w after t (ret, repo') w
  := by
  use rfl
  right
  exact ⟨hret, ⟨c, hrepo⟩, herr⟩

/-- Doing nothing prepares the content that is there. -/
theorem Prepares.refl (htxn : repo.txn = some txn) :
  Prepares repo txn w (some txn.content) [] (0, repo) w
  := by
  have h : Prepares repo txn w (some txn.content) [] (0, repo.work txn txn.content) w :=
    Prepares.of_success rfl clean_nil
  rw [HedRepo.work_self htxn] at h
  apply h

end Prepares

/-- Preparing goes on with the next function when the first one returns zero. -/
theorem Prepares.bind {repo : HedRepo} {txn : Txn} {w : World} {p : Repo (ℤ × HedRepo)}
    {q : HedRepo → Repo (ℤ × HedRepo)} {after : Option Content}
    {next : Content → Option Content} (hp : wp handle p (Prepares repo txn w after) w)
    (hq : ∀ c, after = some c →
      wp handle (q (repo.work txn c))
        (Prepares (repo.work txn c) (txn.withContent c) w (next c)) w) :
  wp handle (p >>= fun r => if r.1 ≠ 0 then pure r else q r.2)
    (Prepares repo txn w (after.bind next)) w
  := by
  apply wp_bind_of handle hp
  rintro t ⟨ret, repo'⟩ _ ⟨rfl, ⟨c, rfl, hr, ht⟩ | ⟨hret, hrepo, herr⟩⟩
  · obtain ⟨rfl, rfl⟩ := Prod.mk.inj hr
    simp only [ne_eq, not_true_eq_false, if_false]
    apply wp_mono handle (hq c rfl)
    rintro t' r w' ⟨rfl, ⟨c', hc', hr', ht'⟩ | ⟨hret', ⟨c', hc'⟩, herr'⟩⟩
    · use rfl
      left
      use c', hc', hr'
      simp [ht, ht']
    · use rfl
      right
      use hret', ⟨c', hc'⟩
      rcases herr' with hnone | ht'
      · left
        apply hnone
      · right
        simp [ht']
  · simp only [if_pos hret]
    use rfl
    right
    use hret, hrepo
    rcases herr with rfl | ht
    · left
      rfl
    · right
      simpa using ht

/-- The flag of `mdb_dbi_open` that `repo_open_table` computes. -/
theorem create_flag (flags : Flags) :
  (if flags &&& O_CREAT ≠ 0 then MDB_CREATE else 0) &&& MDB_CREATE ≠ 0 ↔ flags &&& O_CREAT ≠ 0
  := by
  by_cases h : flags &&& O_CREAT = 0
  · simp [h]
  · rw [if_pos h]
    apply iff_of_true (by decide) h

/-- Opening the table of `repo_open_table` gives the content that truncating it starts from. -/
theorem Txn.dbiOpen_cases {txn : Txn} (hro : txn.readonly = false) (table : Bytes)
    (flags : Flags) :
  (∃ c, txn.dbiOpen table (if flags &&& O_CREAT ≠ 0 then MDB_CREATE else 0)
        = .ok (table, txn.withContent c)
      ∧ txn.content.openTable flags table
        = some (if flags &&& O_TRUNC ≠ 0 then c.put table ∅ else c))
    ∨ ((∃ e, txn.dbiOpen table (if flags &&& O_CREAT ≠ 0 then MDB_CREATE else 0) = .error e)
      ∧ txn.content.openTable flags table = none)
  := by
  by_cases hhas : txn.content.Has table
  · left
    use txn.content, Txn.dbiOpen_of_has hhas _
    rw [Content.openTable, if_pos hhas]
  · by_cases hcreate : table ≠ [] ∧ flags &&& O_CREAT ≠ 0
    · left
      use txn.content.put table ∅
      constructor
      · exact Txn.dbiOpen_create hro hhas hcreate.1 ((create_flag flags).mpr hcreate.2)
      · rw [Content.openTable, if_neg hhas, if_pos hcreate]
        simp
    · right
      constructor
      · apply Txn.dbiOpen_of_not_has _ hhas
        rw [not_and_or, not_not] at hcreate
        apply hcreate.imp_right
        intro h
        by_contra hne
        apply h ((create_flag flags).mp hne)
      · rw [Content.openTable, if_neg hhas, if_neg hcreate]

/-- `repo_open_table` opens one table. -/
theorem repoOpenTable_spec {repo : HedRepo} {txn : Txn} (htxn : repo.txn = some txn)
    (hro : txn.readonly = false) (w : World) (table : Bytes) (flags : Flags) :
  wp handle (repoOpenTable repo table flags)
    (Prepares repo txn w (txn.content.openTable flags table)) w
  := by
  rw [repoOpenTable]
  apply wp_bind_of handle (repoDbiOpen_spec htxn w table _)
  rintro t _ w' ⟨rfl, ⟨rfl, ht⟩ | ⟨⟨e, rfl⟩, ht⟩⟩
  · rcases Txn.dbiOpen_cases hro table flags with ⟨c, hopen, hafter⟩ | ⟨⟨e, hopen⟩, hafter⟩
    · rw [hopen]
      dsimp only
      by_cases htrunc : flags &&& O_TRUNC = 0
      · rw [if_pos htrunc]
        rw [if_neg (fun h => h htrunc)] at hafter
        apply Prepares.of_success hafter
        simpa using ht
      · rw [if_neg htrunc, wp_bind, wp_mdbDrop]
        rw [if_pos htrunc] at hafter
        constructor
        · have hdrop : (txn.withContent c).drop table = .ok (txn.withContent (c.put table ∅)) :=
            if_neg (fun h => Bool.false_ne_true (hro.symm.trans h))
          rw [hdrop]
          apply Prepares.of_success hafter
          simp [ht, failed]
        · intro e left
          apply Prepares.of_failure e.ne_zero rfl
          right
          simp [failed, Call.fallible]
    · rw [hopen]
      apply Prepares.of_failure e.ne_zero (HedRepo.work_self htxn).symm
      left
      exact hafter
  · apply Prepares.of_failure e.ne_zero (HedRepo.work_self htxn).symm
    right
    simpa using ht

/-- The loop of `repo_open` over the tables opens them one after another. -/
theorem repoOpenTables_spec {repo : HedRepo} {txn : Txn} (htxn : repo.txn = some txn)
    (hro : txn.readonly = false) (w : World) (flags : Flags) (tables : List Bytes) :
  wp handle (repoOpenTables flags repo tables)
    (Prepares repo txn w (Content.openTables flags txn.content tables)) w
  := by
  induction tables generalizing repo txn with
  | nil =>
      apply Prepares.refl htxn
  | cons table rest ih =>
      rw [repoOpenTables, wp_require_bind, Content.openTables]
      intro hname
      rw [if_neg hname]
      apply Prepares.bind (q := fun r => repoOpenTables flags r rest)
        (repoOpenTable_spec htxn hro w table flags)
      intro c _
      apply ih (HedRepo.work_txn repo txn c) hro

/-- The loop of `repo_open` over the tables gives each the sequence number zero. -/
theorem repoInitSeqs_spec {repo : HedRepo} {txn : Txn} (htxn : repo.txn = some txn)
    (hro : txn.readonly = false) (w : World) (tables : List Bytes) :
  wp handle (repoInitSeqs repo tables) (Prepares repo txn w (txn.content.initSeqs tables)) w
  := by
  induction tables generalizing repo txn with
  | nil =>
      apply Prepares.refl htxn
  | cons table rest ih =>
      rw [repoInitSeqs]
      have hupdate := wp_mono handle (hedRepoUpdate_spec htxn w hro hedTable table (encode32 0))
        (fun _ _ _ h => h.prepares htxn)
      apply Prepares.bind (q := fun r => repoInitSeqs r rest) hupdate
      intro c _
      apply ih (HedRepo.work_txn repo txn c) hro

/-- The transaction of `repo_open` sets up the content. -/
theorem repoSetup_spec {repo : HedRepo} {txn : Txn} (htxn : repo.txn = some txn)
    (hro : txn.readonly = false) (w : World) (flags : Flags) :
  wp handle (repoSetup repo flags)
    (Prepares repo txn w (txn.content.setup flags repo.table)) w
  := by
  rw [repoSetup]
  apply Prepares.bind (q := fun r => do
      let ret ← repoOpenTables flags r repo.table
      if ret.1 ≠ 0 then pure ret
      else if flags &&& O_TRUNC ≠ 0 then repoInitSeqs ret.2 repo.table
      else pure (0, ret.2))
    (repoOpenTable_spec htxn hro w hedTable flags)
  intro c _
  apply Prepares.bind (q := fun r =>
      if flags &&& O_TRUNC ≠ 0 then repoInitSeqs r repo.table else pure (0, r))
    (repoOpenTables_spec (HedRepo.work_txn repo txn c) hro w flags repo.table)
  intro c' _
  by_cases htrunc : flags &&& O_TRUNC ≠ 0
  · simp only [if_pos htrunc]
    apply repoInitSeqs_spec (HedRepo.work_txn repo txn c') hro w repo.table
  · simp only [if_neg htrunc]
    apply Prepares.refl (HedRepo.work_txn repo txn c')

end Hed
