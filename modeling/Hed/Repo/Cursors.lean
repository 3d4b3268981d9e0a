import Hed.Repo.Iterator
import Hed.Repo.Sequential

/-!
# What iterators hold

A client that uses the iterators of `repo.h`: it creates them, steps them, destroys them and
calls functions on records, in any order, and it may have several iterators at a time.  Every
iterator holds a block of memory and a cursor.  An `IterInvocation` is one such call, and the runs
of a client are the runs of `Reads`.  When `hed_repo_create_iter` has opened a cursor and then
finds no entry, it frees the iterator but does not close the cursor: `IterInvocation.lost` is that
cursor.
-/

namespace Hed

open Program

/-- A client of iterators: its repository, the iterators it has, and the world. -/
structure Reader where
  repo : HedRepo
  iters : List HedRepoIter
  world : World × Cursors

/-- A call of a function of `repo.h` on iterators or on records.  The client names an iterator by
its place among those that it has. -/
inductive IterOp where
  | hedRepoCreateIter (table : Bytes)
  | hedRepoStep (i : ℕ) (key value : Bool)
  | hedRepoDestroyIter (i : ℕ)
  | onRecords (op : Op)

/-- What the call returns. -/
inductive IterResult where
  | created (b : Bool)
  | step (step : Step)
  | void
  | onRecords (r : Result)
  deriving DecidableEq

section Run

variable (repo3pc : Bool)

/-- The function that an operation calls, with what the client has afterwards. -/
def IterOp.run (repo : HedRepo) (iters : List HedRepoIter) :
    IterOp → Program cursorCalls (IterResult × List HedRepoIter × HedRepo)
  | .hedRepoCreateIter table => do
      let r ← Hed.hedRepoCreateIter repo table
      pure (.created r.1.isSome, iters ++ r.1.toList, r.2)
  | .hedRepoStep i key value => do
      let iter ← demand iters[i]?
      let r ← Hed.hedRepoStep repo iter key value
      pure (.step r.1, iters.set i r.2, repo)
  | .hedRepoDestroyIter i => do
      let iter ← demand iters[i]?
      Hed.hedRepoDestroyIter iter
      pure (.void, iters.eraseIdx i, repo)
  | .onRecords op => do
      require (op.recorded = true)
      let r ← (op.run repo3pc repo).inl
      pure (.onRecords r.1, iters, r.2)

/-- A call, as the client and the system see it. -/
structure IterInvocation where
  before : Reader
  op : IterOp
  trace : List (Event cursorCalls Fate)
  result : IterResult
  after : Reader

/-- Call a function, with the given fates for its external calls. -/
def Reader.invoke (s : Reader) (op : IterOp) (fates : List Fate) : Option IterInvocation :=
  let o := exec handleAll (op.run repo3pc s.repo s.iters) fates s.world
  o.value.map (fun r => ⟨s, op, o.trace, r.1, ⟨r.2.2, r.2.1, o.world⟩⟩)

/-- The steps of a client. -/
def Reads (s : Reader) (e : IterInvocation) (s' : Reader) : Prop :=
  (∃ op fates, s.invoke repo3pc op fates = some e) ∧ e.after = s'

/-- Play a script: the turns it leads to, if no assertion fails. -/
def Reader.play : Reader → List (IterOp × List Fate) → Option (List IterInvocation × Reader)
  | s, [] => some ([], s)
  | s, (op, fates) :: rest =>
      (s.invoke repo3pc op fates).bind (fun e =>
        (e.after.play rest).map (fun r => (e :: r.1, r.2)))

end Run

variable {repo3pc : Bool}

/-- What a script plays is a run. -/
theorem Reader.run_play {s s' : Reader} {script : List (IterOp × List Fate)}
    {es : List IterInvocation} (h : s.play repo3pc script = some (es, s')) :
  Run (Reads repo3pc) s es s'
  := by
  induction script generalizing s es with
  | nil =>
      cases h
      apply Run.nil
  | cons turn rest ih =>
      obtain ⟨op, fates⟩ := turn
      obtain ⟨e, he, h'⟩ := Option.bind_eq_some_iff.mp h
      obtain ⟨⟨es', s''⟩, hrest, h''⟩ := Option.map_eq_some_iff.mp h'
      cases h''
      apply Run.cons_iff.mpr
      exact ⟨e.after, ⟨⟨op, fates, he⟩, rfl⟩, ih hrest⟩

/-- What every execution of the function satisfies, the turn satisfies. -/
theorem Reads.of_wp {s s' : Reader} {e : IterInvocation} (h : Reads repo3pc s e s')
    {Q : IterOp → List (Event cursorCalls Fate) → IterResult × List HedRepoIter × HedRepo
      → World × Cursors → Prop}
    (hQ : ∀ op, wp handleAll (op.run repo3pc s.repo s.iters) (Q op) s.world) :
  e.before = s ∧ Q e.op e.trace (e.result, s'.iters, s'.repo) s'.world
  := by
  obtain ⟨⟨op, fates, hinvoke⟩, rfl⟩ := h
  obtain ⟨r, hr, rfl⟩ := Option.map_eq_some_iff.mp hinvoke
  use rfl
  apply (wp_iff_exec handleAll _ _ _).mp (hQ op) fates r hr

/-! ### What one call does -/

/-- The cursors after one more has been opened. -/
def Cursors.opened (c : Cursors) : Cursors := ⟨c.next :: c.live, c.next + 1⟩

/-- The cursors after one has been closed. -/
def Cursors.closed (c : Cursors) (id : ℕ) : Cursors := { c with live := c.live.erase id }

/-- The call opened a cursor. -/
def opensCursor (e : Event cursorCalls Fate) : Bool :=
  match e.call with
  | .inr (.mdbCursorOpen _ _) => e.fate = .ok
  | _ => false

/-- The table that an iterator is for, in a transaction. -/
def HedRepoIter.table (iter : HedRepoIter) (txn : Txn) : Table :=
  (txn.content.get iter.cursor.dbi).getD ∅

/-- What `hed_repo_step` can do: find no record, deliver a record and move on to the next one, or
deliver a record and stay. -/
inductive Moves (txn : Txn) (iter : HedRepoIter) (key value : Bool)
    (t : List (Event cursorCalls Fate)) : Step → HedRepoIter → Prop where
  | missed
      (cause : LmdbSucceeds t → ∀ k, iter.cursor.key = some k → (iter.table txn).get k = none) :
      Moves txn iter key value t ⟨-EINVAL.code, none, none⟩ iter
  | moved {k v : Bytes} {entry : Bytes × Bytes} (on : iter.cursor.key = some k)
      (record : (iter.table txn).get k = some v) (next : (iter.table txn).next k = some entry) :
      Moves txn iter key value t
        ⟨EAGAIN.code, if key = true then some k else none, if value = true then some v else none⟩
        ⟨iter.cursor.on entry⟩
  | stayed {k v : Bytes} {ret : ℤ} (on : iter.cursor.key = some k)
      (record : (iter.table txn).get k = some v) (ret_ne : ret ≠ EAGAIN.code)
      (cause : LmdbSucceeds t → ret = 0 ∧ (iter.table txn).next k = none) :
      Moves txn iter key value t
        ⟨ret, if key = true then some k else none, if value = true then some v else none⟩ iter

/-- What a call can do in a transaction that accepts writes: the calls it made, its result, and
what the client has afterwards. -/
inductive IterEffect (s : Reader) (txn : Txn) :
    IterOp → List (Event cursorCalls Fate) → IterResult → Reader → Prop where
  | created {table : Bytes} {t : List (Event cursorCalls Fate)} {entry : Bytes × Bytes}
      (first : (txn.tableEntries table).head? = some entry) :
      IterEffect s txn (.hedRepoCreateIter table) t (.created true)
        ⟨s.repo, s.iters ++ [⟨⟨s.world.2.next, table, some entry.1⟩⟩],
          (s.world.1.acquire .block, s.world.2.opened)⟩
  | uncreated {table : Bytes} {t : List (Event cursorCalls Fate)}
      (cause : LmdbSucceeds t → ¬ MallocFails t → txn.content.Has table →
        txn.tableEntries table = [] ∧ t.any opensCursor = true) :
      IterEffect s txn (.hedRepoCreateIter table) t (.created false)
        ⟨s.repo, s.iters,
          (s.world.1, if t.any opensCursor = true then s.world.2.opened else s.world.2)⟩
  | stepped {i : ℕ} {key value : Bool} {t : List (Event cursorCalls Fate)}
      {iter iter' : HedRepoIter} {step : Step} (has : s.iters[i]? = some iter)
      (moves : Moves txn iter key value t step iter') :
      IterEffect s txn (.hedRepoStep i key value) t (.step step)
        ⟨s.repo, s.iters.set i iter', s.world⟩
  | destroyed {i : ℕ} {t : List (Event cursorCalls Fate)} {iter : HedRepoIter}
      (has : s.iters[i]? = some iter) :
      IterEffect s txn (.hedRepoDestroyIter i) t .void
        ⟨s.repo, s.iters.eraseIdx i,
          (s.world.1.release .block, s.world.2.closed iter.cursor.id)⟩
  | onRecords {op : Op} {t : List (Event cursorCalls Fate)} {r : Result} {c : Content}
      (recorded : op.recorded = true) (works : Works txn.content (op, r) c) :
      IterEffect s txn (.onRecords op) t (.onRecords r) ⟨s.repo.work txn c, s.iters, s.world⟩

section Calls

variable {repo : HedRepo} {txn : Txn} {s : World × Cursors}

theorem wp_malloc_inl_bind {α : Type} {k : Bool → Program cursorCalls α}
    {Q : List (Event cursorCalls Fate) → α → World × Cursors → Prop} :
  wp handleAll (malloc.inl >>= k) Q s
    ↔ wp handleAll (k true) (fun t => Q (⟨.inl .malloc, .ok⟩ :: t)) (s.1.acquire .block, s.2)
      ∧ ∀ e left, wp handleAll (k false) (fun t => Q (⟨.inl .malloc, .fail e left⟩ :: t)) s
  := Fate.forall

theorem wp_mdbCursorOpen_bind {α : Type} {dbi : Dbi}
    {k : Except Errno Cursor → Program cursorCalls α}
    {Q : List (Event cursorCalls Fate) → α → World × Cursors → Prop} :
  wp handleAll (mdbCursorOpen txn dbi >>= k) Q s
    ↔ wp handleAll (k (.ok ⟨s.2.next, dbi, none⟩))
        (fun t => Q (⟨.inr (.mdbCursorOpen txn dbi), .ok⟩ :: t)) (s.1, s.2.opened)
      ∧ ∀ e left, wp handleAll (k (.error e))
        (fun t => Q (⟨.inr (.mdbCursorOpen txn dbi), .fail e left⟩ :: t)) s
  := Fate.forall

theorem wp_mdbCursorGet_bind {α : Type} {cursor : Cursor} {op : CursorOp}
    {k : Except Errno ((Bytes × Bytes) × Cursor) → Program cursorCalls α}
    {Q : List (Event cursorCalls Fate) → α → World × Cursors → Prop} :
  wp handleAll (mdbCursorGet txn cursor op >>= k) Q s
    ↔ wp handleAll (k (txn.cursorGet cursor op))
        (fun t => Q (⟨.inr (.mdbCursorGet txn cursor op), .ok⟩ :: t)) s
      ∧ ∀ e left, wp handleAll (k (.error e))
        (fun t => Q (⟨.inr (.mdbCursorGet txn cursor op), .fail e left⟩ :: t)) s
  := Fate.forall

theorem wp_free_bind {α : Type} {k : Unit → Program cursorCalls α}
    {Q : List (Event cursorCalls Fate) → α → World × Cursors → Prop} :
  wp handleAll (free >>= k) Q s
    ↔ ∀ f, wp handleAll (k ()) (fun t => Q (⟨.inr .free, f⟩ :: t)) (s.1.release .block, s.2)
  := Iff.rfl

@[simp]
theorem lmdbSucceeds_cons {e : Event cursorCalls Fate} {t : List (Event cursorCalls Fate)} :
  LmdbSucceeds (e :: t) ↔ lmdbFailed e = false ∧ LmdbSucceeds t
  := List.forall_mem_cons

@[simp]
theorem lmdbSucceeds_append {t t' : List (Event cursorCalls Fate)} :
  LmdbSucceeds (t ++ t') ↔ LmdbSucceeds t ∧ LmdbSucceeds t'
  := List.forall_mem_append

/-- The call that opens a table opens no cursor, and fails without the table, or when LMDB is
made to fail. -/
theorem wp_repoDbiOpen_inl_bind {α : Type} {k : Except Errno (Dbi × Txn) → Program cursorCalls α}
    {Q : List (Event cursorCalls Fate) → α → World × Cursors → Prop} (htxn : repo.txn = some txn)
    (table : Bytes)
    (hopened : ∀ t, t.any opensCursor = false → txn.content.Has table →
      wp handleAll (k (.ok (table, txn))) (fun t' => Q (t ++ t')) s)
    (hmissed : ∀ e t, t.any opensCursor = false →
      ¬ txn.content.Has table ∨ ¬ LmdbSucceeds t →
      wp handleAll (k (.error e)) (fun t' => Q (t ++ t')) s) :
  wp handleAll ((repoDbiOpen repo table 0).inl >>= k) Q s
  := by
  obtain ⟨w, cursors⟩ := s
  rw [wp_bind, wp_inl]
  simp only [repoDbiOpen, wp_demand_bind, wp_mdbDbiOpen]
  rintro env - txn' htxn'
  obtain rfl := Option.some.inj (htxn.symm.trans htxn')
  constructor
  · by_cases hhas : txn.content.Has table
    · rw [Txn.dbiOpen_of_has hhas]
      apply hopened _ rfl hhas
    · obtain ⟨e, he⟩ := Txn.dbiOpen_of_not_has 0 hhas (Or.inr (by decide))
      rw [he]
      apply hmissed e _ rfl (Or.inl hhas)
  · intro e left
    apply hmissed e _ rfl
    right
    intro hsucceeds
    have hok := hsucceeds _ List.mem_cons_self
    contradiction

/-- Without an iterator, there is no block of memory, but the cursor if one was opened. -/
structure Uncreated (s : World × Cursors) (txn : Txn) (table : Bytes)
    (t : List (Event cursorCalls Fate)) (s' : World × Cursors) : Prop where
  world : s' = (s.1, if t.any opensCursor = true then s.2.opened else s.2)
  cause : LmdbSucceeds t → ¬ MallocFails t → txn.content.Has table →
    txn.tableEntries table = [] ∧ t.any opensCursor = true

theorem hedRepoCreateIter_effect (htxn : repo.txn = some txn) (table : Bytes) :
  wp handleAll (hedRepoCreateIter repo table)
    (fun t r s' => (∃ entry, (txn.tableEntries table).head? = some entry
        ∧ r = (some ⟨⟨s.2.next, table, some entry.1⟩⟩, repo)
        ∧ s' = (s.1.acquire .block, s.2.opened))
      ∨ (r = (none, repo) ∧ Uncreated s txn table t s')) s
  := by
  obtain ⟨w, cursors⟩ := s
  have hself : { repo with txn := some txn } = repo := HedRepo.work_self htxn
  apply wp_repoDbiOpen_inl_bind htxn table
  · intro t ht hhas
    apply wp_malloc_inl_bind.mpr
    constructor
    · apply wp_mdbCursorOpen_bind.mpr
      constructor
      · apply wp_mdbCursorGet_bind.mpr
        rw [cursorGet_first rfl]
        constructor
        · rcases hentries : txn.tableEntries table with _ | ⟨entry, rest⟩
          · apply wp_free_bind.mpr
            intro f
            right
            use congrArg _ hself
            constructor
            · simp [opensCursor]
            · intro _ _ _
              use hentries
              simp [opensCursor]
          · left
            exact ⟨entry, rfl, congrArg _ hself, rfl⟩
        · intro e left
          apply wp_free_bind.mpr
          intro f
          right
          use congrArg _ hself
          constructor
          · simp [opensCursor]
          · intro hsucceeds
            simp [lmdbFailed, CursorCall.fallible] at hsucceeds
      · intro e left
        apply wp_free_bind.mpr
        intro f
        right
        use congrArg _ hself
        constructor
        · simp [opensCursor, ht]
        · intro hsucceeds
          simp [lmdbFailed, CursorCall.fallible] at hsucceeds
    · intro e left
      right
      use congrArg _ hself
      constructor
      · simp [opensCursor, ht]
      · intro _ hmalloc
        exfalso
        apply hmalloc
        use ⟨.inl .malloc, .fail e left⟩, by simp, rfl
        rintro ⟨⟩
  · intro e t ht hcause
    right
    use rfl
    constructor
    · simp [ht]
    · intro hsucceeds _ hhas
      rcases hcause with hmissing | hfailed
      · contradiction
      · rw [List.append_nil] at hsucceeds
        contradiction

section Stepping

variable {iter : HedRepoIter}

/-- The record that a cursor is on. -/
theorem cursorGet_getCurrent_cases (txn : Txn) (iter : HedRepoIter) :
  (∃ k v, iter.cursor.key = some k ∧ (iter.table txn).get k = some v
      ∧ txn.cursorGet iter.cursor .getCurrent = .ok ((k, v), iter.cursor))
    ∨ ((∃ e, txn.cursorGet iter.cursor .getCurrent = .error e)
      ∧ ∀ k, iter.cursor.key = some k → (iter.table txn).get k = none)
  := by
  obtain ⟨⟨id, dbi, _ | k⟩⟩ := iter
  · right
    use ⟨EINVAL, rfl⟩
    rintro k ⟨⟩
  · rcases hget : ((txn.content.get dbi).getD ∅).get k with _ | v
    · right
      constructor
      · use MDB_NOTFOUND
        simp only [Txn.cursorGet, hget]
        rfl
      · rintro _ ⟨⟩
        exact hget
    · left
      use k, v, rfl, hget
      simp only [Txn.cursorGet, hget]
      rfl

theorem cursorGet_next_of_key {cursor : Cursor} {k : Bytes} (hkey : cursor.key = some k) :
  txn.cursorGet cursor .next = cursor.move (((txn.content.get cursor.dbi).getD ∅).next k)
  := by
  obtain ⟨id, dbi, key⟩ := cursor
  subst hkey
  rfl

theorem hedRepoStep_moves (htxn : repo.txn = some txn) (key value : Bool) :
  wp handleAll (hedRepoStep repo iter key value)
    (fun t r s' => s' = s ∧ Moves txn iter key value t r.1 r.2) s
  := by
  rw [hedRepoStep, wp_require_bind]
  intro _
  rw [htxn]
  apply wp_mdbCursorGet_bind.mpr
  constructor
  · obtain ⟨k, v, hkey, hrecord, hget⟩ | ⟨⟨e, hget⟩, hmissing⟩ :=
      cursorGet_getCurrent_cases txn iter
    · rw [hget]
      apply wp_mdbCursorGet_bind.mpr
      rw [cursorGet_next_of_key hkey]
      constructor
      · rcases hnext : (iter.table txn).next k with _ | entry
        · have hnone : ((txn.content.get iter.cursor.dbi).getD ∅).next k = none := hnext
          rw [hnone]
          simp only [Cursor.move, if_true]
          use rfl
          apply Moves.stayed hkey hrecord (by decide)
          intro _
          exact ⟨rfl, hnext⟩
        · have hsome : ((txn.content.get iter.cursor.dbi).getD ∅).next k = some entry := hnext
          rw [hsome]
          use rfl
          exact Moves.moved hkey hrecord hnext
      · intro e left
        rcases eq_or_ne e MDB_NOTFOUND with he | he
        · simp only [if_pos he]
          use rfl
          apply Moves.stayed hkey hrecord (by decide)
          intro hsucceeds
          simp [lmdbFailed, CursorCall.fallible] at hsucceeds
        · simp only [if_neg he]
          use rfl
          apply Moves.stayed hkey hrecord (by decide)
          intro hsucceeds
          simp [lmdbFailed, CursorCall.fallible] at hsucceeds
    · rw [hget]
      use rfl
      apply Moves.missed
      intro _
      apply hmissing
  · intro e left
    use rfl
    apply Moves.missed
    intro hsucceeds
    simp [lmdbFailed, CursorCall.fallible] at hsucceeds

end Stepping

theorem hedRepoDestroyIter_releases (iter : HedRepoIter) :
  wp handleAll (hedRepoDestroyIter iter)
    (fun _ _ s' => s' = (s.1.release .block, s.2.closed iter.cursor.id)) s
  := by
  intro f f'
  rfl

/-- A function on records leaves the world alone. -/
theorem wp_inl_onRecords {op : Op} (hop : op.recorded = true) (repo3pc : Bool)
    (htxn : repo.txn = some txn) (hro : txn.readonly = false) :
  wp handleAll (op.run repo3pc repo).inl
    (fun _ r s' => s' = s
      ∧ ∃ c, r.2 = repo.work txn c ∧ Works txn.content (op, r.1) c) s
  := by
  obtain ⟨w, cursors⟩ := s
  apply wp_inl.mpr
  have hworld : wp handle (op.run repo3pc repo) (fun _ _ w' => w' = w) w := by
    apply wp_of_calls handle (calls_recorded hop repo3pc repo)
    intro f c hc
    cases c with
    | mdbDbiOpen txn name flags => cases f <;> rfl
    | mdbDrop txn dbi => cases f <;> rfl
    | mdbGet txn dbi key => cases f <;> rfl
    | mdbPut txn dbi key value => cases f <;> rfl
    | mdbDel txn dbi key => cases f <;> rfl
    | mdbStat txn dbi => cases f <;> rfl
    | _ => cases hc
  apply wp_mono handle (wp_and handle hworld (works_recorded htxn w hro hop repo3pc))
  rintro t r _ ⟨rfl, hworks⟩
  exact ⟨rfl, hworks⟩

end Calls

/-- What every turn of a client in a transaction that accepts writes does. -/
theorem Reads.effect {s s' : Reader} {e : IterInvocation} (h : Reads repo3pc s e s') {txn : Txn}
    (htxn : s.repo.txn = some txn) (hro : txn.readonly = false) :
  e.before = s ∧ IterEffect s txn e.op e.trace e.result s'
  := by
  apply h.of_wp (Q := fun op t r world => IterEffect s txn op t r.1 ⟨r.2.2, r.2.1, world⟩)
  intro op
  cases op with
  | hedRepoCreateIter table =>
      apply wp_bind_of handleAll (hedRepoCreateIter_effect htxn table)
      rintro t r world (⟨entry, hfirst, rfl, rfl⟩ | ⟨rfl, huncreated⟩)
      · exact IterEffect.created hfirst
      · obtain ⟨rfl, hcause⟩ := huncreated
        rw [wp_pure, List.append_nil, Option.toList_none, List.append_nil]
        exact IterEffect.uncreated hcause
  | hedRepoStep i key value =>
      rw [IterOp.run, wp_demand_bind]
      intro iter hiter
      apply wp_bind_of handleAll (hedRepoStep_moves htxn key value)
      rintro t ⟨step, iter'⟩ _ ⟨rfl, hmoves⟩
      rw [wp_pure, List.append_nil]
      exact IterEffect.stepped hiter hmoves
  | hedRepoDestroyIter i =>
      rw [IterOp.run, wp_demand_bind]
      intro iter hiter
      apply wp_bind_of handleAll (hedRepoDestroyIter_releases iter)
      rintro t _ _ rfl
      exact IterEffect.destroyed hiter
  | onRecords op =>
      rw [IterOp.run, wp_require_bind]
      intro hop
      apply wp_bind_of handleAll (wp_inl_onRecords hop repo3pc htxn hro)
      rintro t ⟨r, _⟩ _ ⟨rfl, c, rfl, hworks⟩
      exact IterEffect.onRecords hop hworks

/-! ### What is held -/

/-- The identity of the cursor of an iterator. -/
def HedRepoIter.id (iter : HedRepoIter) : ℕ := iter.cursor.id

/-- The cursor that a call opened without an iterator for it. -/
def IterInvocation.lost (e : IterInvocation) : Option ℕ :=
  match e.result with
  | .created false => if e.trace.any opensCursor = true then some e.before.world.2.next else none
  | _ => none

/-- What a client holds after some calls: a block of memory and a cursor for every iterator that
it has, all of them different, and the cursors that were lost.  Nothing else has changed. -/
structure Accounts (s₀ : Reader) (es : List IterInvocation) (s : Reader) : Prop where
  world : s.world.1
    = { s₀.world.1 with live := List.replicate s.iters.length .block ++ s₀.world.1.live }
  cursors : s.world.2.live.Perm
    (s.iters.map HedRepoIter.id ++ (es.filterMap IterInvocation.lost ++ s₀.world.2.live))
  nodup : s.world.2.live.Nodup
  fresh : ∀ id ∈ s.world.2.live, id < s.world.2.next
  txn : ∃ txn, s.repo.txn = some txn ∧ txn.readonly = false

section Accounts

variable {s₀ s s' : Reader} {es : List IterInvocation} {e : IterInvocation}

/-- A cursor that is opened is a new one. -/
theorem Accounts.opened (h : Accounts s₀ es s) :
  s.world.2.opened.live.Nodup ∧ ∀ id ∈ s.world.2.opened.live, id < s.world.2.opened.next
  := by
  constructor
  · apply List.nodup_cons.mpr
    use fun hmem => lt_irrefl _ (h.fresh _ hmem), h.nodup
  · intro id hid
    rcases List.mem_cons.mp hid with rfl | hmem
    · apply Nat.lt_succ_self
    · apply Nat.lt_succ_of_lt (h.fresh id hmem)

/-- A block of memory more. -/
theorem Accounts.acquire (h : Accounts s₀ es s) :
  s.world.1.acquire .block = { s₀.world.1 with
    live := List.replicate (s.iters.length + 1) .block ++ s₀.world.1.live }
  := by
  rw [h.world, List.replicate_succ]
  rfl

/-- A block of memory less. -/
theorem Accounts.release (h : Accounts s₀ es s) {i : ℕ} (hi : i < s.iters.length) :
  s.world.1.release .block = { s₀.world.1 with
    live := List.replicate (s.iters.eraseIdx i).length .block ++ s₀.world.1.live }
  := by
  obtain ⟨n, hn⟩ : ∃ n, s.iters.length = n + 1 := ⟨s.iters.length - 1, by omega⟩
  have hlength : (s.iters.eraseIdx i).length = n := by
    rw [List.length_eraseIdx_of_lt hi, hn, Nat.add_sub_cancel]
  rw [h.world, hn, hlength, List.replicate_succ]
  exact World.release_acquire { s₀.world.1 with
    live := List.replicate n .block ++ s₀.world.1.live } .block

/-- A call that loses no cursor. -/
theorem filterMap_lost_of_none (h : e.lost = none) :
  (es ++ [e]).filterMap IterInvocation.lost = es.filterMap IterInvocation.lost
  := by
  rw [List.filterMap_append, List.filterMap_cons_none h, List.filterMap_nil, List.append_nil]

/-- A call that loses a cursor. -/
theorem filterMap_lost_of_some {id : ℕ} (h : e.lost = some id) :
  (es ++ [e]).filterMap IterInvocation.lost = es.filterMap IterInvocation.lost ++ [id]
  := by
  rw [List.filterMap_append, List.filterMap_cons_some h, List.filterMap_nil]

/-- A step leaves an iterator its cursor. -/
theorem Moves.cursor {txn : Txn} {iter iter' : HedRepoIter} {key value : Bool}
    {t : List (Event cursorCalls Fate)} {step : Step} (h : Moves txn iter key value t step iter') :
  iter'.id = iter.id ∧ iter'.cursor.dbi = iter.cursor.dbi
  := by
  cases h with
  | missed cause => exact ⟨rfl, rfl⟩
  | moved on record next => exact ⟨rfl, rfl⟩
  | stayed on record ret_ne cause => exact ⟨rfl, rfl⟩

theorem map_id_set {iters : List HedRepoIter} {i : ℕ} {iter iter' : HedRepoIter}
    (hhas : iters[i]? = some iter) (hid : iter'.id = iter.id) :
  (iters.set i iter').map HedRepoIter.id = iters.map HedRepoIter.id
  := by
  obtain ⟨hi, rfl⟩ := List.getElem?_eq_some_iff.mp hhas
  have hget : (iters.map HedRepoIter.id)[i]? = some iters[i].id := by
    rw [List.getElem?_map, hhas]
    rfl
  obtain ⟨hi', hid'⟩ := List.getElem?_eq_some_iff.mp hget
  rw [List.map_set, hid, ← hid']
  apply List.set_getElem_self

theorem Accounts.step (h : Accounts s₀ es s) (hreads : Reads repo3pc s e s') :
  Accounts s₀ (es ++ [e]) s'
  := by
  obtain ⟨txn, htxn, hro⟩ := h.txn
  obtain ⟨before, op, trace, result, after⟩ := e
  obtain ⟨hbefore, heffect⟩ := hreads.effect htxn hro
  obtain rfl : before = s := hbefore
  cases heffect with
  | @created table _ entry hfirst =>
      constructor
      · rw [List.length_append]
        apply h.acquire
      · rw [filterMap_lost_of_none rfl, List.map_append, List.append_assoc]
        exact (h.cursors.cons _).trans List.perm_middle.symm
      · apply h.opened.1
      · apply h.opened.2
      · exact ⟨txn, htxn, hro⟩
  | @uncreated table _ hcause =>
      rcases hopens : trace.any opensCursor with _ | _
      · have hlost : IterInvocation.lost
            ⟨before, .hedRepoCreateIter table, trace, .created false, after⟩ = none := by
          simp [IterInvocation.lost, hopens]
        constructor
        · exact h.world
        · rw [filterMap_lost_of_none hlost]
          exact h.cursors
        · exact h.nodup
        · exact h.fresh
        · exact ⟨txn, htxn, hro⟩
      · have hlost : IterInvocation.lost
            ⟨before, .hedRepoCreateIter table, trace, .created false, after⟩
            = some before.world.2.next := by
          simp [IterInvocation.lost, hopens]
        constructor
        · exact h.world
        · rw [filterMap_lost_of_some hlost, List.append_assoc, ← List.append_assoc]
          apply ((h.cursors.cons _).trans _)
          rw [← List.append_assoc]
          exact List.perm_middle.symm
        · exact h.opened.1
        · exact h.opened.2
        · exact ⟨txn, htxn, hro⟩
  | @stepped i key value _ iter iter' step hhas hmoves =>
      constructor
      · rw [List.length_set]
        exact h.world
      · rw [filterMap_lost_of_none rfl, map_id_set hhas hmoves.cursor.1]
        exact h.cursors
      · exact h.nodup
      · exact h.fresh
      · exact ⟨txn, htxn, hro⟩
  | @destroyed i _ iter hhas =>
      obtain ⟨hi, rfl⟩ := List.getElem?_eq_some_iff.mp hhas
      constructor
      · apply h.release hi
      · rw [filterMap_lost_of_none rfl]
        have hperm := h.cursors.trans
          (((List.getElem_cons_eraseIdx_perm hi).symm.map HedRepoIter.id).append_right _)
        have herase := hperm.erase before.iters[i].id
        rw [List.map_cons, List.cons_append, List.erase_cons_head] at herase
        exact herase
      · apply h.nodup.erase
      · intro id hid
        apply h.fresh id (List.mem_of_mem_erase hid)
      · exact ⟨txn, htxn, hro⟩
  | onRecords hrecorded hworks =>
      constructor
      · exact h.world
      · rw [filterMap_lost_of_none rfl]
        exact h.cursors
      · exact h.nodup
      · exact h.fresh
      · exact ⟨_, rfl, hro⟩

/-- If nothing fails, the creation of an iterator loses its cursor exactly for an empty table. -/
def IterInvocation.LosesIfEmpty (e : IterInvocation) : Prop :=
  ∀ table txn, e.op = .hedRepoCreateIter table → e.before.repo.txn = some txn →
    txn.content.Has table → LmdbSucceeds e.trace → ¬ MallocFails e.trace →
    (e.lost ≠ none ↔ txn.tableEntries table = [])

theorem Accounts.losesIfEmpty (h : Accounts s₀ es s) (hreads : Reads repo3pc s e s') :
  e.LosesIfEmpty
  := by
  obtain ⟨txn, htxn, hro⟩ := h.txn
  obtain ⟨before, op, trace, result, after⟩ := e
  obtain ⟨hbefore, heffect⟩ := hreads.effect htxn hro
  obtain rfl : before = s := hbefore
  intro table txn' hop htxn' hhas hsucceeds hmalloc
  obtain rfl := Option.some.inj (htxn.symm.trans htxn')
  cases heffect with
  | created hfirst =>
      cases hop
      apply iff_of_false
      · intro hlost
        exact hlost rfl
      · intro hempty
        rw [hempty] at hfirst
        cases hfirst
  | uncreated hcause =>
      cases hop
      obtain ⟨hempty, hopens⟩ := hcause hsucceeds hmalloc hhas
      apply iff_of_true _ hempty
      simp [IterInvocation.lost, hopens]
  | stepped hhas' hmoves => cases hop
  | destroyed hhas' => cases hop
  | onRecords hrecorded hworks => cases hop

/-- A client of iterators that has none yet, in a transaction that accepts writes.  Other cursors
may be open. -/
structure Reader.Begins (s : Reader) : Prop where
  iters : s.iters = []
  txn : ∃ txn, s.repo.txn = some txn ∧ txn.readonly = false
  nodup : s.world.2.live.Nodup
  fresh : ∀ id ∈ s.world.2.live, id < s.world.2.next

theorem Reader.Begins.accounts (h : s.Begins) :
  Accounts s [] s
  := by
  constructor
  · rw [h.iters]
    rfl
  · rw [h.iters]
    exact List.Perm.refl _
  · exact h.nodup
  · exact h.fresh
  · exact h.txn

/-- Whatever a client does with iterators and whatever fails, it holds a block of memory and a
cursor for every iterator that it has and the cursors that creations lost.  A creation for which
nothing fails loses its cursor exactly if its table is empty. -/
theorem run_cursors (h : Run (Reads repo3pc) s es s') (hs : s.Begins) :
  Accounts s es s' ∧ ∀ e ∈ es, e.LosesIfEmpty
  := by
  have hrun := h.along (I := fun es s' => Accounts s es s') (C := fun _ _ => True)
    (P := fun _ e => e.LosesIfEmpty) hs.accounts
  obtain ⟨haccounts, hloses⟩ := hrun
    (fun _ _ _ _ hacc hreads _ => ⟨hacc.step hreads, hacc.losesIfEmpty hreads⟩)
    (along_iff_forall_mem.mpr fun _ _ => trivial)
  exact ⟨haccounts, along_iff_forall_mem.mp hloses⟩

end Accounts

/-- A client without iterators, in a transaction with a table of three records and an empty
one. -/
def Reader.threeRecords : Reader where
  repo := { threeRecordsRepo with
    txn := some (threeRecordsTxn.withContent (Hed.threeRecords.put [0x65] ∅)) }
  iters := []
  world := (⟨none, none, [], false, 2⟩, ⟨[], 0⟩)

theorem Reader.threeRecords_begins :
  threeRecords.Begins
  := ⟨rfl, ⟨_, rfl, rfl⟩, List.nodup_nil, by rintro id ⟨⟩⟩

/-- An iterator for the three records, another one for the empty table, a step, an update and the
end of the iterator. -/
def losingScript : List (IterOp × List Fate) :=
  [(.hedRepoCreateIter [0x74], []), (.hedRepoCreateIter [0x65], []), (.hedRepoStep 0 true true, []),
    (.onRecords (.hedRepoUpdate [0x74] [2] [9]), []), (.hedRepoDestroyIter 0, [])]

/-- The run of that script. -/
def losingRun : List IterInvocation × Reader :=
  (Reader.threeRecords.play true losingScript).get rfl

theorem play_losingScript :
  Reader.threeRecords.play true losingScript = some losingRun
  := (Option.some_get _).symm

/-- Nothing is left but the cursor of the iterator for the empty table. -/
theorem run_cursors_losing :
  (Accounts Reader.threeRecords losingRun.1 losingRun.2
      ∧ ∀ e ∈ losingRun.1, e.LosesIfEmpty)
    ∧ losingRun.2.world = (Reader.threeRecords.world.1, ⟨[1], 2⟩)
  := by
  constructor
  · exact run_cursors (Reader.run_play play_losingScript) Reader.threeRecords_begins
  · decide +kernel

end Hed
