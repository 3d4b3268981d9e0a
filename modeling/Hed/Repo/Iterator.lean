import Hed.Lmdb.Cursor
import Hed.Repo.Transaction

/-!
# Iterating over a table

The functions of `repo.c` on iterators, and a caller that walks through a table with them.
`hed_repo_step` reads the entry that the cursor is on and moves the cursor ahead of the caller,
so that the caller can delete what it was just given.
-/

namespace Hed

open Program

/-- A `struct hed_repo_iter`, without its pointer to the repository, which nothing reads. -/
structure HedRepoIter where
  cursor : Cursor
  deriving DecidableEq

def hedRepoCreateIter (repo : HedRepo) (table : Bytes) :
    Program cursorCalls (Option HedRepoIter × HedRepo) := do
  match ← (repoDbiOpen repo table 0).inl with
  | .error _ => pure (none, repo)
  | .ok (dbi, txn) => do
      let iter ← malloc.inl
      if iter = false then pure (none, { repo with txn := some txn })
      else do
        match ← mdbCursorOpen txn dbi with
        | .error _ => do
            free
            pure (none, { repo with txn := some txn })
        | .ok cursor => do
            match ← mdbCursorGet txn cursor .first with
            | .error _ => do
                free
                pure (none, { repo with txn := some txn })
            | .ok (_, cursor) => pure (some ⟨cursor⟩, { repo with txn := some txn })

def hedRepoDestroyIter (iter : HedRepoIter) : Program cursorCalls Unit := do
  mdbCursorClose iter.cursor
  free

/-- What `hed_repo_step` returns, and the key and the value that it stores, if it does. -/
structure Step where
  ret : ℤ
  key : Option Bytes
  value : Option Bytes
  deriving DecidableEq

/-- `hed_repo_step`; `key` and `value` say which of the two its caller has pointers for. -/
def hedRepoStep (repo : HedRepo) (iter : HedRepoIter) (key value : Bool) :
    Program cursorCalls (Step × HedRepoIter) := do
  require (key = true ∨ value = true)
  let txn ← demand repo.txn
  match ← mdbCursorGet txn iter.cursor .getCurrent with
  | .error _ => pure (⟨-EINVAL.code, none, none⟩, iter)
  | .ok ((idx, content), cursor) => do
      let k := if key = true then some idx else none
      let v := if value = true then some content else none
      match ← mdbCursorGet txn cursor .next with
      | .error e =>
          if e = MDB_NOTFOUND then pure (⟨0, k, v⟩, ⟨cursor⟩)
          else pure (⟨-EINVAL.code, k, v⟩, ⟨cursor⟩)
      | .ok (_, cursor) => pure (⟨EAGAIN.code, k, v⟩, ⟨cursor⟩)

/-! ### A caller -/

/-- How the caller ends: it got no iterator, it gave up, or it got a result other than
`EAGAIN`, after these steps. -/
inductive Walk where
  | null
  | unfinished
  | finished (steps : List Step)
  deriving DecidableEq

section Caller

variable (choose : List Step → Bool) (table : Bytes)

/-- Delete the record of the last step, if the caller chooses to, given all steps until now;
`hed_repo_del` asserts that the key is not empty. -/
def removeChosen (repo : HedRepo) (steps : List Step) (key : Option Bytes) :
    Program cursorCalls HedRepo :=
  match key with
  | none => pure repo
  | some key =>
      if choose steps = true ∧ key ≠ [] then do
        let ret ← (hedRepoDel repo table key).inl
        pure ret.2
      else pure repo

/-- Step until the result is not `EAGAIN`, but not more often than `fuel` says. -/
def walk : ℕ → HedRepo → HedRepoIter → List Step → Program cursorCalls (Walk × HedRepoIter)
  | 0, _, iter, _ => pure (.unfinished, iter)
  | fuel + 1, repo, iter, steps => do
      let ret ← hedRepoStep repo iter true true
      let repo ← removeChosen choose table repo (steps ++ [ret.1]) ret.1.key
      if ret.1.ret = EAGAIN.code then walk fuel repo ret.2 (steps ++ [ret.1])
      else pure (.finished (steps ++ [ret.1]), ret.2)

/-- Create an iterator, walk through the table with it, and destroy it. -/
def walkThrough (fuel : ℕ) (repo : HedRepo) : Program cursorCalls Walk := do
  let ret ← hedRepoCreateIter repo table
  match ret.1 with
  | none => pure .null
  | some iter => do
      let ret ← walk choose table fuel ret.2 iter []
      hedRepoDestroyIter ret.2
      pure ret.1

end Caller

/-- The steps that deliver some entries: all but the last one say that there are more. -/
def deliveries : List (Bytes × Bytes) → List Step
  | [] => []
  | [entry] => [⟨0, some entry.1, some entry.2⟩]
  | entry :: entry' :: rest =>
      ⟨EAGAIN.code, some entry.1, some entry.2⟩ :: deliveries (entry' :: rest)

theorem map_key_value_deliveries (ℓ : List (Bytes × Bytes)) :
  (deliveries ℓ).map (fun step => (step.key, step.value))
    = ℓ.map (fun entry => (some entry.1, some entry.2))
  := by
  induction ℓ with
  | nil => rfl
  | cons entry rest ih =>
      cases rest with
      | nil => rfl
      | cons entry' rest =>
          rw [deliveries, List.map_cons, ih]
          rfl

theorem map_ret_deliveries {ℓ : List (Bytes × Bytes)} (h : ℓ ≠ []) :
  (deliveries ℓ).map Step.ret = List.replicate (ℓ.length - 1) EAGAIN.code ++ [0]
  := by
  induction ℓ with
  | nil => contradiction
  | cons entry rest ih =>
      cases rest with
      | nil => rfl
      | cons entry' rest =>
          rw [deliveries, List.map_cons, ih (List.cons_ne_nil _ _)]
          rfl

/-! ### What the calls find -/

/-- The entries of the table of a transaction. -/
def Txn.tableEntries (txn : Txn) (table : Bytes) : List (Bytes × Bytes) :=
  ((txn.content.get table).getD ∅).entries

section Cursor

variable {txn : Txn} {table : Bytes} {ℓ rest : List (Bytes × Bytes)} {entry : Bytes × Bytes}
  {cursor : Cursor}

theorem cursorGet_first (hdbi : cursor.dbi = table) :
  txn.cursorGet cursor .first = cursor.move (txn.tableEntries table).head?
  := by
  rw [Txn.cursorGet, hdbi]
  rfl

variable (h : txn.tableEntries table = ℓ ++ entry :: rest) (hdbi : cursor.dbi = table)
  (hkey : cursor.key = some entry.1)

include h hdbi hkey

theorem cursorGet_getCurrent :
  txn.cursorGet cursor .getCurrent = .ok (entry, cursor)
  := by
  obtain ⟨id, dbi, key⟩ := cursor
  subst hdbi hkey
  have hget : ((txn.content.get dbi).getD ∅).get entry.1 = some entry.2 :=
    OrderedMap.get_of_entries h
  simp only [Txn.cursorGet, hget]
  rfl

theorem cursorGet_next :
  txn.cursorGet cursor .next = cursor.move rest.head?
  := by
  obtain ⟨id, dbi, key⟩ := cursor
  subst hdbi hkey
  have hnext : ((txn.content.get dbi).getD ∅).next entry.1 = rest.head? :=
    OrderedMap.next_of_entries h
  simp only [Txn.cursorGet, hnext]

end Cursor

/-! ### One step -/

/-- A repository in a transaction. -/
structure InTxn (repo : HedRepo) (txn : Txn) : Prop where
  env : repo.env ≠ none
  txn : repo.txn = some txn

/-- The cursor of an iterator is on the first of the entries that are left of its table. -/
structure OnFirst (txn : Txn) (table : Bytes) (iter : HedRepoIter) (left : List (Bytes × Bytes)) :
    Prop where
  entries : ∃ ℓ, txn.tableEntries table = ℓ ++ left
  dbi : iter.cursor.dbi = table
  key : iter.cursor.key = left.head?.map Prod.fst

section Steps

variable {repo : HedRepo} {txn : Txn} {table : Bytes} {iter : HedRepoIter}
  {rest : List (Bytes × Bytes)} {entry : Bytes × Bytes} {s : World × Cursors}

/-- A step delivers the entry that the cursor is on, and goes on to the next one. -/
theorem hedRepoStep_spec (htxn : repo.txn = some txn) (h : OnFirst txn table iter (entry :: rest)) :
  wpLmdb (hedRepoStep repo iter true true)
    (fun _ r _ => r.1 = ⟨if rest = [] then 0 else EAGAIN.code, some entry.1, some entry.2⟩
      ∧ (rest ≠ [] → OnFirst txn table r.2 rest)) s
  := by
  obtain ⟨⟨ℓ, hentries⟩, hdbi, hkey⟩ := h
  rw [hedRepoStep, htxn]
  apply wpOn_require_bind handleAll (Or.inl rfl)
  apply wpOn_bind_of handleAll (wpLmdb_mdbCursorGet txn iter.cursor .getCurrent)
  rintro t _ s' rfl
  rw [cursorGet_getCurrent hentries hdbi hkey]
  apply wpOn_bind_of handleAll (wpLmdb_mdbCursorGet txn iter.cursor .next)
  rintro t' _ s'' rfl
  rw [cursorGet_next hentries hdbi hkey]
  cases rest with
  | nil =>
      apply wpOn_done
      use rfl
      intro hne
      contradiction
  | cons entry' rest =>
      apply wpOn_done
      use rfl
      intro _
      exact ⟨⟨ℓ ++ [entry], by simpa using hentries⟩, hdbi, rfl⟩

/-- Whatever the fates, `hed_repo_del` leaves the transaction as it is or deletes the record. -/
theorem hedRepoDel_txn (htxn : repo.txn = some txn) (key : Bytes) (w : World) :
  wp handle (hedRepoDel repo table key)
    (fun _ r _ => r.2 = repo
      ∨ r.2 = repo.work txn (txn.content.modify table (fun t => t.erase key))) w
  := by
  rw [hedRepoDel, wp_require_bind]
  intro hkey
  apply wp_repoDbiOpen_bind htxn w table
  · intro _ t _
    rw [wp_bind, wp_mdbDel]
    constructor
    · rcases hdel : txn.del table key with e | txn'
      · left
        apply HedRepo.work_self htxn
      · right
        rw [Txn.del, if_neg hkey] at hdel
        split_ifs at hdel with hro hrec
        cases hdel
        rfl
    · intro e left
      left
      apply HedRepo.work_self htxn
  · intro e t _
    left
    rfl

/-- Deleting the entry that was delivered leaves those that are still to come. -/
theorem tableEntries_erase {ℓ : List (Bytes × Bytes)}
    (h : txn.tableEntries table = ℓ ++ entry :: rest) :
  (txn.withContent (txn.content.modify table (fun t => t.erase entry.1))).tableEntries table
    = ℓ ++ rest
  := by
  have hget : (txn.content.modify table (fun t => t.erase entry.1)).get table
      = some (((txn.content.get table).getD ∅).erase entry.1) := OrderedMap.get_put_self _ _ _
  apply Eq.trans (congrArg (fun t => (Option.getD t ∅).entries) hget)
  apply OrderedMap.entries_erase_of_entries h

theorem removeChosen_spec (choose : List Step → Bool) (hrepo : InTxn repo txn)
    {ℓ : List (Bytes × Bytes)} (h : txn.tableEntries table = ℓ ++ entry :: rest)
    (steps : List Step) :
  wp handleAll (removeChosen choose table repo steps (some entry.1))
    (fun _ repo' _ => ∃ txn', InTxn repo' txn'
      ∧ ∃ ℓ', txn'.tableEntries table = ℓ' ++ rest) s
  := by
  have hsame : ∃ txn', InTxn repo txn' ∧ ∃ ℓ', txn'.tableEntries table = ℓ' ++ rest :=
    ⟨txn, hrepo, ℓ ++ [entry], by simpa using h⟩
  simp only [removeChosen]
  split_ifs with hchosen
  · obtain ⟨w, cursors⟩ := s
    rw [wp_bind, wp_inl]
    apply wp_mono handle (hedRepoDel_txn hrepo.txn entry.1 w)
    rintro t ⟨ret, _⟩ w' (rfl | rfl)
    · exact hsame
    · use txn.withContent (txn.content.modify table (fun t => t.erase entry.1))
      use ⟨hrepo.env, rfl⟩, ℓ
      apply tableEntries_erase h
  · exact hsame

end Steps

/-! ### The whole walk -/

section Walking

variable {repo : HedRepo} {txn : Txn} {table : Bytes} {iter : HedRepoIter} {s : World × Cursors}

theorem deliveries_cons (entry : Bytes × Bytes) (rest : List (Bytes × Bytes)) :
  deliveries (entry :: rest)
    = ⟨if rest = [] then 0 else EAGAIN.code, some entry.1, some entry.2⟩ :: deliveries rest
  := by
  cases rest with
  | nil => rfl
  | cons entry' rest => rfl

/-- From the first of the entries that are left, the walk delivers them all. -/
theorem walk_spec (choose : List Step → Bool) {left : List (Bytes × Bytes)} (hleft : left ≠ [])
    (hrepo : InTxn repo txn) (h : OnFirst txn table iter left) {fuel : ℕ}
    (hfuel : left.length ≤ fuel) (steps : List Step) :
  wpLmdb (walk choose table fuel repo iter steps)
    (fun _ r _ => r.1 = .finished (steps ++ deliveries left)) s
  := by
  induction left generalizing repo txn iter s fuel steps with
  | nil => contradiction
  | cons entry rest ih =>
      obtain ⟨fuel, rfl⟩ : ∃ n, fuel = n + 1 := ⟨fuel - 1, by simp at hfuel; omega⟩
      obtain ⟨ℓ, hentries⟩ := h.entries
      apply wpOn_bind_of handleAll (hedRepoStep_spec hrepo.txn h)
      rintro t ⟨_, iter'⟩ s' ⟨rfl, hnext⟩
      apply wpOn_bind_of handleAll
        (wpOn_of_wp handleAll (removeChosen_spec choose hrepo hentries _))
      rintro t' repo' s'' ⟨txn', hrepo', ℓ', hentries'⟩
      rw [deliveries_cons]
      rcases eq_or_ne rest [] with rfl | hrest
      · apply wpOn_done
        rfl
      · have hfirst : OnFirst txn' table iter' rest :=
          ⟨⟨ℓ', hentries'⟩, (hnext hrest).dbi, (hnext hrest).key⟩
        have hwalk (steps' : List Step) := ih (s := s'') hrest hrepo' hfirst
          (Nat.le_of_succ_le_succ hfuel) steps'
        simp only [if_neg hrest, if_true]
        apply wpOn_mono handleAll (hwalk _)
        intro t'' r s''' hr
        rw [hr, List.append_assoc]
        rfl

end Walking

/-! ### Creating an iterator -/

/-- The allocation in a trace was made to fail. -/
def MallocFails (t : List (Event cursorCalls Fate)) : Prop :=
  ∃ e ∈ t, e.call = .inl .malloc ∧ e.fate ≠ .ok

section Creation

variable {repo : HedRepo} {txn : Txn} {table : Bytes} {s : World × Cursors}

theorem wpLmdb_repoDbiOpen (hrepo : InTxn repo txn) (hhas : txn.content.Has table) :
  wpLmdb (repoDbiOpen repo table 0).inl (fun _ ret _ => ret = .ok (table, txn)) s
  := by
  obtain ⟨w, cursors⟩ := s
  apply wp_inl.mpr
  simp only [repoDbiOpen, wp_demand_bind, wp_mdbDbiOpen, hrepo.txn]
  rintro env - _ ⟨⟩
  constructor
  · intro _
    apply Txn.dbiOpen_of_has hhas
  · intro e left ht
    have hok := ht _ List.mem_cons_self
    contradiction

theorem wpLmdb_malloc :
  wpLmdb malloc.inl (fun t ret _ => ret = true ∨ (ret = false ∧ MallocFails t)) s
  := by
  obtain ⟨w, cursors⟩ := s
  apply wp_inl.mpr
  rw [wp_malloc]
  constructor
  · intro _
    left
    rfl
  · intro e left _
    right
    use rfl, ⟨.inl .malloc, .fail e left⟩, List.mem_cons_self, rfl
    rintro ⟨⟩

/-- An iterator is created on the first entry of the table, unless it is empty or the
allocation fails. -/
theorem hedRepoCreateIter_spec (hrepo : InTxn repo txn) (hhas : txn.content.Has table) :
  wpLmdb (hedRepoCreateIter repo table)
    (fun t r _ => (r.1 = none ∧ (txn.tableEntries table = [] ∨ MallocFails t))
      ∨ ∃ iter, r = (some iter, repo) ∧ txn.tableEntries table ≠ []
        ∧ OnFirst txn table iter (txn.tableEntries table)) s
  := by
  have hself : { repo with txn := some txn } = repo := HedRepo.work_self hrepo.txn
  apply wpOn_bind_of handleAll (wpLmdb_repoDbiOpen hrepo hhas)
  rintro t _ s' rfl
  apply wpOn_bind_of handleAll wpLmdb_malloc
  rintro t' _ s'' (rfl | ⟨rfl, hmalloc⟩)
  · apply wpOn_bind_of handleAll (wpLmdb_mdbCursorOpen txn table)
    rintro u _ s rfl
    apply wpOn_bind_of handleAll (wpLmdb_mdbCursorGet txn _ .first)
    rintro u' _ s rfl
    rw [cursorGet_first rfl]
    rcases hentries : txn.tableEntries table with _ | ⟨entry, rest⟩
    · intro f _
      left
      use rfl
      left
      rfl
    · apply wpOn_done
      right
      use ⟨⟨s''.2.next, table, some entry.1⟩⟩, congrArg _ hself, List.cons_ne_nil _ _
      exact ⟨⟨[], hentries⟩, rfl, rfl⟩
  · apply wpOn_done
    left
    use rfl
    right
    obtain ⟨e, he, hfail⟩ := hmalloc
    rw [List.append_nil]
    exact ⟨e, List.mem_append_right t he, hfail⟩

end Creation

/-! ### The caller does not halt -/

section Safe

variable {repo : HedRepo} {txn : Txn} (hrepo : InTxn repo txn)

include hrepo

theorem safe_hedRepoDel (table : Bytes) {key : Bytes} (hkey : key ≠ []) (w : World) :
  Safe handle (hedRepoDel repo table key) w
  := by
  obtain ⟨env, henv⟩ := Option.ne_none_iff_exists'.mp hrepo.env
  apply safe_require_bind handle hkey
  apply safe_bind handle (safe_repoDbiOpen henv hrepo.txn w table 0)
  apply wp_of_forall
  rintro t (e | ⟨dbi, txn'⟩) w'
  · trivial
  · apply safe_bind handle (safe_ask handle _ _)
    apply wp_of_forall
    rintro t' (e | txn'') w''
    · trivial
    · trivial

theorem safe_hedRepoCreateIter (table : Bytes) (s : World × Cursors) :
  Safe handleAll (hedRepoCreateIter repo table) s
  := by
  obtain ⟨env, henv⟩ := Option.ne_none_iff_exists'.mp hrepo.env
  obtain ⟨w, cursors⟩ := s
  apply safe_bind handleAll (safe_inl.mpr (safe_repoDbiOpen henv hrepo.txn w table 0))
  apply wp_of_forall
  rintro t (e | ⟨dbi, txn'⟩) ⟨w', cursors'⟩
  · trivial
  · apply safe_bind handleAll (safe_inl.mpr (safe_ask handle _ _))
    apply wp_of_forall
    rintro t (_ | _) s
    · trivial
    · apply safe_bind handleAll (safe_ask handleAll _ _)
      apply wp_of_forall
      rintro t (e | cursor) s
      · intro f
        trivial
      · apply safe_bind handleAll (safe_ask handleAll _ _)
        apply wp_of_forall
        rintro t (e | ⟨_, cursor'⟩) s
        · intro f
          trivial
        · trivial

/-- Whatever the fates, the repository is in a transaction afterwards. -/
theorem hedRepoCreateIter_inTxn (table : Bytes) (s : World × Cursors) :
  wp handleAll (hedRepoCreateIter repo table) (fun _ r _ => ∃ txn', InTxn r.2 txn') s
  := by
  apply wp_bind_of_forall
  rintro t (e | ⟨dbi, txn'⟩) s
  · exact ⟨txn, hrepo⟩
  · have hrepo' : InTxn { repo with txn := some txn' } txn' := ⟨hrepo.env, rfl⟩
    apply wp_bind_of_forall
    rintro t (_ | _) s
    · exact ⟨txn', hrepo'⟩
    · apply wp_bind_of_forall
      rintro t (e | cursor) s
      · intro f
        exact ⟨txn', hrepo'⟩
      · apply wp_bind_of_forall
        rintro t (e | ⟨_, cursor'⟩) s
        · intro f
          exact ⟨txn', hrepo'⟩
        · exact ⟨txn', hrepo'⟩

theorem safe_hedRepoStep (iter : HedRepoIter) (s : World × Cursors) :
  Safe handleAll (hedRepoStep repo iter true true) s
  := by
  rw [hedRepoStep, hrepo.txn]
  apply safe_require_bind handleAll (Or.inl rfl)
  apply safe_bind handleAll (safe_ask handleAll _ _)
  apply wp_of_forall
  rintro t (e | ⟨⟨idx, content⟩, cursor⟩) s'
  · trivial
  · apply safe_bind handleAll (safe_ask handleAll _ _)
    apply wp_of_forall
    rintro t' (e | ⟨_, cursor'⟩) s''
    · rcases eq_or_ne e MDB_NOTFOUND with he | he
      · simp only [if_pos he]
        trivial
      · simp only [if_neg he]
        trivial
    · trivial

theorem safe_removeChosen (choose : List Step → Bool) (table : Bytes) (steps : List Step)
    (key : Option Bytes) (s : World × Cursors) :
  Safe handleAll (removeChosen choose table repo steps key) s
  := by
  obtain ⟨w, cursors⟩ := s
  cases key with
  | none => trivial
  | some key =>
      simp only [removeChosen]
      split_ifs with hchosen
      · apply safe_bind handleAll (safe_inl.mpr (safe_hedRepoDel hrepo table hchosen.2 w))
        apply wp_of_forall
        intro t r s'
        trivial
      · trivial

/-- After the caller has deleted what it chooses to, the repository still is in a
transaction. -/
theorem removeChosen_inTxn (choose : List Step → Bool) (table : Bytes) (steps : List Step)
    (key : Option Bytes) (s : World × Cursors) :
  wp handleAll (removeChosen choose table repo steps key)
    (fun _ repo' _ => ∃ txn', InTxn repo' txn') s
  := by
  obtain ⟨w, cursors⟩ := s
  cases key with
  | none => exact ⟨txn, hrepo⟩
  | some key =>
      simp only [removeChosen]
      split_ifs with hchosen
      · rw [wp_bind, wp_inl]
        apply wp_mono handle (hedRepoDel_txn hrepo.txn key w)
        rintro t ⟨ret, _⟩ w' (rfl | rfl)
        · exact ⟨txn, hrepo⟩
        · exact ⟨_, hrepo.env, rfl⟩
      · exact ⟨txn, hrepo⟩

end Safe

theorem safe_walk (choose : List Step → Bool) (table : Bytes) (fuel : ℕ) {repo : HedRepo}
    {txn : Txn} (hrepo : InTxn repo txn) (iter : HedRepoIter) (steps : List Step)
    (s : World × Cursors) :
  Safe handleAll (walk choose table fuel repo iter steps) s
  := by
  induction fuel generalizing repo txn iter steps s with
  | zero => trivial
  | succ fuel ih =>
      apply safe_bind handleAll (safe_hedRepoStep hrepo iter s)
      apply wp_of_forall
      rintro t ⟨step, iter'⟩ s'
      apply safe_bind handleAll (safe_removeChosen hrepo choose table _ step.key s')
      apply wp_mono handleAll (removeChosen_inTxn hrepo choose table _ step.key s')
      rintro t' repo' s'' ⟨txn', hrepo'⟩
      dsimp only
      split_ifs
      · apply ih hrepo'
      · trivial

theorem safe_walkThrough (choose : List Step → Bool) (table : Bytes) (fuel : ℕ) {repo : HedRepo}
    {txn : Txn} (hrepo : InTxn repo txn) (s : World × Cursors) :
  Safe handleAll (walkThrough choose table fuel repo) s
  := by
  apply safe_bind handleAll (safe_hedRepoCreateIter hrepo table s)
  apply wp_mono handleAll (hedRepoCreateIter_inTxn hrepo table s)
  rintro t ⟨_ | iter, repo'⟩ s' ⟨txn', hrepo'⟩
  · trivial
  · apply safe_bind handleAll (safe_walk choose table fuel hrepo' iter [] s')
    apply wp_of_forall
    intro t' r s'' f f'
    trivial

/-! ### Every entry once -/

/-- What a walk comes to: there is no iterator for an empty table, or without memory; otherwise
the steps deliver the entries, in their order and each once, and all of them but the last say
that there are more. -/
def VisitsOnce (entries : List (Bytes × Bytes)) (t : List (Event cursorCalls Fate)) (r : Walk) :
    Prop :=
  (r = .null ∧ (entries = [] ∨ MallocFails t))
    ∨ (entries ≠ [] ∧ ∃ steps, r = .finished steps
      ∧ steps.map (fun step => (step.key, step.value))
        = entries.map (fun entry => (some entry.1, some entry.2))
      ∧ steps.map Step.ret = List.replicate (entries.length - 1) EAGAIN.code ++ [0])

theorem walkThrough_spec (choose : List Step → Bool) {table : Bytes} {repo : HedRepo} {txn : Txn}
    (hrepo : InTxn repo txn) (hhas : txn.content.Has table) {fuel : ℕ}
    (hfuel : (txn.tableEntries table).length ≤ fuel) (s : World × Cursors) :
  wpLmdb (walkThrough choose table fuel repo)
    (fun t r _ => VisitsOnce (txn.tableEntries table) t r) s
  := by
  apply wpOn_bind_of handleAll (hedRepoCreateIter_spec hrepo hhas)
  rintro t ⟨_, _⟩ s' (⟨rfl, hempty⟩ | ⟨iter, ⟨⟩, hne, hfirst⟩)
  · apply wpOn_done
    left
    rw [List.append_nil]
    use rfl, hempty
  · apply wpOn_bind_of handleAll (walk_spec choose hne hrepo hfirst hfuel [])
    rintro t' ⟨_, iter'⟩ s'' rfl f f' _
    right
    use hne, deliveries (txn.tableEntries table), rfl, map_key_value_deliveries _
    apply map_ret_deliveries hne

/-- Walking through a table delivers every entry that it had at the beginning, once and in the
order of the keys, whichever of them are deleted on the way. -/
theorem iteration_visits_once (choose : List Step → Bool) {table : Bytes} {repo : HedRepo}
    {txn : Txn} (hrepo : InTxn repo txn) (hhas : txn.content.Has table) {fuel : ℕ}
    (hfuel : (txn.tableEntries table).length ≤ fuel) (fates : List Fate) (s : World × Cursors) :
  ∃ r, (exec handleAll (walkThrough choose table fuel repo) fates s).value = some r
    ∧ (LmdbSucceeds (exec handleAll (walkThrough choose table fuel repo) fates s).trace
      → VisitsOnce (txn.tableEntries table)
        (exec handleAll (walkThrough choose table fuel repo) fates s).trace r)
  := by
  have hsafe := safe_walkThrough choose table fuel hrepo s
  obtain ⟨r, hr⟩ := (safe_iff_exec handleAll _ _).mp hsafe fates
  have hspec := (wp_iff_exec handleAll _ _ _).mp (walkThrough_spec choose hrepo hhas hfuel s)
  use r, hr, hspec fates r hr

/-- A table of three records, in a transaction. -/
def threeRecords : Content :=
  (∅ : Content).put [0x74] ((((∅ : Table).put [2] [20]).put [1] [10]).put [3] [30])

def threeRecordsTxn : Txn := ⟨1, false, threeRecords⟩

def threeRecordsRepo : HedRepo :=
  { HedRepo.unset with env := some ⟨0, 0⟩, txn := some threeRecordsTxn }

/-- A caller that deletes the first two of the keys that it gets. -/
def deletesTwo (steps : List Step) : Bool := steps.length ≤ 2

theorem iteration_visits_once_threeRecords :
  ∃ steps, (exec handleAll (walkThrough deletesTwo [0x74] 3 threeRecordsRepo) []
      (⟨none, none, [], false, 2⟩, ⟨[], 0⟩)).value = some (.finished steps)
    ∧ steps.map (fun step => (step.key, step.value))
      = [(some [1], some [10]), (some [2], some [20]), (some [3], some [30])]
    ∧ steps.map Step.ret = [11, 11, 0]
  := by
  have hrepo : InTxn threeRecordsRepo threeRecordsTxn := ⟨Option.some_ne_none _, rfl⟩
  have hhas : threeRecordsTxn.content.Has [0x74] := by decide
  have hfates := exec_nil handleAll (walkThrough deletesTwo [0x74] 3 threeRecordsRepo)
    (⟨none, none, [], false, 2⟩, ⟨[], 0⟩)
  obtain ⟨r, hr, hvisits⟩ := iteration_visits_once deletesTwo hrepo hhas (le_refl 3) []
    (⟨none, none, [], false, 2⟩, ⟨[], 0⟩)
  rcases hvisits (lmdbSucceeds_of_ok hfates) with ⟨-, hempty | hmalloc⟩ | ⟨-, steps, rfl, hsteps⟩
  · exact absurd hempty (by decide)
  · obtain ⟨e, he, -, hfail⟩ := hmalloc
    exact absurd (hfates e he) hfail
  · use steps, hr, hsteps.1, hsteps.2

end Hed
