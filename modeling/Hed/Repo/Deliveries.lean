import Hed.Repo.Cursors

/-!
# What iterators deliver

A client of iterators that deletes no record that one of its iterators is on.  Whatever else it
does between the steps of an iterator, the steps deliver records that are in the table then, and
their keys increase.  When a step says that there are no more, all the records that were in the
table since the iterator was created have been delivered.
-/

namespace Hed

open Program

/-- The client has an iterator with a cursor. -/
def Reader.Iterates (s : Reader) (id : ℕ) : Prop := ∃ iter ∈ s.iters, iter.id = id

/-- The transaction of the client has a record. -/
def Reader.Has (s : Reader) (table key : Bytes) : Prop :=
  ∃ txn, s.repo.txn = some txn ∧ txn.content.record table key ≠ none

/-- The record that a call deletes. -/
def IterOp.deletes : IterOp → Option (Bytes × Bytes)
  | .onRecords (.hedRepoDel table key) => some (table, key)
  | _ => none

namespace IterInvocation

variable (e : IterInvocation)

/-- The call steps an iterator. -/
def Steps (iter : HedRepoIter) (key value : Bool) (step : Step) : Prop :=
  ∃ i, e.op = .hedRepoStep i key value ∧ e.before.iters[i]? = some iter ∧ e.result = .step step

/-- The call delivers the record of a key to the iterator with a cursor. -/
def Visits (id : ℕ) (k : Bytes) : Prop :=
  ∃ iter key value step, e.Steps iter key value step ∧ iter.id = id ∧ iter.cursor.key = some k
    ∧ step.ret ≠ -EINVAL.code

/-- The call deletes no record that an iterator is on. -/
def Spares : Prop :=
  ∀ iter ∈ e.before.iters, ∀ k ∈ iter.cursor.key, e.op.deletes ≠ some (iter.cursor.dbi, k)

instance : Decidable e.Spares :=
  inferInstanceAs (Decidable (∀ iter ∈ e.before.iters, ∀ k ∈ iter.cursor.key, _ ≠ _))

/-- A step delivers the record that its iterator is on, unless LMDB fails. -/
def Delivers : Prop :=
  ∀ iter key value step, e.Steps iter key value step →
    (LmdbSucceeds e.trace → step.ret ≠ -EINVAL.code)
      ∧ (step.ret ≠ -EINVAL.code → ∃ txn k v, e.before.repo.txn = some txn
        ∧ iter.cursor.key = some k ∧ txn.content.record iter.cursor.dbi k = some v
        ∧ step.key = (if key = true then some k else none)
        ∧ step.value = if value = true then some v else none)

/-- After a step of the same iterator, the key does not decrease, and it increases if there was
more. -/
def Ascends (es : List IterInvocation) (e : IterInvocation) : Prop :=
  ∀ e' ∈ es, ∀ iter' key' value' step' iter key value step k' k,
    e'.Steps iter' key' value' step' → e.Steps iter key value step → iter'.id = iter.id →
    iter'.cursor.key = some k' → iter.cursor.key = some k →
    k' ≤ k ∧ (step'.ret = EAGAIN.code → k' < k)

/-- When a step says that there are no more, every record has been delivered that was in the table
whenever the client had the iterator. -/
def Covers (es : List IterInvocation) (e : IterInvocation) : Prop :=
  ∀ iter key value step, e.Steps iter key value step → LmdbSucceeds e.trace → step.ret = 0 →
    ∀ k, (∀ e' ∈ es ++ [e], e'.before.Iterates iter.id → e'.before.Has iter.cursor.dbi k) →
      ∃ e' ∈ es ++ [e], e'.Visits iter.id k

end IterInvocation

/-! ### Functions on records -/

/-- A function on records leaves the records that it does not delete. -/
theorem Works.record_ne_none {c c' : Content} {op : Op} {r : Result} (h : Works c (op, r) c')
    (hrecorded : op.recorded = true) {table key : Bytes} (hop : op ≠ .hedRepoDel table key)
    (hrecord : c.record table key ≠ none) :
  c'.record table key ≠ none
  := by
  cases h with
  | read asks found => exact hrecord
  | counted count => exact hrecord
  | @wrote _ op f write content =>
      cases op with
      | hedRepoUpdate table' key' value =>
          obtain rfl := Option.some.inj write
          rw [Content.record_update content]
          split_ifs with h
          · exact Option.some_ne_none value
          · exact hrecord
      | hedRepoDel table' key' =>
          obtain rfl := Option.some.inj write
          have hne : ¬(table = table' ∧ key = key') := by
            rintro ⟨rfl, rfl⟩
            exact hop rfl
          rw [Content.record_delete_eq content, if_neg hne]
          exact hrecord
      | hedRepoSetVersion value =>
          obtain rfl := Option.some.inj write
          rw [Content.record_update content]
          split_ifs with h
          · exact Option.some_ne_none value
          · exact hrecord
      | _ => cases write
  | unwritten write ret_ne => exact hrecord
  | numbered record length content =>
      rw [Content.record_update content]
      split_ifs with h
      · exact Option.some_ne_none _
      · exact hrecord
  | unnumbered => exact hrecord
  | opened content => cases hrecorded
  | reloaded => cases hrecorded

/-! ### One iterator -/

/-- An iterator that a client has, after some calls: it is on a record, its earlier steps were on
lesser keys, and what was in the table all the time has been delivered or is still to come. -/
structure Follows (es : List IterInvocation) (s : Reader) (iter : HedRepoIter) : Prop where
  on : ∃ k, iter.cursor.key = some k ∧ s.Has iter.cursor.dbi k
  passed : ∀ e ∈ es, ∀ iter' key value step k' k, e.Steps iter' key value step →
    iter'.id = iter.id → iter'.cursor.key = some k' → iter.cursor.key = some k →
    k' ≤ k ∧ (step.ret = EAGAIN.code → k' < k)
  left : ∀ k₀ k, iter.cursor.key = some k₀ →
    (∀ e ∈ es, e.before.Iterates iter.id → e.before.Has iter.cursor.dbi k) →
    s.Has iter.cursor.dbi k → (∃ e ∈ es, e.Visits iter.id k) ∨ k₀ ≤ k

section Follows

variable {es : List IterInvocation} {e : IterInvocation} {s s' : Reader} {iter : HedRepoIter}

/-- What is left after one more call, wherever the iterator was before it. -/
theorem Follows.left_snoc (h : Follows es s iter) (hiter : iter ∈ s.iters)
    (hbefore : e.before = s) {k₀ k : Bytes} (hkey₀ : iter.cursor.key = some k₀)
    (hall : ∀ e' ∈ es ++ [e], e'.before.Iterates iter.id → e'.before.Has iter.cursor.dbi k) :
  (∃ e' ∈ es ++ [e], e'.Visits iter.id k) ∨ k₀ ≤ k
  := by
  have hs : s.Has iter.cursor.dbi k := by
    rw [← hbefore]
    apply hall e (List.mem_append_right es List.mem_cons_self)
    rw [hbefore]
    exact ⟨iter, hiter, rfl⟩
  rcases h.left k₀ k hkey₀ (fun e' he' => hall e' (List.mem_append_left _ he')) hs
    with ⟨e', he', hvisits⟩ | hle
  · left
    exact ⟨e', List.mem_append_left _ he', hvisits⟩
  · right
    exact hle

/-- A call that is no step of the iterator, and leaves the record that it is on. -/
theorem Follows.keep (h : Follows es s iter) (hiter : iter ∈ s.iters) (hbefore : e.before = s)
    (hstep : ∀ iter' key value step, e.Steps iter' key value step → iter'.id ≠ iter.id)
    (hhas : ∀ k, iter.cursor.key = some k → s.Has iter.cursor.dbi k → s'.Has iter.cursor.dbi k) :
  Follows (es ++ [e]) s' iter
  := by
  constructor
  · obtain ⟨k, hkey, hrecord⟩ := h.on
    exact ⟨k, hkey, hhas k hkey hrecord⟩
  · intro e' he' iter' key value step k' k₀ hsteps hid hkey' hkey₀
    rcases List.mem_append.mp he' with he' | he'
    · exact h.passed e' he' iter' key value step k' k₀ hsteps hid hkey' hkey₀
    · obtain rfl := List.mem_singleton.mp he'
      exact absurd hid (hstep iter' key value step hsteps)
  · intro k₀ k' hkey₀ hall _
    exact h.left_snoc hiter hbefore hkey₀ hall

/-- An iterator that is on the first record of its table. -/
theorem Follows.first {txn : Txn} {table : Bytes} {entry : Bytes × Bytes}
    (hnew : ∀ e ∈ es, ∀ iter' key value step, e.Steps iter' key value step → iter'.id ≠ iter.id)
    (hdbi : iter.cursor.dbi = table) (hkey : iter.cursor.key = some entry.1)
    (htxn : s.repo.txn = some txn) (hfirst : (txn.tableEntries table).head? = some entry) :
  Follows es s iter
  := by
  subst hdbi
  obtain ⟨hrecord, hleast⟩ := OrderedMap.first_eq_some hfirst
  constructor
  · refine ⟨entry.1, hkey, txn, htxn, ?_⟩
    rw [Content.record_eq, hrecord]
    exact Option.some_ne_none _
  · intro e he iter' key value step k' k hsteps hid
    exact absurd hid (hnew e he iter' key value step hsteps)
  · intro k₀ k hkey₀ _ hhas
    right
    obtain rfl := Option.some.inj (hkey.symm.trans hkey₀)
    obtain ⟨txn', htxn', hk⟩ := hhas
    obtain rfl := Option.some.inj (htxn.symm.trans htxn')
    obtain ⟨v, hv⟩ := Option.ne_none_iff_exists'.mp hk
    rw [Content.record_eq] at hv
    exact hleast k v hv

theorem IterInvocation.Steps.unique {iter' : HedRepoIter} {key value key' value' : Bool}
    {step step' : Step} (h : e.Steps iter key value step) (h' : e.Steps iter' key' value' step') :
  iter' = iter ∧ key' = key ∧ value' = value ∧ step' = step
  := by
  obtain ⟨i, hop, hiter, hresult⟩ := h
  obtain ⟨i', hop', hiter', hresult'⟩ := h'
  obtain ⟨rfl, rfl, rfl⟩ := IterOp.hedRepoStep.inj (hop.symm.trans hop')
  have hstep := IterResult.step.inj (hresult.symm.trans hresult')
  exact ⟨Option.some.inj (hiter'.symm.trans hiter), rfl, rfl, hstep.symm⟩

section Step

variable (h : Follows es s iter) (hiter : iter ∈ s.iters) (hbefore : e.before = s)
  (hrepo : s'.repo = s.repo) {key value : Bool} {step : Step}
  (hsteps : e.Steps iter key value step)
include h hiter hbefore hrepo hsteps

/-- A step that does not move on. -/
theorem Follows.stay (hret : step.ret ≠ EAGAIN.code) :
  Follows (es ++ [e]) s' iter
  := by
  constructor
  · obtain ⟨k, hkey, txn, htxn, hrecord⟩ := h.on
    exact ⟨k, hkey, txn, hrepo ▸ htxn, hrecord⟩
  · intro e' he' iter' key' value' step' k' k hsteps' hid hkey' hkey
    rcases List.mem_append.mp he' with he' | he'
    · exact h.passed e' he' iter' key' value' step' k' k hsteps' hid hkey' hkey
    · obtain rfl := List.mem_singleton.mp he'
      obtain ⟨rfl, -, -, rfl⟩ := hsteps.unique hsteps'
      obtain rfl := Option.some.inj (hkey.symm.trans hkey')
      use le_refl _
      intro hmore
      contradiction
  · intro k₀ k hkey₀ hall _
    exact h.left_snoc hiter hbefore hkey₀ hall

/-- A step that moves on to the next record. -/
theorem Follows.move {txn : Txn} (htxn : s.repo.txn = some txn) {k : Bytes}
    {entry : Bytes × Bytes} (hkey : iter.cursor.key = some k) (hret : step.ret ≠ -EINVAL.code)
    (hnext : (iter.table txn).next k = some entry) :
  Follows (es ++ [e]) s' ⟨iter.cursor.on entry⟩
  := by
  obtain ⟨hlt, hrecord, hleast⟩ := OrderedMap.next_eq_some hnext
  have htxn' : s'.repo.txn = some txn := hrepo ▸ htxn
  constructor
  · refine ⟨entry.1, rfl, txn, htxn', ?_⟩
    rw [Content.record_eq]
    apply Option.ne_none_iff_exists'.mpr ⟨entry.2, hrecord⟩
  · rintro e' he' iter' key' value' step' k' _ hsteps' hid hkey' ⟨⟩
    rcases List.mem_append.mp he' with he' | he'
    · have hle := (h.passed e' he' iter' key' value' step' k' k hsteps' hid hkey' hkey).1
      exact ⟨(hle.trans_lt hlt).le, fun _ => hle.trans_lt hlt⟩
    · obtain rfl := List.mem_singleton.mp he'
      obtain ⟨rfl, -, -, rfl⟩ := hsteps.unique hsteps'
      obtain rfl := Option.some.inj (hkey.symm.trans hkey')
      exact ⟨hlt.le, fun _ => hlt⟩
  · rintro _ k' ⟨⟩ hall ⟨txn₁, htxn₁, hk'⟩
    obtain rfl := Option.some.inj (htxn'.symm.trans htxn₁)
    rcases h.left_snoc hiter hbefore hkey hall with hvisits | hle
    · left
      exact hvisits
    · rcases hle.eq_or_lt with rfl | hlt'
      · left
        exact ⟨e, List.mem_append_right es List.mem_cons_self, iter, key, value, step, hsteps,
          rfl, hkey, hret⟩
      · right
        obtain ⟨v, hv⟩ := Option.ne_none_iff_exists'.mp hk'
        rw [Content.record_eq] at hv
        exact hleast k' v hv hlt'

end Step

end Follows

/-! ### All iterators -/

/-- What holds of a client after some calls that spare the records its iterators are on. -/
structure Delivering (s₀ : Reader) (es : List IterInvocation) (s : Reader) : Prop
    extends Accounts s₀ es s where
  seen : ∀ e ∈ es, ∀ iter key value step, e.Steps iter key value step → iter.id < s.world.2.next
  follows : ∀ iter ∈ s.iters, Follows es s iter

section Delivering

variable {s₀ s s' : Reader} {es : List IterInvocation} {e : IterInvocation}

/-- The cursors of the iterators of a client are different ones. -/
theorem Accounts.nodup_ids (h : Accounts s₀ es s) :
  (s.iters.map HedRepoIter.id).Nodup
  := (List.nodup_append.mp (h.cursors.nodup_iff.mp h.nodup)).1

theorem Accounts.id_lt (h : Accounts s₀ es s) {iter : HedRepoIter} (hiter : iter ∈ s.iters) :
  iter.id < s.world.2.next
  := by
  apply h.fresh
  apply h.cursors.mem_iff.mpr
  exact List.mem_append_left _ (List.mem_map_of_mem hiter)

/-- An iterator that is not at a place is not the one at that place. -/
theorem mem_set_cases {iters : List HedRepoIter} (hnodup : (iters.map HedRepoIter.id).Nodup)
    {i : ℕ} {iter iter' iter'' : HedRepoIter} (hhas : iters[i]? = some iter)
    (hmem : iter'' ∈ iters.set i iter') :
  iter'' = iter' ∨ (iter'' ∈ iters ∧ iter.id ≠ iter''.id)
  := by
  obtain ⟨hi, rfl⟩ := List.getElem?_eq_some_iff.mp hhas
  obtain ⟨j, hj, rfl⟩ := List.mem_iff_getElem.mp hmem
  rw [List.length_set] at hj
  by_cases hij : i = j
  · left
    subst hij
    rw [List.getElem_set_self]
  · right
    rw [List.getElem_set_ne hij]
    use List.getElem_mem hj
    intro hid
    apply hij
    apply (List.getElem?_inj (by simpa using hi) hnodup).mp
    rw [List.getElem?_map, List.getElem?_map, List.getElem?_eq_getElem hi,
      List.getElem?_eq_getElem hj]
    exact congrArg some hid

theorem IterInvocation.Steps.mem {iter : HedRepoIter} {key value : Bool} {step : Step}
    (h : e.Steps iter key value step) :
  iter ∈ e.before.iters
  := by
  obtain ⟨i, -, hiter, -⟩ := h
  exact List.mem_of_getElem? hiter

/-- The identities of cursors are not used again. -/
theorem IterEffect.next_le {txn : Txn} {op : IterOp} {t : List (Event cursorCalls Fate)}
    {r : IterResult} (h : IterEffect s txn op t r s') :
  s.world.2.next ≤ s'.world.2.next
  := by
  cases h with
  | created first => apply Nat.le_succ
  | uncreated cause =>
      dsimp only
      split_ifs
      · apply Nat.le_succ
      · apply le_refl
  | stepped has moves => apply le_refl
  | destroyed has => apply le_refl
  | onRecords recorded works => apply le_refl

theorem Delivering.step (h : Delivering s₀ es s) (hreads : Reads repo3pc s e s')
    (hspares : e.Spares) :
  Delivering s₀ (es ++ [e]) s'
  := by
  have haccounts := h.toAccounts.step hreads
  obtain ⟨txn, htxn, hro⟩ := h.txn
  obtain ⟨hbefore, heffect⟩ := hreads.effect htxn hro
  constructor
  · exact haccounts
  · intro e' he' iter key value step hsteps
    apply lt_of_lt_of_le _ heffect.next_le
    rcases List.mem_append.mp he' with he' | he'
    · exact h.seen e' he' iter key value step hsteps
    · obtain rfl := List.mem_singleton.mp he'
      apply h.id_lt
      rw [← hbefore]
      exact hsteps.mem
  · obtain ⟨before, op, trace, result, after⟩ := e
    obtain rfl : before = s := hbefore
    have hkeep : ∀ {iter : HedRepoIter}, iter ∈ before.iters →
        (∀ i key value, op = .hedRepoStep i key value → ∃ iter', before.iters[i]? = some iter'
          ∧ iter'.id ≠ iter.id) →
        (∀ k, iter.cursor.key = some k → before.Has iter.cursor.dbi k →
          s'.Has iter.cursor.dbi k) →
        Follows (es ++ [⟨before, op, trace, result, after⟩]) s' iter := by
      intro iter hiter hop hhas
      apply (h.follows iter hiter).keep hiter rfl _ hhas
      rintro iter' key value step ⟨i, hi, hiter', -⟩
      obtain ⟨iter'', hiter'', hne⟩ := hop i key value hi
      obtain rfl := Option.some.inj (hiter''.symm.trans hiter')
      exact hne
    cases heffect with
    | @created table _ entry hfirst =>
        intro iter hiter
        rcases List.mem_append.mp hiter with hiter | hnew
        · apply hkeep hiter
          · rintro i key value ⟨⟩
          · intro k _ hk
            exact hk
        · obtain rfl := List.mem_singleton.mp hnew
          refine Follows.first ?_ rfl rfl htxn hfirst
          intro e' he' iter' key value step hsteps hid
          rcases List.mem_append.mp he' with he' | he'
          · have hlt := h.seen e' he' iter' key value step hsteps
            rw [hid] at hlt
            exact lt_irrefl _ hlt
          · obtain rfl := List.mem_singleton.mp he'
            obtain ⟨i, hop, -⟩ := hsteps
            cases hop
    | uncreated hcause =>
        intro iter hiter
        apply hkeep hiter
        · rintro i key value ⟨⟩
        · intro k _ hk
          exact hk
    | @stepped i key value _ iter iter' step hhas hmoves =>
        have hiter : iter ∈ before.iters := List.mem_of_getElem? hhas
        have hsteps : IterInvocation.Steps ⟨before, .hedRepoStep i key value, trace, .step step,
            after⟩ iter key value step := ⟨i, rfl, hhas, rfl⟩
        intro iter'' hiter''
        rcases mem_set_cases h.nodup_ids hhas hiter'' with rfl | ⟨hother, hne⟩
        · have hfollows := h.follows iter hiter
          cases hmoves with
          | missed cause => exact hfollows.stay hiter rfl rfl hsteps (by decide)
          | moved on record next =>
              have hcode : EAGAIN.code ≠ -EINVAL.code := by decide
              refine hfollows.move hiter rfl ?_ hsteps htxn on hcode next
              rfl
          | stayed on record ret_ne cause => exact hfollows.stay hiter rfl rfl hsteps ret_ne
        · apply hkeep hother
          · rintro _ _ _ ⟨⟩
            exact ⟨iter, hhas, hne⟩
          · intro k _ hk
            exact hk
    | destroyed hhas =>
        intro iter hiter
        apply hkeep (List.mem_of_mem_eraseIdx hiter)
        · rintro i key value ⟨⟩
        · intro k _ hk
          exact hk
    | @onRecords op _ r c hrecorded hworks =>
        intro iter hiter
        apply hkeep hiter
        · rintro i key value ⟨⟩
        · rintro k hkey ⟨txn', htxn', hk⟩
          obtain rfl := Option.some.inj (htxn.symm.trans htxn')
          refine ⟨_, rfl, hworks.record_ne_none hrecorded ?_ hk⟩
          rintro rfl
          exact hspares iter hiter k hkey rfl

/-- What a step does. -/
theorem IterEffect.moves {txn : Txn} (h : IterEffect s txn e.op e.trace e.result s')
    (hbefore : e.before = s) {iter : HedRepoIter} {key value : Bool} {step : Step}
    (hsteps : e.Steps iter key value step) :
  ∃ iter', Moves txn iter key value e.trace step iter'
  := by
  obtain ⟨i, hop, hiter, hresult⟩ := hsteps
  rw [hop, hresult] at h
  cases h with
  | @stepped _ _ _ _ iter₁ iter' _ has moves =>
      rw [hbefore] at hiter
      obtain rfl := Option.some.inj (has.symm.trans hiter)
      exact ⟨iter', moves⟩

theorem Delivering.delivers (h : Delivering s₀ es s) (hreads : Reads repo3pc s e s') :
  e.Delivers
  := by
  obtain ⟨txn, htxn, hro⟩ := h.txn
  obtain ⟨hbefore, heffect⟩ := hreads.effect htxn hro
  intro iter key value step hsteps
  obtain ⟨iter', hmoves⟩ := heffect.moves hbefore hsteps
  have hiter : iter ∈ s.iters := hbefore ▸ hsteps.mem
  have hcode : EAGAIN.code ≠ -EINVAL.code := by decide
  obtain ⟨k, hkey, txn', htxn', hrecord⟩ := (h.follows iter hiter).on
  obtain rfl := Option.some.inj (htxn.symm.trans htxn')
  rw [hbefore]
  cases hmoves with
  | missed cause =>
      constructor
      · intro hsucceeds
        have hnone := cause hsucceeds k hkey
        rw [Content.record_eq] at hrecord
        contradiction
      · intro hret
        contradiction
  | @moved k v entry on record next =>
      rw [HedRepoIter.table, ← Content.record_eq] at record
      use fun _ => hcode
      intro _
      exact ⟨txn, k, v, htxn, on, record, rfl, rfl⟩
  | @stayed k v ret on record ret_ne cause =>
      rw [HedRepoIter.table, ← Content.record_eq] at record
      constructor
      · intro hsucceeds
        have hzero : (0 : ℤ) ≠ -EINVAL.code := by decide
        rw [(cause hsucceeds).1]
        exact hzero
      · intro _
        exact ⟨txn, k, v, htxn, on, record, rfl, rfl⟩

theorem Delivering.ascends (h : Delivering s₀ es s) (hreads : Reads repo3pc s e s') :
  IterInvocation.Ascends es e
  := by
  obtain ⟨txn, htxn, hro⟩ := h.txn
  obtain ⟨hbefore, -⟩ := hreads.effect htxn hro
  intro e' he' iter' key' value' step' iter key value step k' k hsteps' hsteps
  have hiter : iter ∈ s.iters := hbefore ▸ hsteps.mem
  exact (h.follows iter hiter).passed e' he' iter' key' value' step' k' k hsteps'

theorem Delivering.covers (h : Delivering s₀ es s) (hreads : Reads repo3pc s e s') :
  IterInvocation.Covers es e
  := by
  obtain ⟨txn, htxn, hro⟩ := h.txn
  obtain ⟨hbefore, heffect⟩ := hreads.effect htxn hro
  intro iter key value step hsteps hsucceeds hret k hall
  obtain ⟨iter', hmoves⟩ := heffect.moves hbefore hsteps
  have hiter : iter ∈ s.iters := hbefore ▸ hsteps.mem
  have hvisits : ∀ k₀, iter.cursor.key = some k₀ → e.Visits iter.id k₀ := by
    intro k₀ hkey
    refine ⟨iter, key, value, step, hsteps, rfl, hkey, ?_⟩
    rw [hret]
    decide
  have hmem : e ∈ es ++ [e] := List.mem_append_right es List.mem_cons_self
  cases hmoves with
  | missed cause => exact absurd hret (by decide)
  | moved on record next =>
      have hmore : EAGAIN.code ≠ 0 := by decide
      contradiction
  | @stayed k₀ v ret on record ret_ne cause =>
      rcases (h.follows iter hiter).left_snoc hiter hbefore on hall with hvisited | hle
      · exact hvisited
      · obtain ⟨txn', htxn', hk⟩ := hall e hmem (hbefore ▸ ⟨iter, hiter, rfl⟩)
        rw [hbefore] at htxn'
        obtain rfl := Option.some.inj (htxn.symm.trans htxn')
        obtain ⟨v', hv'⟩ := Option.ne_none_iff_exists'.mp hk
        rw [Content.record_eq] at hv'
        obtain rfl := le_antisymm hle (OrderedMap.next_eq_none (cause hsucceeds).2 hv')
        exact ⟨e, hmem, hvisits k₀ on⟩

theorem Reader.Begins.delivering (h : s.Begins) :
  Delivering s [] s
  := by
  constructor
  · exact h.accounts
  · rintro e ⟨⟩
  · rw [h.iters]
    rintro iter ⟨⟩

/-- Whatever a client does between the steps of its iterators, as long as it deletes no record that
one of them is on: a step delivers the record its iterator is on, unless LMDB fails, the keys that
an iterator delivers increase, and at the end it has delivered every record that was in the table
all the time. -/
theorem run_delivers (h : Run (Reads repo3pc) s es s') (hs : s.Begins)
    (hspares : ∀ e ∈ es, e.Spares) :
  (∀ e ∈ es, e.Delivers) ∧ Along IterInvocation.Ascends es ∧ Along IterInvocation.Covers es
  := by
  have hrun := h.along (I := fun es s' => Delivering s es s') (C := fun _ e => e.Spares)
    (P := fun es e => e.Delivers ∧ IterInvocation.Ascends es e ∧ IterInvocation.Covers es e)
    hs.delivering
  obtain ⟨-, hevents⟩ := hrun
    (fun es e s₁ s₂ hd hreads hspare => ⟨hd.step hreads hspare, hd.delivers hreads,
      hd.ascends hreads, hd.covers hreads⟩)
    (along_iff_forall_mem.mpr hspares)
  refine ⟨along_iff_forall_mem.mp (hevents.mono fun _ _ h => h.1), ?_, ?_⟩
  · exact hevents.mono fun _ _ h => h.2.1
  · exact hevents.mono fun _ _ h => h.2.2

end Delivering

/-- Between the steps of an iterator, the client deletes the record that was delivered, writes one
that is still to come, and has another iterator. -/
def busyScript : List (IterOp × List Fate) :=
  [(.hedRepoCreateIter [0x74], []), (.hedRepoStep 0 true true, []),
    (.onRecords (.hedRepoDel [0x74] [1]), []), (.onRecords (.hedRepoUpdate [0x74] [4] [40]), []),
    (.hedRepoCreateIter [0x74], []), (.hedRepoStep 0 true true, []),
    (.hedRepoStep 1 true false, []), (.hedRepoStep 0 true true, []),
    (.hedRepoStep 0 true true, [])]

/-- The run of that script. -/
def busyRun : List IterInvocation × Reader :=
  (Reader.threeRecords.play true busyScript).get rfl

theorem play_busyScript :
  Reader.threeRecords.play true busyScript = some busyRun
  := (Option.some_get _).symm

/-- The first iterator delivers the three records and the new one, the second one starts with the
second record. -/
theorem run_delivers_busy :
  ((∀ e ∈ busyRun.1, e.Delivers) ∧ Along IterInvocation.Ascends busyRun.1
      ∧ Along IterInvocation.Covers busyRun.1)
    ∧ busyRun.1.map IterInvocation.result
      = [.created true, .step ⟨11, some [1], some [10]⟩, .onRecords (.code 0),
        .onRecords (.code 0), .created true, .step ⟨11, some [2], some [20]⟩,
        .step ⟨11, some [2], none⟩, .step ⟨11, some [3], some [30]⟩,
        .step ⟨0, some [4], some [40]⟩]
  := by
  constructor
  · apply run_delivers (Reader.run_play play_busyScript) Reader.threeRecords_begins
    decide +kernel
  · decide +kernel

end Hed
