import Hed.Repo.AllOrNothing

/-!
# The functions one after another

`Works` is the meaning of the functions of `repo.h` when nothing happens in between: what a
call and its result say of the content before it and of the content after it.  The functions
on records work in a transaction, and opening and reloading a repository are transactions of
their own.  The runs of `Works` are what clients would see of a repository that performs
their calls one after another; in them the sequence numbers increase, and a record is what
was written there last.
-/

namespace Hed

open Program

/-! ### The meaning of the functions -/

namespace Op

/-- The functions that work on the records of a transaction. -/
def recorded : Op → Bool
  | .hedRepoGet _ _ => true
  | .hedRepoUpdate _ _ _ => true
  | .hedRepoDel _ _ => true
  | .hedRepoCount _ => true
  | .hedRepoNextSeq _ => true
  | .hedRepoGetVersion => true
  | .hedRepoSetVersion _ => true
  | _ => false

/-- The record a function asks for. -/
def asks : Op → Option (Bytes × Bytes)
  | .hedRepoGet table key => some (table, key)
  | .hedRepoGetVersion => some (hedTable, versionKey)
  | _ => none

end Op

/-- What a function makes of a content, and what it tells its client. -/
inductive Works : Content → Op × Result → Content → Prop where
  | read {c : Content} {op : Op} {table key : Bytes} {v : Except Errno Bytes}
      (asks : op.asks = some (table, key))
      (found : ∀ b, v = .ok b → c.record table key = some b) :
      Works c (op, .value v) c
  | counted {c : Content} {table : Bytes} {ret : ℤ}
      (count : ret = ((c.get table).getD ∅).size ∨ ∃ e : Errno, ret = -e.code) :
      Works c (.hedRepoCount table, .code ret) c
  | wrote {c c' : Content} {op : Op} {f : Content → Option Content}
      (write : op.write = some f) (content : f c = some c') :
      Works c (op, .code 0) c'
  | unwritten {c : Content} {op : Op} {f : Content → Option Content} {ret : ℤ}
      (write : op.write = some f) (ret_ne : ret ≠ 0) :
      Works c (op, .code ret) c
  | numbered {c c' : Content} {table old : Bytes}
      (record : c.record hedTable table = some old) (length : old.length = 4)
      (content : c.update hedTable table (encode32 ((decode32 old + 1) % 4294967296)) = some c') :
      Works c (.hedRepoNextSeq table, .seq ((decode32 old + 1) % 4294967296)) c'
  | unnumbered {c : Content} {table : Bytes} :
      Works c (.hedRepoNextSeq table, .seq 0) c
  | opened {c c' : Content} {table : List Bytes} {flags : Flags} {mode : ℕ}
      (content : c.setup flags table = some c') :
      Works c (.hedRepoOpen table flags mode, .code 0) c'
  | reloaded {c : Content} :
      Works c (.hedRepoReload, .code 0) c

/-- The functions on records make the calls on records. -/
theorem calls_recorded {op : Op} (hop : op.recorded = true) (repo3pc : Bool) (repo : HedRepo) :
  (op.run repo3pc repo).Calls Call.OnRecords
  := by
  have hpure : ∀ {α : Type} {p : Repo α} {f : α → Result × HedRepo}, p.Calls Call.OnRecords →
      (p >>= fun r => pure (f r)).Calls Call.OnRecords := by
    intro α p f hp
    apply Calls.bind hp
    intro r
    trivial
  cases op with
  | hedRepoGet table key => apply hpure (calls_hedRepoGet repo table key)
  | hedRepoUpdate table key value => apply hpure (calls_hedRepoUpdate repo table key value)
  | hedRepoDel table key => apply hpure (calls_hedRepoDel repo table key)
  | hedRepoCount table => apply hpure (calls_hedRepoCount repo table)
  | hedRepoNextSeq table => apply hpure (calls_hedRepoNextSeq repo table)
  | hedRepoGetVersion => apply hpure (calls_hedRepoGet repo hedTable versionKey)
  | hedRepoSetVersion value => apply hpure (calls_hedRepoUpdate repo hedTable versionKey value)
  | _ => cases hop

section Transaction

variable {repo : HedRepo} {txn : Txn} (htxn : repo.txn = some txn) (w : World)
include htxn

/-- The number `hed_repo_count` returns is that of the records of the table, or stems from an
error code. -/
theorem hedRepoCount_entries (table : Bytes) :
  wp handle (hedRepoCount repo table)
    (fun _ r w' => w' = w ∧ r.2 = repo
      ∧ (r.1 = ((txn.content.get table).getD ∅).size ∨ ∃ e : Errno, r.1 = -e.code)) w
  := by
  rw [hedRepoCount]
  apply wp_repoDbiOpen_bind htxn w table
  · intro _ t _
    rw [wp_bind, wp_mdbStat]
    constructor
    · use rfl, HedRepo.work_self htxn
      left
      rfl
    · intro e left
      use rfl, HedRepo.work_self htxn
      right
      use e
  · intro e t _
    use rfl, rfl
    right
    use e

variable (hro : txn.readonly = false)
include hro

/-- In a transaction every function on records works on its content. -/
theorem works_recorded {op : Op} (hop : op.recorded = true) (repo3pc : Bool) :
  wp handle (op.run repo3pc repo)
    (fun _ r _ => ∃ c, r.2 = repo.work txn c ∧ Works txn.content (op, r.1) c) w
  := by
  have hself : repo = repo.work txn txn.content := (HedRepo.work_self htxn).symm
  have hget : ∀ {op : Op} {table key : Bytes}, op.asks = some (table, key) →
      wp handle (do
          let r ← hedRepoGet repo table key
          pure (Result.value r.1, r.2))
        (fun _ r _ => ∃ c, r.2 = repo.work txn c ∧ Works txn.content (op, r.1) c) w := by
    intro op table key hasks
    apply wp_bind_of handle (hedRepoGet_spec htxn w table key)
    rintro t ⟨v, repo'⟩ w' ⟨-, hrepo, ⟨b, hv, hrecord, -⟩ | ⟨⟨e, hv⟩, -⟩⟩
    · use txn.content, hrepo.trans hself
      apply Works.read hasks
      intro b' hb'
      obtain rfl := Except.ok.inj (hv.symm.trans hb')
      apply hrecord
    · use txn.content, hrepo.trans hself
      apply Works.read hasks
      intro b' hb'
      cases hv.symm.trans hb'
  have hwrite : ∀ {op : Op} {f : Content → Option Content} {p : Repo (ℤ × HedRepo)},
      op.write = some f → wp handle p (Writes repo txn w (f txn.content)) w →
      wp handle (do
          let r ← p
          pure (Result.code r.1, r.2))
        (fun _ r _ => ∃ c, r.2 = repo.work txn c ∧ Works txn.content (op, r.1) c) w := by
    intro op f p hop hp
    apply wp_bind_of handle hp
    rintro t ⟨ret, repo'⟩ w' ⟨-, ⟨c, hc, hr, -⟩ | ⟨hret, hrepo, -⟩⟩
    · obtain ⟨rfl, rfl⟩ := Prod.mk.inj hr
      exact ⟨c, rfl, Works.wrote hop hc⟩
    · exact ⟨txn.content, hrepo.trans hself, Works.unwritten hop hret⟩
  cases op with
  | hedRepoGet table key => apply hget rfl
  | hedRepoGetVersion => apply hget rfl
  | hedRepoUpdate table key value =>
      apply hwrite rfl (hedRepoUpdate_spec htxn w hro table key value)
  | hedRepoDel table key => apply hwrite rfl (hedRepoDel_spec htxn w hro table key)
  | hedRepoSetVersion value =>
      apply hwrite rfl (hedRepoUpdate_spec htxn w hro hedTable versionKey value)
  | hedRepoCount table =>
      apply wp_bind_of handle (hedRepoCount_entries htxn w table)
      rintro t ⟨ret, repo'⟩ w' ⟨-, hrepo, hret⟩
      exact ⟨txn.content, Eq.trans hrepo hself, Works.counted hret⟩
  | hedRepoNextSeq table =>
      apply wp_bind_of handle (hedRepoNextSeq_spec htxn w hro table)
      rintro t ⟨n, repo'⟩ w' ⟨-, ⟨old, c, hrecord, hlength, hc, hr, -⟩ | ⟨hr, -⟩⟩
      · obtain ⟨rfl, rfl⟩ := Prod.mk.inj hr
        exact ⟨c, rfl, Works.numbered hrecord hlength hc⟩
      · obtain ⟨rfl, rfl⟩ := Prod.mk.inj hr
        exact ⟨txn.content, hself, Works.unnumbered⟩
  | _ => cases hop

end Transaction

/-! ### What opening does to records -/

namespace Content

variable {c c' : Content} {flags : Flags} {table : Bytes} {tables : List Bytes}

/-- Opening a repository without truncating it leaves the records. -/
theorem record_setup_all (h : c.setup flags tables = some c') (htrunc : flags &&& O_TRUNC = 0)
    (table' key : Bytes) :
  c'.record table' key = c.record table' key
  := by
  obtain ⟨c₁, c₂, hhed, htables, hinit⟩ := setup_eq_some_iff.mp h
  rw [if_neg (fun h => h htrunc)] at hinit
  obtain rfl := Option.some.inj hinit
  rw [record_openTables_all htables htrunc, record_openTable_all hhed htrunc]

/-- Opening a repository empties the tables it truncates, and leaves the records of the
others that are not sequence numbers. -/
theorem record_setup_of_ne (h : c.setup flags tables = some c') (htable : table ≠ hedTable)
    (key : Bytes) :
  c'.record table key
    = if flags &&& O_TRUNC ≠ 0 ∧ table ∈ tables then none else c.record table key
  := by
  have hinitialised := initialised_of_setup h
  split_ifs with htrunc
  · rw [record, hinitialised.emptied htrunc.1 table htrunc.2]
    rfl
  · by_cases hflags : flags &&& O_TRUNC = 0
    · apply record_setup_all h hflags
    · have hmem : table ∉ tables := fun hmem => htrunc ⟨hflags, hmem⟩
      rw [record, record, hinitialised.others table htable hmem]

/-- Deleting a record. -/
theorem record_delete_eq {key : Bytes} (h : c.delete table key = some c')
    (table' key' : Bytes) :
  c'.record table' key'
    = if table' = table ∧ key' = key then none else c.record table' key'
  := by
  rw [delete] at h
  split_ifs at h with hhas
  obtain rfl := Option.some.inj h
  rw [record_modify]
  by_cases htable : table' = table
  · rw [if_pos htable, OrderedMap.get_erase]
    by_cases hkey : key' = key
    · rw [if_pos hkey, if_pos ⟨htable, hkey⟩]
    · rw [if_neg hkey, if_neg (fun h => hkey h.2), htable, record_eq]
  · rw [if_neg htable, if_neg (fun h => htable h.1)]

end Content

/-! ### What was written last -/

/-- What a call writes to a record that is no sequence number: a value, or that there is
none. -/
def written (table key : Bytes) (e : Op × Result) : Option (Option Bytes) :=
  match e with
  | (.hedRepoUpdate table' key' value, .code ret) =>
      if ret = 0 ∧ table = table' ∧ key = key' then some (some value) else none
  | (.hedRepoDel table' key', .code ret) =>
      if ret = 0 ∧ table = table' ∧ key = key' then some none else none
  | (.hedRepoOpen tables flags _, .code ret) =>
      if ret = 0 ∧ flags &&& O_TRUNC ≠ 0 ∧ tables.contains table then some none else none
  | _ => none

/-- The record after calls that find it as `old`. -/
def lastWritten (table key : Bytes) (old : Option Bytes) (es : List (Op × Result)) :
    Option Bytes :=
  es.foldl (fun r e => (written table key e).getD r) old

theorem lastWritten_snoc (table key : Bytes) (old : Option Bytes) (es : List (Op × Result))
    (e : Op × Result) :
  lastWritten table key old (es ++ [e])
    = (written table key e).getD (lastWritten table key old es)
  := by
  rw [lastWritten, List.foldl_append]
  rfl

/-- One call writes what it says, and nothing else. -/
theorem Works.record {c c' : Content} {e : Op × Result} (h : Works c e c') {table : Bytes}
    (htable : table ≠ hedTable) (key : Bytes) :
  c'.record table key = (written table key e).getD (c.record table key)
  := by
  cases h with
  | @read op table' key' v asks found =>
      cases op with
      | hedRepoGet => rfl
      | hedRepoGetVersion => rfl
      | _ => cases asks
  | counted => rfl
  | @wrote _ op f write content =>
      cases op with
      | hedRepoUpdate table' key' value =>
          obtain rfl := Option.some.inj write
          rw [Content.record_update content, written]
          by_cases hrecord : table = table' ∧ key = key'
          · rw [if_pos hrecord, if_pos ⟨rfl, hrecord⟩, Option.getD_some]
          · rw [if_neg hrecord, if_neg (fun h => hrecord h.2), Option.getD_none]
      | hedRepoDel table' key' =>
          obtain rfl := Option.some.inj write
          rw [Content.record_delete_eq content, written]
          by_cases hrecord : table = table' ∧ key = key'
          · rw [if_pos hrecord, if_pos ⟨rfl, hrecord⟩, Option.getD_some]
          · rw [if_neg hrecord, if_neg (fun h => hrecord h.2), Option.getD_none]
      | hedRepoSetVersion value =>
          obtain rfl := Option.some.inj write
          rw [Content.record_update content, if_neg (fun h => htable h.1)]
          rfl
      | _ => cases write
  | @unwritten op f ret write ret_ne =>
      cases op with
      | hedRepoUpdate table' key' value =>
          rw [written, if_neg (fun h => ret_ne h.1), Option.getD_none]
      | hedRepoDel table' key' =>
          rw [written, if_neg (fun h => ret_ne h.1), Option.getD_none]
      | hedRepoSetVersion value => rfl
      | _ => cases write
  | numbered record length content =>
      rw [Content.record_update content, if_neg (fun h => htable h.1)]
      rfl
  | unnumbered => rfl
  | @opened _ tables flags mode content =>
      have hmem : tables.contains table = true ↔ table ∈ tables := List.contains_iff_mem
      rw [Content.record_setup_of_ne content htable, written]
      by_cases htrunc : flags &&& O_TRUNC ≠ 0 ∧ table ∈ tables
      · rw [if_pos htrunc, if_pos ⟨rfl, htrunc.1, hmem.mpr htrunc.2⟩, Option.getD_some]
      · rw [if_neg htrunc, if_neg (fun h => htrunc ⟨h.2.1, hmem.mp h.2.2⟩), Option.getD_none]
  | reloaded => rfl

/-- After calls one after another, a record that is no sequence number is what was written
there last. -/
theorem run_record {c c' : Content} {es : List (Op × Result)} (h : Run Works c es c')
    {table : Bytes} (htable : table ≠ hedTable) (key : Bytes) :
  c'.record table key = lastWritten table key (c.record table key) es
  := by
  induction h with
  | nil => rfl
  | snoc run last ih => rw [lastWritten_snoc, last.record htable, ih]

/-! ### The numbers handed out -/

/-- The number a call hands out for a table. -/
def handedOut (T : Bytes) (e : Op × Result) : Option ℕ :=
  match e with
  | (.hedRepoNextSeq table, .seq n) => if table = T ∧ n ≠ 0 then some n else none
  | _ => none

/-- How often calls ask for the next number of a table. -/
def asked (T : Bytes) (es : List (Op × Result)) : ℕ :=
  es.countP (fun e => e.1 = .hedRepoNextSeq T)

/-- The functions that neither write to the table of sequence numbers directly nor truncate
it. -/
def Op.sparesNumbers (op : Op) : Bool :=
  match op with
  | .hedRepoOpen _ flags _ => flags &&& O_TRUNC = 0
  | op => op.sparesHed

/-- A call that does not ask for the next number of a table leaves the number it has. -/
theorem Works.number_of_ne {c c' : Content} {e : Op × Result} (h : Works c e c') {T : Bytes}
    (hT : T ≠ versionKey) (hspares : e.1.sparesNumbers = true) (hne : e.1 ≠ .hedRepoNextSeq T) :
  c'.record hedTable T = c.record hedTable T
  := by
  cases h with
  | read => rfl
  | counted => rfl
  | @wrote _ op f write content =>
      have hhed : op.sparesHed = true := by
        cases op with
        | hedRepoOpen table flags mode => cases write
        | _ => exact hspares
      apply record_write write hhed content hT
  | unwritten => rfl
  | numbered record length content =>
      rw [Content.record_update content, if_neg]
      rintro ⟨-, rfl⟩
      apply hne rfl
  | unnumbered => rfl
  | @opened _ tables flags mode content =>
      apply Content.record_setup_all content
      simpa [Op.sparesNumbers] using hspares
  | reloaded => rfl

/-- A call hands out the number after the one in the record, which becomes it, or hands out
nothing and keeps the record. -/
theorem Works.number {c c' : Content} {e : Op × Result} (h : Works c e c') {T : Bytes}
    (hT : T ≠ versionKey) (hspares : e.1.sparesNumbers = true)
    (hfull : e.1 = .hedRepoNextSeq T → c.number T + 1 < 4294967296) :
  (handedOut T e = none ∧ c'.number T = c.number T)
    ∨ (e.1 = .hedRepoNextSeq T ∧ handedOut T e = some (c.number T + 1)
      ∧ c'.number T = c.number T + 1)
  := by
  by_cases hnext : e.1 = .hedRepoNextSeq T
  · obtain ⟨op, result⟩ := e
    obtain rfl : op = .hedRepoNextSeq T := hnext
    cases h with
    | read asks => cases asks
    | wrote write => cases write
    | unwritten write => cases write
    | @numbered _ _ old record length content =>
        right
        have hnumber : c.number T = decode32 old := by
          rw [Content.number, record]
          rfl
        have hlt : decode32 old + 1 < 4294967296 := by
          rw [← hnumber]
          apply hfull rfl
        have hmod : (decode32 old + 1) % 4294967296 = decode32 old + 1 := Nat.mod_eq_of_lt hlt
        rw [hmod] at content
        have hrecord : c'.record hedTable T = some (encode32 (decode32 old + 1)) := by
          rw [Content.record_update content, if_pos ⟨rfl, rfl⟩]
        use rfl
        constructor
        · rw [handedOut, hmod, hnumber, if_pos ⟨rfl, Nat.succ_ne_zero _⟩]
        · rw [hnumber, Content.number, hrecord, Option.map_some, decode32_encode32 hlt]
          rfl
    | unnumbered =>
        left
        constructor
        · rw [handedOut, if_neg (fun h => h.2 rfl)]
        · rfl
  · left
    constructor
    · rw [handedOut.eq_def]
      split
      · rename_i table n
        rw [if_neg]
        rintro ⟨rfl, -⟩
        apply hnext rfl
      · rfl
    · rw [Content.number, h.number_of_ne hT hspares hnext, Content.number]

/-- Calls one after another hand out consecutive numbers, from the one after the number there
was, as long as these fit in a `uint32_t`. -/
theorem run_numbers {c c' : Content} {es : List (Op × Result)} (h : Run Works c es c')
    {T : Bytes} (hT : T ≠ versionKey) (hspares : ∀ e ∈ es, e.1.sparesNumbers = true)
    (hfull : c.number T + asked T es < 4294967296) :
  ∃ k ≤ asked T es, c'.number T = c.number T + k
    ∧ es.filterMap (handedOut T) = List.range' (c.number T + 1) k
  := by
  induction h with
  | nil => exact ⟨0, le_refl _, rfl, rfl⟩
  | @snoc c₁ c₂ es e run last ih =>
      obtain ⟨hes, he⟩ := List.forall_mem_append.mp hspares
      have hasked : asked T (es ++ [e])
          = asked T es + if e.1 = .hedRepoNextSeq T then 1 else 0 := by
        simp [asked, List.countP_append, List.countP_cons]
      rw [hasked] at hfull ⊢
      obtain ⟨k, hk, hnumber, hnumbers⟩ := ih hes (by omega)
      have hroom : e.1 = .hedRepoNextSeq T → c₁.number T + 1 < 4294967296 := by
        intro hnext
        rw [if_pos hnext] at hfull
        omega
      rw [List.filterMap_append, hnumbers]
      rcases last.number hT (he e (List.mem_singleton_self e)) hroom with
        ⟨hnone, hsame⟩ | ⟨hnext, hsome, hsucc⟩
      · use k, by omega
        rw [hsame, hnumber]
        use rfl
        simp [hnone]
      · rw [if_pos hnext]
        use k + 1, by omega
        rw [hsucc, hnumber]
        use rfl
        rw [List.range'_1_concat]
        simp [hsome, hnumber]
        omega

end Hed
