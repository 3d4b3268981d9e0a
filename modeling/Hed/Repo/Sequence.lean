import Hed.Prelude.Ledger
import Hed.Repo.Publish

/-!
# Sequence numbers

The record of a table in `".hed"` is a transactional counter, and `hed_repo_next_seq` hands
out its numbers, until it is full: at the number `2^32 - 1` the next one wraps around to
zero, which `hed_repo_next_seq` returns as an error although it has written it.
-/

namespace Hed

open Program

/-! ### Records of the table of sequence numbers -/

namespace Content

/-- The sequence number of a table: zero when it has none. -/
def number (c : Content) (table : Bytes) : ℕ := ((c.record hedTable table).map decode32).getD 0

variable {c c' : Content} {table : Bytes}

theorem record_update {table' key key' value : Bytes}
    (h : c.update table key value = some c') :
  c'.record table' key'
    = if table' = table ∧ key' = key then some value else c.record table' key'
  := by
  rw [update] at h
  split_ifs at h with hhas
  obtain rfl := Option.some.inj h
  rw [record_modify]
  by_cases htable : table' = table
  · rw [if_pos htable, OrderedMap.get_put]
    by_cases hkey : key' = key
    · rw [if_pos hkey, if_pos ⟨htable, hkey⟩]
    · rw [if_neg hkey, if_neg (fun h => hkey h.2), htable, record_eq]
  · rw [if_neg htable, if_neg (fun h => htable h.1)]

theorem record_delete {table' key key' : Bytes} (h : c.delete table key = some c')
    (htable : table' ≠ table) :
  c'.record table' key' = c.record table' key'
  := by
  rw [delete] at h
  split_ifs at h with hhas
  obtain rfl := Option.some.inj h
  rw [record_modify, if_neg htable]

end Content

/-- The operations that do not write to the table of sequence numbers directly. -/
def Op.sparesHed : Op → Bool
  | .hedRepoUpdate table _ _ => table ≠ hedTable
  | .hedRepoDel table _ => table ≠ hedTable
  | _ => true

/-- A function that writes, but not to the table of sequence numbers directly, changes no
record there but that of the version. -/
theorem record_write {op : Op} {f : Content → Option Content} (hwrite : op.write = some f)
    (hop : op.sparesHed = true) {c c' : Content} (hc : f c = some c') {key : Bytes}
    (hkey : key ≠ versionKey) :
  c'.record hedTable key = c.record hedTable key
  := by
  cases op with
  | hedRepoUpdate table key' value =>
      obtain rfl := Option.some.inj hwrite
      have htable : table ≠ hedTable := by simpa [Op.sparesHed] using hop
      rw [Content.record_update hc, if_neg (fun h => htable h.1.symm)]
  | hedRepoDel table key' =>
      obtain rfl := Option.some.inj hwrite
      have htable : table ≠ hedTable := by simpa [Op.sparesHed] using hop
      apply Content.record_delete hc htable.symm
  | hedRepoSetVersion value =>
      obtain rfl := Option.some.inj hwrite
      rw [Content.record_update hc, if_neg (fun h => hkey h.2)]
  | _ => cases hwrite

/-! ### The numbers handed out -/

/-- The number a call handed out for a table. -/
def Invocation.issued (i : Invocation) (table : Bytes) : Option ℕ :=
  match i.op, i.result with
  | .hedRepoNextSeq table', .seq n => if table' = table ∧ n ≠ 0 then some n else none
  | _, _ => none

/-- The numbers handed out for a table, less those of transactions that were aborted or whose
commit failed. -/
def ledger (table : Bytes) (is : List Invocation) : Ledger :=
  is.foldl (fun l i => l.next (i.op.move i.result) (i.issued table)) .empty

theorem ledger_snoc (table : Bytes) (is : List Invocation) (i : Invocation) :
  ledger table (is ++ [i]) = (ledger table is).next (i.op.move i.result) (i.issued table)
  := by
  simp only [ledger, List.foldl_append, List.foldl_cons, List.foldl_nil]

/-- The call leaves the record of a table in the transaction as it was. -/
def KeepsRecord (table : Bytes) (i : Invocation) : Prop :=
  ∀ x x', i.before.repo.txn = some x → i.after.repo.txn = some x' →
    x'.content.record hedTable table = x.content.record hedTable table

/-- What a client expects of the numbers of a table: they increase, only asking for the next
one changes the record they come from, and not even that when it reports an error. -/
structure Sequenced (table : Bytes) (is : List Invocation) : Prop where
  increasing : (ledger table is).numbers.Pairwise (· < ·)
  others : ∀ i ∈ is, i.op ≠ .hedRepoNextSeq table → KeepsRecord table i
  zero : ∀ i ∈ is, i.op = .hedRepoNextSeq table → i.result = .seq 0 → KeepsRecord table i

/-- The next number of a table is never asked for, with success, when the last one is
`2^32 - 1`. -/
def NeverFull (table : Bytes) (i : Invocation) : Prop :=
  i.op = .hedRepoNextSeq table → Clean i.trace → ∀ x old, i.before.repo.txn = some x →
    x.content.record hedTable table = some old → decode32 old ≠ 4294967295

/-! ### Calls and the record -/

section Effects

variable {repo3pc : Bool} {repo repo' : HedRepo} {w w' : World} {op : Op}
  {t : List (Event calls Fate)} {result : Result} {table : Bytes}

/-- Only asking for the next number changes the record. -/
theorem Effect.keeps_record (h : Effect repo3pc repo w op t result repo' w')
    (hin : op.inSession = true) (hop : op.sparesHed = true) (htable : table ≠ versionKey)
    (hnot : op ≠ .hedRepoNextSeq table) {x x' : Txn} (hx : repo.txn = some x)
    (hx' : repo'.txn = some x') :
  x'.content.record hedTable table = x.content.record hedTable table
  := by
  have hsame : repo'.txn = repo.txn →
      x'.content.record hedTable table = x.content.record hedTable table := by
    intro htxn
    rw [htxn, hx] at hx'
    rw [Option.some.inj hx']
  have hworks : ∀ {txn : Txn} {c : Content}, repo.txn = some txn →
      repo'.txn = some (txn.withContent c) →
      c.record hedTable table = txn.content.record hedTable table →
      x'.content.record hedTable table = x.content.record hedTable table := by
    intro txn c htxn htxn' hrecord
    obtain rfl := Option.some.inj (hx.symm.trans htxn)
    obtain rfl := Option.some.inj (hx'.symm.trans htxn')
    apply hrecord
  cases h with
  | opened => cases hin
  | unopened => cases hin
  | closed => cases hx'
  | unclosed => apply hsame rfl
  | reloaded env_ne txn_none => simp [txn_none] at hx
  | rolledBack => cases hin
  | started env_ne txn_none => simp [txn_none] at hx
  | unstarted env_ne txn_none => simp [txn_none] at hx
  | committed => cases hx'
  | uncommitted => cases hx'
  | aborted => cases hx'
  | read => apply hsame rfl
  | wrote write txn_eq content =>
      apply hworks txn_eq rfl (record_write write hop content htable)
  | unwritten => apply hsame rfl
  | @counted table' txn old c t txn_eq record length content clean =>
      apply hworks txn_eq rfl
      rw [Content.record_update content, if_neg]
      rintro ⟨-, rfl⟩
      apply hnot rfl
  | uncounted => apply hsame rfl

/-- Asking for the next number. -/
theorem Effect.nextSeq (h : Effect repo3pc repo w (.hedRepoNextSeq table) t result repo' w') :
  ∃ txn, repo.txn = some txn
    ∧ ((∃ old c, txn.content.record hedTable table = some old ∧ old.length = 4
        ∧ c.record hedTable table = some (encode32 ((decode32 old + 1) % 4294967296))
        ∧ result = .seq ((decode32 old + 1) % 4294967296) ∧ repo' = repo.work txn c ∧ Clean t)
      ∨ (result = .seq 0 ∧ repo' = repo
        ∧ (txn.content.record hedTable table = none ∨ ¬ Clean t)))
  := by
  cases h with
  | read reads => cases reads
  | wrote write => cases write
  | unwritten write => cases write
  | @counted table' txn old c t txn_eq record length content clean =>
      have hafter : c.record hedTable table
          = some (encode32 ((decode32 old + 1) % 4294967296)) := by
        rw [Content.record_update content, if_pos ⟨rfl, rfl⟩]
      use txn, txn_eq
      left
      exact ⟨old, c, record, length, hafter, rfl, rfl, clean⟩
  | @uncounted table' txn t txn_eq cause =>
      use txn, txn_eq
      right
      exact ⟨rfl, rfl, cause⟩

end Effects

/-! ### The record as a counter -/

/-- The numbers of a table, committed and in the transaction. -/
def Sys.counter (table : Bytes) (s : Sys) : Store ℕ :=
  s.store.map (fun c => (c.map (fun c => c.number table)).getD 0)

theorem working_counter {table : Bytes} {s : Sys} {n : ℕ}
    (h : (s.counter table).working = some n) :
  ∃ x, s.repo.txn = some x ∧ x.content.number table = n
  := by
  obtain ⟨c, hc, hn⟩ := Option.map_eq_some_iff.mp h
  obtain ⟨x, hx, rfl⟩ := Option.map_eq_some_iff.mp hc
  exact ⟨x, hx, hn⟩

theorem issued_of_ne {i : Invocation} {table : Bytes} (h : i.op ≠ .hedRepoNextSeq table) :
  i.issued table = none
  := by
  rw [Invocation.issued]
  split
  · rename_i table' n hop hresult
    rw [if_neg]
    rintro ⟨rfl, -⟩
    apply h hop
  · rfl

theorem issued_of_eq {i : Invocation} {table : Bytes} {n : ℕ}
    (hop : i.op = .hedRepoNextSeq table) (hresult : i.result = .seq n) :
  i.issued table = if n ≠ 0 then some n else none
  := by
  rw [Invocation.issued, hop, hresult]
  simp

/-- A call hands out a number above the one in the record, which becomes it, or hands out
nothing and keeps the record, unless the record is full. -/
theorem issued_cases {repo3pc : Bool} {table : Bytes} {i : Invocation}
    (h : Effect repo3pc i.before.repo i.before.world i.op i.trace i.result
      i.after.repo i.after.world)
    (hin : i.op.inSession = true) (hop : i.op.sparesHed = true) (htable : table ≠ versionKey)
    (hfull : NeverFull table i) {n n' : ℕ} (hn : (i.before.counter table).working = some n)
    (hn' : (i.after.counter table).working = some n') :
  (i.issued table = none ∧ n' = n) ∨ (i.issued table = some n' ∧ n < n')
  := by
  obtain ⟨x, hx, rfl⟩ := working_counter hn
  obtain ⟨x', hx', rfl⟩ := working_counter hn'
  by_cases hnext : i.op = .hedRepoNextSeq table
  · rw [hnext] at h
    obtain ⟨txn, htxn, ⟨old, c, hrecord, -, hafter, hresult, hrepo, hclean⟩
      | ⟨hresult, hrepo, -⟩⟩ := h.nextSeq
    · obtain rfl := Option.some.inj (hx.symm.trans htxn)
      have hlt := hfull hnext hclean x old hx hrecord
      have hbound := decode32_lt old
      have hmod : (decode32 old + 1) % 4294967296 = decode32 old + 1 := by omega
      rw [hrepo, HedRepo.work_txn] at hx'
      obtain rfl := Option.some.inj hx'
      have hnumber : x.content.number table = decode32 old := by
        rw [Content.number, hrecord]
        rfl
      have hnumber' : (x.withContent c).content.number table = decode32 old + 1 := by
        have hc : (x.withContent c).content.record hedTable table
          = some (encode32 (decode32 old + 1)) := by rwa [hmod] at hafter
        rw [Content.number, hc, Option.map_some, decode32_encode32 (by omega)]
        rfl
      rw [hnumber, hnumber', issued_of_eq hnext hresult, hmod, if_pos (by omega)]
      right
      use rfl
      omega
    · rw [hrepo, hx] at hx'
      obtain rfl := Option.some.inj hx'
      rw [issued_of_eq hnext hresult]
      left
      exact ⟨rfl, rfl⟩
  · left
    use issued_of_ne hnext
    rw [Content.number, h.keeps_record hin hop htable hnext hx hx', Content.number]

/-! ### Asking for a number never halts -/

section Safe

variable {repo : HedRepo} {env : Env} {txn : Txn} (henv : repo.env = some env)
  (htxn : repo.txn = some txn) (w : World)
include henv htxn

theorem safe_hedRepoGet (table : Bytes) {key : Bytes} (hkey : key ≠ []) :
  Safe handle (hedRepoGet repo table key) w
  := by
  apply safe_require_bind handle hkey
  apply safe_bind handle (safe_repoDbiOpen henv htxn w table 0)
  apply wp_of_forall
  rintro t (e | ⟨dbi, txn'⟩) w'
  · trivial
  · apply safe_bind handle (safe_ask handle _ _)
    apply wp_of_forall
    intro t' ret w''
    trivial

theorem safe_hedRepoUpdate (table : Bytes) {key value : Bytes} (hkey : key ≠ [])
    (hvalue : value ≠ []) :
  Safe handle (hedRepoUpdate repo table key value) w
  := by
  apply safe_require_bind handle hkey
  apply safe_require_bind handle hvalue
  apply safe_bind handle (safe_repoDbiOpen henv htxn w table 0)
  apply wp_of_forall
  rintro t (e | ⟨dbi, txn'⟩) w'
  · trivial
  · apply safe_bind handle (safe_ask handle _ _)
    apply wp_of_forall
    rintro t' (e | txn'') w''
    · trivial
    · trivial

/-- The assertion of `hed_repo_next_seq` holds if the record has four bytes. -/
theorem safe_hedRepoNextSeq {table : Bytes} (htable : table ≠ [])
    (hlength : ∀ old, txn.content.record hedTable table = some old → old.length = 4) :
  Safe handle (hedRepoNextSeq repo table) w
  := by
  apply safe_bind handle (safe_hedRepoGet henv htxn w hedTable htable)
  apply wp_mono handle (hedRepoGet_spec htxn w hedTable table)
  rintro t ⟨_, _⟩ w' ⟨rfl, rfl, ⟨old, rfl, hold, -⟩ | ⟨⟨e, rfl⟩, -⟩⟩
  · apply safe_require_bind handle (hlength old hold)
    apply safe_bind handle
    · apply safe_hedRepoUpdate henv htxn _ _ htable
      rintro ⟨⟩
    · apply wp_of_forall
      rintro t' ⟨ret, repo'⟩ w''
      by_cases hret : ret ≠ 0
      · rw [if_pos hret]
        trivial
      · rw [if_neg hret]
        trivial
  · trivial

end Safe

/-! ### Sessions -/

section Session

variable {repo3pc : Bool} {table : List Bytes} {flags : Flags} {mode : ℕ} {before s s' : Sys}
  {is : List Invocation}

/-- The names of the tables of a session do not start with a dot. -/
theorem Session.ne_versionKey (h : Session repo3pc table flags mode before s is s') :
  ∀ T ∈ table, T ≠ versionKey
  := by
  obtain ⟨c, c', -, hsetup, -⟩ := h.opened.2.content
  rintro T hT rfl
  apply (Content.hasAll_setup hsetup).names _ hT
  rfl

/-- As long as no record is full, the numbers handed out increase. -/
theorem ledger_of_counter (h : Session repo3pc table flags mode before s is s')
    (hops : ∀ i ∈ is, i.op.inSession = true ∧ i.op.sparesHed = true) {T : Bytes}
    (hT : T ≠ versionKey) (hfull : ∀ i ∈ is, NeverFull T i) :
  (ledger T is).Of (s'.counter T)
  := by
  have hkeep := h.run.along (I := fun past s => Sound s.repo s.world
      ∧ (ledger T past).Of (s.counter T))
    (C := fun _ i => (i.op.inSession = true ∧ i.op.sparesHed = true) ∧ NeverFull T i)
    (P := fun _ _ => True) ⟨h.sound, Ledger.of_empty _⟩
  apply (hkeep _ (along_iff_forall_mem.mpr fun i hi => ⟨hops i hi, hfull i hi⟩)).1.2
  rintro past i s₁ s₂ ⟨hsound, hledger⟩ hinvokes ⟨⟨hin, hop⟩, hnever⟩
  have heffect := hinvokes.effect hsound
  have hmoves := (heffect.moves hsound hin).map
    (fun c => (c.map (fun c => c.number T)).getD 0)
  constructor
  · use hinvokes.sound hsound
    rw [ledger_snoc]
    apply hledger.next hmoves
    intro _ n n' hn hn'
    obtain rfl := hinvokes.before_eq
    obtain rfl := hinvokes.after_eq
    apply issued_cases heffect hin hop hT hnever hn hn'
  · trivial

/-- In every session, the numbers of every table are as a client expects exactly if the next
one is never asked for when the last one is `2^32 - 1`. -/
theorem sequenced_iff (h : Session repo3pc table flags mode before s is s')
    (hops : ∀ i ∈ is, i.op.inSession = true ∧ i.op.sparesHed = true) :
  ∀ T ∈ table, Sequenced T is ↔ ∀ i ∈ is, NeverFull T i
  := by
  intro T hT
  have hne : T ≠ versionKey := h.ne_versionKey T hT
  constructor
  · intro hseq i hi hop hclean x old hx hold hfull
    have heffect := h.effects i hi
    rw [hop] at heffect
    obtain ⟨txn, htxn, ⟨old', c, hrecord, -, hafter, hresult, hrepo, -⟩
      | ⟨-, -, hnone | hdirty⟩⟩ := heffect.nextSeq
    · obtain rfl := Option.some.inj (hx.symm.trans htxn)
      obtain rfl := Option.some.inj (hold.symm.trans hrecord)
      have hmod : (decode32 old + 1) % 4294967296 = 0 := by omega
      rw [hmod] at hafter hresult
      have hkeeps := hseq.zero i hi hop hresult x (x.withContent c) hx (by rw [hrepo]; rfl)
      have heq : some (encode32 0) = some old := hafter.symm.trans (hkeeps.trans hold)
      rw [← Option.some.inj heq] at hfull
      revert hfull
      decide
    · rw [Option.some.inj (hx.symm.trans htxn), hnone] at hold
      cases hold
    · apply hdirty hclean
  · intro hfull
    have hledger := ledger_of_counter h hops hne hfull
    constructor
    · apply hledger.increasing
    · intro i hi hnext x x' hx hx'
      apply (h.effects i hi).keeps_record (hops i hi).1 (hops i hi).2 hne hnext hx hx'
    · intro i hi hop hzero x x' hx hx'
      have heffect := h.effects i hi
      rw [hop] at heffect
      obtain ⟨txn, htxn, ⟨old, c, hrecord, -, hafter, hresult, hrepo, hclean⟩
        | ⟨-, hrepo, -⟩⟩ := heffect.nextSeq
      · exfalso
        have hlt := hfull i hi hop hclean txn old htxn hrecord
        have hbound := decode32_lt old
        have hseq : Result.seq ((decode32 old + 1) % 4294967296) = .seq 0 :=
          hresult.symm.trans hzero
        have hmod := Result.seq.inj hseq
        omega
      · rw [hrepo, hx] at hx'
        rw [Option.some.inj hx']

/-- A client whose transactions are aborted and committed. -/
def abortedSeq : List (Op × List Fate) :=
  [(.hedRepoStart, []), (.hedRepoNextSeq [0x75], []), (.hedRepoNextSeq [0x75], []),
    (.hedRepoAbort, []), (.hedRepoStart, []), (.hedRepoNextSeq [0x75], []), (.hedRepoCommit, [])]

/-- The session of that client. -/
def abortedSession : Sys × List Invocation × Sys :=
  (Sys.fresh.playSession false [[0x75]] (O_RDWR ||| O_CREAT ||| O_TRUNC) 0 [] abortedSeq).get rfl

theorem playSession_abortedSeq :
  Sys.fresh.playSession false [[0x75]] (O_RDWR ||| O_CREAT ||| O_TRUNC) 0 [] abortedSeq
    = some abortedSession
  := (Option.some_get _).symm

theorem sequenced_iff_abortedSeq :
  Sequenced [0x75] abortedSession.2.1 ↔ ∀ i ∈ abortedSession.2.1, NeverFull [0x75] i
  := by
  apply sequenced_iff (session_of_play playSession_abortedSeq) _ [0x75] (List.mem_singleton_self _)
  apply ops_of_playSession (P := fun op => op.inSession = true ∧ op.sparesHed = true)
    playSession_abortedSeq (by decide)

end Session

/-! ### Counting up to the end -/

/-- The record of a table in the transaction holds the number `n`. -/
structure Counting (T : Bytes) (n : ℕ) (s : Sys) : Prop where
  sound : Sound s.repo s.world
  record : ∃ x, s.repo.txn = some x ∧ x.content.record hedTable T = some (encode32 n)

/-- Asking for the next number, when nothing fails. -/
theorem Counting.next {T : Bytes} {n : ℕ} {s : Sys} (h : Counting T n s) (hT : T ≠ [])
    (hn : n < 4294967296) (repo3pc : Bool) :
  ∃ i, Invokes repo3pc s i i.after ∧ i.op = .hedRepoNextSeq T
    ∧ i.result = .seq ((n + 1) % 4294967296) ∧ Counting T ((n + 1) % 4294967296) i.after
  := by
  obtain ⟨x, hx, hrecord⟩ := h.record
  have henv : s.repo.env ≠ none := h.sound.no_env (by simp [hx])
  obtain ⟨env, henv⟩ := Option.ne_none_iff_exists'.mp henv
  have hsafe : Safe handle (Op.run repo3pc s.repo (.hedRepoNextSeq T)) s.world := by
    apply safe_bind handle
    · apply safe_hedRepoNextSeq henv hx s.world hT
      intro old hold
      rw [← Option.some.inj (hrecord.symm.trans hold)]
      rfl
    · apply wp_of_forall
      intro t r w
      trivial
  obtain ⟨i, hinvokes, hop, hclean⟩ := invokes_of_safe hsafe
  have heffect := hinvokes.effect h.sound
  rw [hop] at heffect
  obtain ⟨txn, htxn, ⟨old, c, hold, -, hafter, hresult, hrepo, -⟩
    | ⟨-, -, hnone | hdirty⟩⟩ := heffect.nextSeq
  · obtain rfl := Option.some.inj (hx.symm.trans htxn)
    obtain rfl := Option.some.inj (hrecord.symm.trans hold)
    rw [decode32_encode32 hn] at hafter hresult
    use i, hinvokes, hop, hresult
    constructor
    · apply hinvokes.sound h.sound
    · exact ⟨x.withContent c, by rw [hrepo]; rfl, hafter⟩
  · rw [← Option.some.inj (hx.symm.trans htxn), hrecord] at hnone
    cases hnone
  · apply (hdirty hclean).elim

/-- A client that keeps asking gets to every number. -/
theorem Counting.reach {T : Bytes} {s : Sys} (h : Counting T 0 s) (hT : T ≠ [])
    (repo3pc : Bool) {n : ℕ} (hn : n < 4294967296) :
  ∃ is s', Run (Invokes repo3pc) s is s' ∧ (∀ i ∈ is, i.op = .hedRepoNextSeq T)
    ∧ Counting T n s'
  := by
  induction n with
  | zero =>
      use [], s, Run.nil
      constructor
      · rintro i ⟨⟩
      · apply h
  | succ n ih =>
      obtain ⟨is, s', hrun, hops, hcounting⟩ := ih (by omega)
      obtain ⟨i, hinvokes, hop, -, hnext⟩ := hcounting.next hT (by omega) repo3pc
      rw [Nat.mod_eq_of_lt hn] at hnext
      use is ++ [i], i.after, hrun.snoc hinvokes
      constructor
      · intro j hj
        rcases List.mem_append.mp hj with hj' | hj'
        · apply hops j hj'
        · rw [List.mem_singleton.mp hj', hop]
      · apply hnext

/-- The session of a client that starts a transaction. -/
def startedSession : Sys × List Invocation × Sys :=
  (Sys.fresh.playSession false [[0x75]] (O_RDWR ||| O_CREAT ||| O_TRUNC) 0 []
    [(.hedRepoStart, [])]).get rfl

theorem playSession_started :
  Sys.fresh.playSession false [[0x75]] (O_RDWR ||| O_CREAT ||| O_TRUNC) 0 []
    [(.hedRepoStart, [])] = some startedSession
  := (Option.some_get _).symm

theorem counting_started :
  Counting [0x75] 0 startedSession.2.2
  := by
  have hsession := session_of_play playSession_started
  constructor
  · apply (run_effects hsession.sound hsession.run).1
  · have hrecord : startedSession.2.2.repo.txn.map (fun x => x.content.record hedTable [0x75])
        = some (some (encode32 0)) := by decide +kernel
    apply Option.map_eq_some_iff.mp hrecord

/-- A client that asks `2^32` times is told of an error by a call that has set the record to
zero. -/
theorem sequence_wraps_around :
  ¬ ∀ (repo3pc : Bool) (table : List Bytes) (flags : Flags) (mode : ℕ) (before s s' : Sys)
      (is : List Invocation), flags &&& O_TRUNC ≠ 0 →
      Session repo3pc table flags mode before s is s' →
      (∀ i ∈ is, i.op.inSession = true ∧ i.op.sparesHed = true) →
      ∀ T ∈ table, Sequenced T is
  := by
  intro hall
  have hstarted := session_of_play playSession_started
  have hnil : ([0x75] : Bytes) ≠ [] := by decide
  obtain ⟨is, s', hrun, hops, hcounting⟩ :=
    counting_started.reach hnil false (n := 4294967295) (by decide)
  obtain ⟨i, hinvokes, hop, hresult, hnext⟩ := hcounting.next hnil (by decide) false
  have hsession : Session false [[0x75]] (O_RDWR ||| O_CREAT ||| O_TRUNC) 0 Sys.fresh
      startedSession.1 (startedSession.2.1 ++ (is ++ [i])) i.after := by
    use hstarted.opening
    apply hstarted.run.append (hrun.snoc hinvokes)
  have hcalls : ∀ j ∈ startedSession.2.1 ++ (is ++ [i]),
      j.op.inSession = true ∧ j.op.sparesHed = true := by
    intro j hj
    rcases List.mem_append.mp hj with hj' | hj'
    · apply ops_of_playSession (P := fun op => op.inSession = true ∧ op.sparesHed = true)
        playSession_started (by decide) j hj'
    · have hjop : j.op = .hedRepoNextSeq [0x75] := by
        rcases List.mem_append.mp hj' with hj'' | hj''
        · apply hops j hj''
        · rw [List.mem_singleton.mp hj'', hop]
      rw [hjop]
      exact ⟨rfl, rfl⟩
  have hseq := hall _ _ _ _ _ _ _ _ (by decide) hsession hcalls [0x75] (by simp)
  obtain ⟨x, hx, hrecord⟩ := hcounting.record
  obtain ⟨x', hx', hrecord'⟩ := hnext.record
  rw [← hinvokes.before_eq] at hx
  have hkeeps := hseq.zero i (by simp) hop hresult x x' hx hx'
  rw [hrecord, hrecord'] at hkeeps
  revert hkeeps
  decide

end Hed
