import Hed.Repo.Rollback
import Hed.Repo.Sequence

/-!
# The records of registered tables

A table comes into being in any opening with `O_CREAT`, its record in `".hed"` in an opening
with `O_TRUNC` only, which also removes the records of all other tables.  So the tables that
have records are those that the last opening with `O_TRUNC` listed.
-/

namespace Hed

open Program

/-! ### Records after opening -/

namespace Content

variable {c c' : Content} {flags : Flags} {table key : Bytes} {tables : List Bytes}

/-- Opening another table keeps the records of a table. -/
theorem record_openTable (h : c.openTable flags table = some c') {table' : Bytes}
    (htable : table' ≠ table) :
  c'.record table' key = c.record table' key
  := by
  rw [openTable] at h
  split_ifs at h with hhas htrunc hcreat
  · obtain rfl := Option.some.inj h
    rw [record_put, if_neg htable]
  · obtain rfl := Option.some.inj h
    rfl
  · obtain rfl := Option.some.inj h
    rw [record_put, if_neg htable]

/-- Opening a table without `O_TRUNC` keeps its records. -/
theorem record_openTable_keep (h : c.openTable flags table = some c')
    (htrunc : flags &&& O_TRUNC = 0) (hname : table ≠ []) :
  c'.record table key = c.record table key
  := by
  rw [openTable] at h
  split_ifs at h with hhas htrunc' hcreat
  · apply (htrunc' htrunc).elim
  · obtain rfl := Option.some.inj h
    rfl
  · obtain rfl := Option.some.inj h
    have hnone : c.get table = none := by
      rw [← Option.not_isSome_iff_eq_none]
      intro hsome
      apply hhas ⟨hname, hsome⟩
    rw [record_put, if_pos rfl, record, hnone]
    rfl

/-- Opening a table with `O_TRUNC` leaves no record in it. -/
theorem record_openTable_trunc (h : c.openTable flags table = some c')
    (htrunc : flags &&& O_TRUNC ≠ 0) :
  c'.record table key = none
  := by
  rw [openTable] at h
  split_ifs at h with hhas hcreat
  · obtain rfl := Option.some.inj h
    rw [record_put, if_pos rfl]
    rfl
  · obtain rfl := Option.some.inj h
    rw [record_put, if_pos rfl]
    rfl

/-- Opening the listed tables keeps the records of `".hed"`. -/
theorem record_openTables (h : openTables flags c tables = some c') :
  c'.record hedTable key = c.record hedTable key
  := by
  apply openTables_keeps (P := fun d => d.record hedTable key = c.record hedTable key) _ h rfl
  intro table _ hname d d' hopen hd
  have htable : hedTable ≠ table := by
    rintro rfl
    apply hname
    rfl
  rw [record_openTable hopen htable, hd]

/-- The records of `".hed"` after the sequence numbers have been written. -/
theorem record_initSeqs (h : c.initSeqs tables = some c') :
  c'.record hedTable key = if key ∈ tables then some (encode32 0) else c.record hedTable key
  := by
  induction tables generalizing c with
  | nil =>
      obtain rfl := Option.some.inj h
      simp
  | cons table rest ih =>
      obtain ⟨c₁, hupdate, hrest⟩ := Option.bind_eq_some_iff.mp h
      rw [ih hrest, record_update hupdate]
      by_cases hrest' : key ∈ rest
      · simp [hrest']
      · by_cases hkey : key = table
        · simp [hkey]
        · simp [hrest', hkey]

/-- Opening without `O_TRUNC` keeps the records of `".hed"`. -/
theorem record_setup_keep (h : c.setup flags tables = some c') (htrunc : flags &&& O_TRUNC = 0) :
  c'.record hedTable key = c.record hedTable key
  := by
  obtain ⟨c₁, c₂, hhed, htables, hinit⟩ := setup_eq_some_iff.mp h
  rw [if_neg (fun hne => hne htrunc)] at hinit
  obtain rfl := Option.some.inj hinit
  rw [record_openTables htables, record_openTable_keep hhed htrunc (by decide)]

/-- Opening with `O_TRUNC` leaves the zero records of the listed tables in `".hed"`. -/
theorem record_setup_trunc (h : c.setup flags tables = some c') (htrunc : flags &&& O_TRUNC ≠ 0) :
  c'.record hedTable key = if key ∈ tables then some (encode32 0) else none
  := by
  obtain ⟨c₁, c₂, hhed, htables, hinit⟩ := setup_eq_some_iff.mp h
  rw [if_pos htrunc] at hinit
  rw [record_initSeqs hinit, record_openTables htables, record_openTable_trunc hhed htrunc]

/-- A content has a sequence record of four bytes for a table. -/
def Recorded (c : Content) (table : Bytes) : Prop :=
  ∃ b, c.record hedTable table = some b ∧ b.length = 4

/-- The tables that have a sequence record, of those whose names do not start with a dot. -/
def RecordsOf (c : Content) (tables : List Bytes) : Prop :=
  ∀ table, table.head? ≠ some dot →
    if table ∈ tables then c.Recorded table else c.record hedTable table = none

theorem RecordsOf.of_eq (h : c.RecordsOf tables)
    (heq : ∀ table, table.head? ≠ some dot →
      c'.record hedTable table = c.record hedTable table) :
  c'.RecordsOf tables
  := by
  intro table htable
  rw [Recorded, heq table htable]
  apply h table htable

theorem recordsOf_setup (h : c.setup flags tables = some c') {ts : List Bytes}
    (hc : c.RecordsOf ts) :
  c'.RecordsOf (if flags &&& O_TRUNC ≠ 0 then tables else ts)
  := by
  split_ifs with htrunc
  · intro table _
    rw [Recorded, record_setup_trunc h htrunc]
    split_ifs with hmem
    · exact ⟨encode32 0, rfl, rfl⟩
    · rfl
  · rw [not_not] at htrunc
    apply hc.of_eq
    intro table _
    apply record_setup_keep h htrunc

/-- Writing the next number keeps what records there are. -/
theorem RecordsOf.update (h : c.RecordsOf tables) {n : ℕ} {old : Bytes}
    (hold : c.record hedTable table = some old)
    (hc : c.update hedTable table (encode32 n) = some c') :
  c'.RecordsOf tables
  := by
  intro table' htable'
  by_cases heq : table' = table
  · obtain rfl := heq
    have hrec := h table' htable'
    have hafter : c'.record hedTable table' = some (encode32 n) := by
      rw [record_update hc, if_pos ⟨rfl, rfl⟩]
    split_ifs with hmem
    · exact ⟨encode32 n, hafter, rfl⟩
    · rw [if_neg hmem, hold] at hrec
      cases hrec
  · have hsame : c'.record hedTable table' = c.record hedTable table' := by
      rw [record_update hc, if_neg (fun h => heq h.2)]
    rw [Recorded, hsame]
    apply h table' htable'

end Content

/-! ### The history of openings -/

/-- The tables that the last successful opening with `O_TRUNC` listed. -/
def sequenced (past : List Invocation) : List Bytes :=
  past.foldl (fun tables i =>
    match i.op with
    | .hedRepoOpen table flags _ =>
        if i.result = .code 0 ∧ flags &&& O_TRUNC ≠ 0 then table else tables
    | _ => tables) []

/-- The last opening succeeded. -/
def openedLast (past : List Invocation) : Bool :=
  past.foldl (fun opened i =>
    match i.op with
    | .hedRepoOpen _ _ _ => i.result = .code 0
    | _ => opened) false

theorem sequenced_snoc_open (past : List Invocation) {i : Invocation} {table : List Bytes}
    {flags : Flags} {mode : ℕ} (hop : i.op = .hedRepoOpen table flags mode) :
  sequenced (past ++ [i])
    = if i.result = .code 0 ∧ flags &&& O_TRUNC ≠ 0 then table else sequenced past
  := by
  simp only [sequenced, List.foldl_append, List.foldl_cons, List.foldl_nil, hop]

theorem openedLast_snoc_open (past : List Invocation) {i : Invocation} {table : List Bytes}
    {flags : Flags} {mode : ℕ} (hop : i.op = .hedRepoOpen table flags mode) :
  openedLast (past ++ [i]) = decide (i.result = .code 0)
  := by
  simp only [openedLast, List.foldl_append, List.foldl_cons, List.foldl_nil, hop]

theorem sequenced_snoc (past : List Invocation) {i : Invocation}
    (hop : i.op.opensNothing = true) :
  sequenced (past ++ [i]) = sequenced past
  := by
  simp only [sequenced, List.foldl_append, List.foldl_cons, List.foldl_nil]
  split
  · rename_i heq
    rw [heq] at hop
    cases hop
  · rfl

theorem openedLast_snoc (past : List Invocation) {i : Invocation}
    (hop : i.op.opensNothing = true) :
  openedLast (past ++ [i]) = openedLast past
  := by
  simp only [openedLast, List.foldl_append, List.foldl_cons, List.foldl_nil]
  split
  · rename_i heq
    rw [heq] at hop
    cases hop
  · rfl

/-! ### What every run keeps -/

/-- The operations of a client that neither rolls back nor writes to `".hed"` directly. -/
def Op.registers (op : Op) : Bool := op ≠ .hedRepoRollback ∧ op.sparesHed = true

/-- The records there are, committed and in the transaction, are those of the last opening
with `O_TRUNC`; and after an opening that succeeded, the names of the tables are proper. -/
structure Registers (past : List Invocation) (s : Sys) : Prop where
  sound : Sound s.repo s.world
  committed : ∃ c, s.world.content = some c ∧ c.RecordsOf (sequenced past)
  working : ∀ x, s.repo.txn = some x → x.content.RecordsOf (sequenced past)
  names : openedLast past = true → ∀ T ∈ s.repo.table, T ≠ [] ∧ T.head? ≠ some dot

theorem Effect.table_eq {repo3pc : Bool} {repo repo' : HedRepo} {w w' : World} {op : Op}
    {t : List (Event calls Fate)} {result : Result}
    (h : Effect repo3pc repo w op t result repo' w') (hop : op.opensNothing = true) :
  repo'.table = repo.table
  := by
  have hclosed := congrArg HedRepo.table (h.closed_eq hop)
  exact hclosed

/-- A call that opens nothing keeps the records of the transaction. -/
theorem Effect.records_working {repo3pc : Bool} {repo repo' : HedRepo} {w w' : World} {op : Op}
    {t : List (Event calls Fate)} {result : Result} {tables : List Bytes}
    (h : Effect repo3pc repo w op t result repo' w') (hop : op.opensNothing = true)
    (hspares : op.sparesHed = true) (hnot : op ≠ .hedRepoRollback)
    (hc : ∀ c, w.content = some c → c.RecordsOf tables)
    (hx : ∀ x, repo.txn = some x → x.content.RecordsOf tables) :
  ∀ x, repo'.txn = some x → x.content.RecordsOf tables
  := by
  cases h with
  | opened => cases hop
  | unopened => cases hop
  | closed =>
      rintro x ⟨⟩
  | unclosed => apply hx
  | reloaded env_ne txn_none frees opens =>
      intro x hx'
      have hnone := opens.txn_eq
      rw [hx'] at hnone
      cases hnone
  | rolledBack => apply (hnot rfl).elim
  | started env_ne txn_none content =>
      rintro x ⟨⟩
      apply hc _ content
  | unstarted => apply hx
  | committed =>
      rintro x ⟨⟩
  | uncommitted =>
      rintro x ⟨⟩
  | aborted =>
      rintro x ⟨⟩
  | read => apply hx
  | wrote write txn_eq content =>
      rintro x ⟨⟩
      apply (hx _ txn_eq).of_eq
      intro table htable
      apply record_write write hspares content
      rintro rfl
      apply htable rfl
  | unwritten => apply hx
  | counted txn_eq record length content =>
      rintro x ⟨⟩
      apply (hx _ txn_eq).update record content
  | uncounted => apply hx

/-- A call that opens nothing keeps what `Registers` says. -/
theorem Registers.next_of_opensNothing {repo3pc : Bool} {past : List Invocation} {s s' : Sys}
    {i : Invocation} (h : Registers past s) (hinvokes : Invokes repo3pc s i s')
    (hop : i.op.registers = true) (hopens : i.op.opensNothing = true) :
  Registers (past ++ [i]) s'
  := by
  have heffect := hinvokes.effect h.sound
  obtain ⟨hnot, hspares⟩ : i.op ≠ .hedRepoRollback ∧ i.op.sparesHed = true := by
    simpa [Op.registers] using hop
  obtain ⟨c, hc, hrecords⟩ := h.committed
  have htxn := heffect.records_working hopens hspares hnot (fun c' hc' => by
    rw [← Option.some.inj (hc.symm.trans hc')]
    apply hrecords) h.working
  have hin : i.op.inSession = true := by
    revert hopens hnot
    cases i.op with
    | hedRepoOpen table flags mode => simp [Op.opensNothing]
    | hedRepoRollback => simp
    | _ => simp [Op.inSession]
  constructor
  · apply hinvokes.sound h.sound
  · rw [sequenced_snoc past hopens]
    have hmoves := heffect.moves h.sound hin
    by_cases hcommit : i.op.move i.result = .commit
    · rw [hcommit] at hmoves
      obtain ⟨x, hx, hcontent⟩ := Option.map_eq_some_iff.mp hmoves.committed_of_commit
      exact ⟨x.content, hcontent.symm, h.working x hx⟩
    · exact ⟨c, (hmoves.committed_eq hcommit).trans hc, hrecords⟩
  · rw [sequenced_snoc past hopens]
    apply htxn
  · rw [openedLast_snoc past hopens, heffect.table_eq hopens]
    apply h.names

/-- A `hed_repo_open` that succeeds keeps what `Registers` says. -/
theorem Registers.next_opened {repo3pc : Bool} {past : List Invocation} {s s' : Sys}
    {i : Invocation} {table : List Bytes} {flags : Flags} {mode : ℕ} (h : Registers past s)
    (hinvokes : Invokes repo3pc s i s') (hi : i.op = .hedRepoOpen table flags mode)
    (hret : i.result = .code 0) :
  Registers (past ++ [i]) s'
  := by
  obtain ⟨c, hc, hrecords⟩ := h.committed
  have hopening := (hinvokes.opened hi hret).2
  obtain ⟨env, hrepo, -⟩ := hopening.handle
  obtain ⟨c₁, c', hc₁, hsetup, hc', -⟩ := hopening.content
  obtain rfl := Option.some.inj (hc.symm.trans hc₁)
  have hnone : s'.repo.txn = none := by
    rw [hrepo]
    rfl
  constructor
  · apply hinvokes.sound h.sound
  · rw [sequenced_snoc_open past hi]
    use c', hc'
    simpa [hret] using Content.recordsOf_setup hsetup hrecords
  · simp [hnone]
  · intro _ T hT
    have htable : s'.repo.table = table := by
      rw [hrepo]
      rfl
    rw [htable] at hT
    use ((Content.hasAll_setup hsetup).listed T hT).1
    apply (Content.hasAll_setup hsetup).names T hT

/-- A `hed_repo_open` that fails keeps what `Registers` says. -/
theorem Registers.next_unopened {repo3pc : Bool} {past : List Invocation} {s s' : Sys}
    {i : Invocation} {table : List Bytes} {flags : Flags} {mode : ℕ} (h : Registers past s)
    (hinvokes : Invokes repo3pc s i s') (hi : i.op = .hedRepoOpen table flags mode)
    (hret : i.result ≠ .code 0) :
  Registers (past ++ [i]) s'
  := by
  have hsound := hinvokes.sound h.sound
  have heffect := hinvokes.effect h.sound
  rw [hi] at heffect
  obtain ⟨c, hc, hrecords⟩ := h.committed
  have hfailed : s'.world.content = s.world.content ∧ s'.repo.txn = none := by
    obtain ⟨repo, w⟩ := s
    obtain ⟨repo', w'⟩ := s'
    obtain ⟨before, op, t, result, after⟩ := i
    simp only at heffect hret
    cases heffect with
    | opened => apply (hret rfl).elim
    | unopened admits ret_ne content txn_none => exact ⟨content, txn_none⟩
    | read reads => cases reads
    | wrote write => cases write
    | unwritten write => cases write
  constructor
  · apply hsound
  · rw [sequenced_snoc_open past hi, if_neg (fun h => hret h.1), hfailed.1]
    exact ⟨c, hc, hrecords⟩
  · simp [hfailed.2]
  · rw [openedLast_snoc_open past hi, decide_eq_false hret]
    rintro ⟨⟩

/-- Every call keeps what `Registers` says. -/
theorem Registers.next {repo3pc : Bool} {past : List Invocation} {s s' : Sys} {i : Invocation}
    (h : Registers past s) (hinvokes : Invokes repo3pc s i s') (hop : i.op.registers = true) :
  Registers (past ++ [i]) s'
  := by
  cases hi : i.op with
  | hedRepoOpen table flags mode =>
      by_cases hret : i.result = .code 0
      · apply h.next_opened hinvokes hi hret
      · apply h.next_unopened hinvokes hi hret
  | _ =>
      apply h.next_of_opensNothing hinvokes hop
      rw [hi]
      rfl

/-! ### What a client relies on -/

/-- Every registered table has a record of four bytes, so `hed_repo_next_seq` finds it and
its assertion holds. -/
structure Serves (s : Sys) : Prop where
  records : ∀ c, s.world.content = some c → ∀ T ∈ s.repo.table, c.Recorded T
  found : ∀ x, s.repo.txn = some x → ∀ T ∈ s.repo.table, x.content.Recorded T
  safe : s.repo.txn ≠ none → ∀ T ∈ s.repo.table, Safe handle (hedRepoNextSeq s.repo T) s.world

/-- Tables that have records serve. -/
theorem Registers.serves {past : List Invocation} {s : Sys} (h : Registers past s)
    (hopened : openedLast past = true) (htables : ∀ T ∈ s.repo.table, T ∈ sequenced past) :
  Serves s
  := by
  have hrecorded : ∀ {c : Content}, c.RecordsOf (sequenced past) →
      ∀ T ∈ s.repo.table, c.Recorded T := by
    intro c hc T hT
    have hrec := hc T (h.names hopened T hT).2
    rwa [if_pos (htables T hT)] at hrec
  constructor
  · intro c hc
    obtain ⟨c', hc', hrecords⟩ := h.committed
    obtain rfl := Option.some.inj (hc.symm.trans hc')
    apply hrecorded hrecords
  · intro x hx
    apply hrecorded (h.working x hx)
  · intro hne T hT
    obtain ⟨x, hx⟩ := Option.ne_none_iff_exists'.mp hne
    obtain ⟨env, henv⟩ := Option.ne_none_iff_exists'.mp (h.sound.no_env hne)
    apply safe_hedRepoNextSeq henv hx _ (h.names hopened T hT).1
    intro old hold
    obtain ⟨b, hb, hlength⟩ := hrecorded (h.working x hx) T hT
    rw [Option.some.inj (hold.symm.trans hb)]
    apply hlength

/-- From an opening that succeeds to the next opening, the client is served. -/
def ServesAfter (past : List Invocation) (i : Invocation) : Prop :=
  openedLast (past ++ [i]) = true → Serves i.after

/-- An opening that succeeds has `O_TRUNC`, or lists tables only that the last successful
opening with `O_TRUNC` listed. -/
def ListsSequenced (past : List Invocation) (i : Invocation) : Prop :=
  ∀ table flags mode, i.op = .hedRepoOpen table flags mode → i.result = .code 0 →
    flags &&& O_TRUNC = 0 → ∀ T ∈ table, T ∈ sequenced past

/-- The tables of the repository have records. -/
def TablesSequenced (past : List Invocation) (s : Sys) : Prop :=
  openedLast past = true → ∀ T ∈ s.repo.table, T ∈ sequenced past

theorem tablesSequenced_next {repo3pc : Bool} {past : List Invocation} {s s' : Sys}
    {i : Invocation} (h : Registers past s) (htables : TablesSequenced past s)
    (hinvokes : Invokes repo3pc s i s') (hlists : ListsSequenced past i) :
  TablesSequenced (past ++ [i]) s'
  := by
  by_cases hopens : i.op.opensNothing = true
  · rw [TablesSequenced, openedLast_snoc past hopens, sequenced_snoc past hopens,
      (hinvokes.effect h.sound).table_eq hopens]
    apply htables
  · cases hi : i.op with
    | hedRepoOpen table flags mode =>
        rw [TablesSequenced, openedLast_snoc_open past hi, sequenced_snoc_open past hi]
        intro hopened T hT
        have hret : i.result = .code 0 := of_decide_eq_true hopened
        obtain ⟨env, hrepo, -⟩ := (hinvokes.opened hi hret).2.handle
        have htable : s'.repo.table = table := by
          rw [hrepo]
          rfl
        rw [htable] at hT
        split_ifs with htrunc
        · apply hT
        · apply hlists table flags mode hi hret _ T hT
          by_contra hne
          apply htrunc ⟨hret, hne⟩
    | _ =>
        rw [hi] at hopens
        apply (hopens rfl).elim

section Run

variable {repo3pc : Bool} {s s' : Sys} {is : List Invocation}

theorem registers_nil (hdata : s.world.data = none) (henv : s.repo.env = none)
    (htxn : s.repo.txn = none) :
  Registers [] s
  := by
  constructor
  · apply Sound.of_closed henv htxn
  · use ∅
    constructor
    · rw [World.content, hdata]
      rfl
    · intro table _
      rfl
  · simp [htxn]
  · rintro ⟨⟩

/-- In every run from a path with no repository, clients are served exactly if every opening
that succeeds has `O_TRUNC`, or lists tables only that the last successful opening with
`O_TRUNC` listed. -/
theorem serves_iff (hdata : s.world.data = none) (henv : s.repo.env = none)
    (htxn : s.repo.txn = none) (hrun : Run (Invokes repo3pc) s is s')
    (hops : ∀ i ∈ is, i.op.registers = true) :
  Along ServesAfter is ↔ Along ListsSequenced is
  := by
  have hregisters := along_iff_forall_mem.mpr hops
  constructor
  · intro hserves
    have hkeep := hrun.along (I := Registers)
      (C := fun past i => i.op.registers = true ∧ ServesAfter past i) (P := ListsSequenced)
      (registers_nil hdata henv htxn)
    apply (hkeep _ (fun past i post h => ⟨hregisters past i post h, hserves past i post h⟩)).2
    rintro past i s₁ s₂ hpast hinvokes ⟨hop, hafter⟩
    have hnext := hpast.next hinvokes hop
    use hnext
    intro table flags mode hi hret htrunc T hT
    have hopened : openedLast (past ++ [i]) = true := by
      rw [openedLast_snoc_open past hi]
      apply decide_eq_true hret
    obtain ⟨env, hrepo, -⟩ := (hinvokes.opened hi hret).2.handle
    have hT' : T ∈ s₂.repo.table := by
      rw [hrepo]
      apply hT
    obtain ⟨c, hc, hrecords⟩ := hnext.committed
    have hserved := hafter hopened
    rw [hinvokes.after_eq] at hserved
    obtain ⟨b, hb, -⟩ := hserved.records c hc T hT'
    have hsame : sequenced (past ++ [i]) = sequenced past := by
      rw [sequenced_snoc_open past hi, if_neg (fun h => h.2 htrunc)]
    rw [hsame] at hrecords
    have hrec := hrecords T (hnext.names hopened T hT').2
    by_contra hmem
    rw [if_neg hmem, hb] at hrec
    cases hrec
  · intro hlists
    have hkeep := hrun.along (I := fun past s => Registers past s ∧ TablesSequenced past s)
      (C := fun past i => i.op.registers = true ∧ ListsSequenced past i) (P := ServesAfter)
      ⟨registers_nil hdata henv htxn, by rintro ⟨⟩⟩
    apply (hkeep _ (fun past i post h => ⟨hregisters past i post h, hlists past i post h⟩)).2
    rintro past i s₁ s₂ ⟨hpast, htables⟩ hinvokes ⟨hop, hlisted⟩
    have hnext := hpast.next hinvokes hop
    have htables' := tablesSequenced_next hpast htables hinvokes hlisted
    use ⟨hnext, htables'⟩
    intro hopened
    rw [hinvokes.after_eq]
    apply hnext.serves hopened (htables' hopened)

/-- A client that opens a repository, and opens it again with another table. -/
def growing : List (Op × List Fate) :=
  [(.hedRepoOpen [[0x75]] (O_RDWR ||| O_CREAT ||| O_TRUNC) 0, []), (.hedRepoClose, []),
    (.hedRepoOpen [[0x75], [0x76]] (O_RDWR ||| O_CREAT) 0, [])]

/-- The run of that client. -/
def growingRun : List Invocation × Sys := (Sys.fresh.play false growing).get rfl

theorem play_growing :
  Sys.fresh.play false growing = some growingRun
  := (Option.some_get _).symm

theorem serves_iff_growing :
  Along ServesAfter growingRun.1 ↔ Along ListsSequenced growingRun.1
  := by
  apply serves_iff rfl rfl rfl (run_play play_growing)
  apply ops_of_play (P := fun op => op.registers = true) play_growing (by decide)

/-- Its second opening. -/
def growingOpen : Invocation :=
  growingRun.1.getLast (List.ne_nil_of_length_pos (by decide +kernel))

/-- The second opening of that client creates the new table, but no record for it. -/
theorem growing_not_served :
  ¬ ∀ (repo3pc : Bool) (s s' : Sys) (is : List Invocation), s.world.data = none →
      s.repo.env = none → s.repo.txn = none → Run (Invokes repo3pc) s is s' →
      (∀ i ∈ is, i.op.registers = true) → Along ServesAfter is
  := by
  intro hall
  have hops := ops_of_play (P := fun op => op.registers = true) play_growing (by decide)
  have hserves := hall _ _ _ _ rfl rfl rfl (run_play play_growing) hops growingRun.1.dropLast
    growingOpen [] (List.dropLast_append_getLast _).symm
  have hopened : openedLast (growingRun.1.dropLast ++ [growingOpen]) = true := by decide +kernel
  have hrecord : growingOpen.after.world.content.map (fun c => c.record hedTable [0x76])
      = some none := by decide +kernel
  have htable : [0x76] ∈ growingOpen.after.repo.table := by decide +kernel
  obtain ⟨c, hc, hnone⟩ := Option.map_eq_some_iff.mp hrecord
  obtain ⟨b, hb, -⟩ := (hserves hopened).records c hc [0x76] htable
  rw [hnone] at hb
  cases hb

end Run

end Hed
