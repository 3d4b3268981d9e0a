import Hed.Repo.Registered

/-!
# Opening is all or nothing

`hed_repo_open` creates, empties and initialises the tables of its list in one transaction.
`open_all_or_nothing` says that it does all of it when it returns zero, and nothing when it
does not, whichever of its calls fail.
-/

namespace Hed

open Program

namespace Content

variable {c c' : Content} {flags : Flags} {table table' key : Bytes} {tables : List Bytes}

/-! ### The tables that opening leaves alone -/

theorem get_openTable (h : c.openTable flags table = some c') (htable : table' ≠ table) :
  c'.get table' = c.get table'
  := by
  rw [openTable] at h
  split_ifs at h with hhas htrunc hcreat
  · obtain rfl := Option.some.inj h
    rw [OrderedMap.get_put, if_neg htable]
  · obtain rfl := Option.some.inj h
    rfl
  · obtain rfl := Option.some.inj h
    rw [OrderedMap.get_put, if_neg htable]

theorem get_openTables (h : openTables flags c tables = some c') (htable : table' ∉ tables) :
  c'.get table' = c.get table'
  := by
  apply openTables_keeps (P := fun d => d.get table' = c.get table') _ h rfl
  intro table hmem _ d d' hopen hd
  have hne : table' ≠ table := by
    rintro rfl
    apply htable hmem
  rw [get_openTable hopen hne, hd]

/-- The sequence records are in `".hed"` alone. -/
theorem get_initSeqs (h : c.initSeqs tables = some c') (htable : table' ≠ hedTable) :
  c'.get table' = c.get table'
  := by
  apply initSeqs_keeps (P := fun d => d.get table' = c.get table') _ h rfl
  intro key d d' hupdate hd
  rw [update] at hupdate
  split_ifs at hupdate with hhas
  obtain rfl := Option.some.inj hupdate
  rw [modify, OrderedMap.get_put, if_neg htable, hd]

/-! ### The tables that it empties, and the records that it keeps -/

theorem get_openTable_trunc (h : c.openTable flags table = some c')
    (htrunc : flags &&& O_TRUNC ≠ 0) :
  c'.get table = some ∅
  := by
  rw [openTable] at h
  split_ifs at h with hhas hcreat
  · obtain rfl := Option.some.inj h
    apply OrderedMap.get_put_self
  · obtain rfl := Option.some.inj h
    apply OrderedMap.get_put_self

theorem get_openTables_trunc (h : openTables flags c tables = some c')
    (htrunc : flags &&& O_TRUNC ≠ 0) (htable : table' ∈ tables) :
  c'.get table' = some ∅
  := by
  induction tables generalizing c with
  | nil => cases htable
  | cons table rest ih =>
      obtain ⟨-, c₁, hopen, hopens⟩ := openTables_cons.mp h
      by_cases hrest : table' ∈ rest
      · apply ih hopens hrest
      · obtain rfl : table' = table := (List.mem_cons.mp htable).resolve_right hrest
        rw [get_openTables hopens hrest, get_openTable_trunc hopen htrunc]

/-- Opening a table without `O_TRUNC` keeps all records. -/
theorem record_openTable_all (h : c.openTable flags table = some c')
    (htrunc : flags &&& O_TRUNC = 0) :
  c'.record table' key = c.record table' key
  := by
  by_cases htable : table' = table
  · have hname : table ≠ [] := (has_openTable h).1
    rw [htable, record_openTable_keep h htrunc hname]
  · apply record_openTable h htable

theorem record_openTables_all (h : openTables flags c tables = some c')
    (htrunc : flags &&& O_TRUNC = 0) :
  c'.record table' key = c.record table' key
  := by
  apply openTables_keeps (P := fun d => d.record table' key = c.record table' key) _ h rfl
  intro table _ _ d d' hopen hd
  rw [record_openTable_all hopen htrunc, hd]

/-! ### What opening makes of a content -/

/-- The content `c'` is what opening the tables with the flags is to make of the content
`c`. -/
structure Initialised (flags : Flags) (tables : List Bytes) (c c' : Content) : Prop where
  hed : c'.Has hedTable
  listed : ∀ table ∈ tables, c'.Has table
  others : ∀ table, table ≠ hedTable → table ∉ tables → c'.get table = c.get table
  kept : flags &&& O_TRUNC = 0 →
    ∀ table key value, c.record table key = some value → c'.record table key = some value
  emptied : flags &&& O_TRUNC ≠ 0 → ∀ table ∈ tables, c'.get table = some ∅
  sequenced : flags &&& O_TRUNC ≠ 0 →
    ∀ key, c'.record hedTable key = if key ∈ tables then some [0, 0, 0, 0] else none

/-- The steps of opening make that of a content. -/
theorem initialised_of_setup (h : c.setup flags tables = some c') :
  Initialised flags tables c c'
  := by
  have hall := hasAll_setup h
  obtain ⟨c₁, c₂, hhed, htables, hinit⟩ := setup_eq_some_iff.mp h
  have hget : ∀ table, table ≠ hedTable → c'.get table = c₂.get table := by
    intro table hne
    split_ifs at hinit with htrunc
    · apply get_initSeqs hinit hne
    · obtain rfl := Option.some.inj hinit
      rfl
  have hlisted : ∀ table ∈ tables, table ≠ hedTable := by
    rintro table htable rfl
    apply hall.names hedTable htable rfl
  constructor
  · apply hall.hed
  · apply hall.listed
  · intro table hne htable
    rw [hget table hne, get_openTables htables htable, get_openTable hhed hne]
  · intro htrunc table key value hvalue
    rw [if_neg (fun hne => hne htrunc)] at hinit
    obtain rfl := Option.some.inj hinit
    rw [record_openTables_all htables htrunc, record_openTable_all hhed htrunc, hvalue]
  · intro htrunc table htable
    rw [hget table (hlisted table htable), get_openTables_trunc htables htrunc htable]
  · intro htrunc key
    apply record_setup_trunc h htrunc

end Content

/-- In every execution, `hed_repo_open` returns zero and has made of the content all that it
is to make of it, or it returns an error and leaves the content. -/
theorem open_all_or_nothing (repo3pc : Bool) (table : List Bytes) (flags : Flags) (mode : ℕ)
    (w : World) (fates : List Fate) (ret : ℤ) (repo' : HedRepo)
    (h : (exec handle (hedRepoOpen repo3pc table flags mode) fates w).value
      = some (ret, repo')) :
  let w' := (exec handle (hedRepoOpen repo3pc table flags mode) fates w).world
  (ret ≠ 0 → w'.content = w.content)
    ∧ (ret = 0 → ∃ c c', w.content = some c ∧ w'.content = some c'
      ∧ Content.Initialised flags table c c')
  := by
  intro w'
  have hspec := (wp_iff_exec handle _ _ w).mp
    (hedRepoOpen_spec repo3pc table flags mode w) fates _ h
  obtain ⟨-, ⟨hret, hopened⟩ | ⟨hret, hcontent, -⟩⟩ := hspec
  · constructor
    · intro hne
      apply (hne hret).elim
    · intro _
      obtain ⟨c, c', hc, hsetup, hc', -⟩ := hopened.content
      exact ⟨c, c', hc, hc', Content.initialised_of_setup hsetup⟩
  · constructor
    · intro _
      apply hcontent
    · intro hzero
      apply (hret hzero).elim

/-- A file with a table that has a record, to be opened with `O_TRUNC`. -/
def usedFile : World :=
  ⟨some (.full (OrderedMap.put ∅ [0x75] (OrderedMap.put ∅ [1] [2]))), none, [], false, 0⟩

/-- Opening it, with the given fates. -/
def openUsed (fates : List Fate) : Program.Outcome calls Fate World (ℤ × HedRepo) :=
  exec handle (hedRepoOpen true [[0x75]] (O_RDWR ||| O_CREAT ||| O_TRUNC) 0) fates usedFile

/-- Emptying the table is the fourteenth call. -/
def undroppedOpen : List Fate := List.replicate 13 .ok ++ [.fail EIO .blank]

/-- The record is still there when emptying its table fails, and gone when nothing does. -/
theorem open_all_or_nothing_usedFile :
  (openUsed undroppedOpen).world.content = usedFile.content
    ∧ ∃ c c', usedFile.content = some c ∧ (openUsed []).world.content = some c'
      ∧ Content.Initialised (O_RDWR ||| O_CREAT ||| O_TRUNC) [[0x75]] c c'
  := by
  have hfailed : (openUsed undroppedOpen).value
      = some (5, HedRepo.init [[0x75]] (O_RDWR ||| O_CREAT ||| O_TRUNC) 0) := by decide +kernel
  have hopened : (openUsed []).value
      = some (0, { HedRepo.init [[0x75]] (O_RDWR ||| O_CREAT ||| O_TRUNC) 0 with
        env := some ⟨0, MDB_NOSUBDIR⟩ }) := by decide +kernel
  use (open_all_or_nothing _ _ _ _ _ _ _ _ hfailed).1 (by decide)
  apply (open_all_or_nothing _ _ _ _ _ _ _ _ hopened).2 rfl

end Hed
