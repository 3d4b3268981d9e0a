import Hed.Repo.Transaction

/-!
# What opening makes of a content

The tables and the records of the content that `Content.setup` makes.  Opening with an
access mode alone only looks for the tables.  With `O_CREAT` it makes sure that they exist,
and with `O_TRUNC` it empties them and writes the first sequence numbers.
-/

namespace Hed

/-! ### Opening with an access mode -/

namespace Content

variable {flags : Flags} (hflags : flags &&& O_ACCMODE = flags)
include hflags

/-- An access mode has no other bits. -/
theorem accmode_and {f : Flags} (hf : O_ACCMODE &&& f = 0) :
  flags &&& f = 0
  := by
  rw [← hflags, BitVec.and_assoc, hf]
  apply BitVec.and_zero

theorem openTable_of_accmode (c : Content) (table : Bytes) :
  c.openTable flags table = if c.Has table then some c else none
  := by
  have htrunc : flags &&& O_TRUNC = 0 := accmode_and hflags (by decide)
  have hcreat : flags &&& O_CREAT = 0 := accmode_and hflags (by decide)
  simp [openTable, htrunc, hcreat]

theorem openTables_of_accmode (c : Content) (tables : List Bytes) :
  openTables flags c tables
    = if ∀ table ∈ tables, table.head? ≠ some dot ∧ c.Has table then some c else none
  := by
  induction tables with
  | nil => simp [openTables]
  | cons table rest ih =>
      rw [openTables, openTable_of_accmode hflags]
      by_cases hname : table.head? = some dot
      · simp [hname]
      · by_cases hhas : c.Has table
        · simp [hname, hhas, ih]
        · simp [hname, hhas]

/-- Opening with an access mode changes no content. -/
theorem setup_of_accmode {c c' : Content} {tables : List Bytes}
    (h : c.setup flags tables = some c') :
  c' = c
  := by
  have htrunc : flags &&& O_TRUNC = 0 := accmode_and hflags (by decide)
  obtain ⟨c₁, hhed, h'⟩ := Option.bind_eq_some_iff.mp h
  obtain ⟨c₂, htables, hinit⟩ := Option.bind_eq_some_iff.mp h'
  rw [openTable_of_accmode hflags] at hhed
  split_ifs at hhed
  obtain rfl := Option.some.inj hhed
  rw [openTables_of_accmode hflags] at htables
  split_ifs at htables
  obtain rfl := Option.some.inj htables
  simpa [htrunc] using hinit.symm

end Content

/-! ### Tables -/

namespace Content

/-- The table of the sequence numbers and the given tables exist, and the names of these do
not start with a dot. -/
structure HasAll (c : Content) (tables : List Bytes) : Prop where
  hed : c.Has hedTable
  listed : ∀ table ∈ tables, c.Has table
  names : ∀ table ∈ tables, table.head? ≠ some dot

/-- Every table of one content exists in the other. -/
def Grows (c c' : Content) : Prop := ∀ table, c.Has table → c'.Has table

variable {c c' : Content} {flags : Flags} {table : Bytes} {tables : List Bytes}

theorem Grows.refl (c : Content) :
  c.Grows c
  := by
  intro table h
  apply h

theorem Grows.trans {c'' : Content} (h : c.Grows c') (h' : c'.Grows c'') :
  c.Grows c''
  := by
  intro table hhas
  apply h' table (h table hhas)

theorem Grows.hasAll (h : c.Grows c') (hall : c.HasAll tables) :
  c'.HasAll tables
  := by
  constructor
  · apply h _ hall.hed
  · intro table htable
    apply h table (hall.listed table htable)
  · apply hall.names

theorem grows_put (c : Content) (table : Bytes) (t : Table) :
  c.Grows (c.put table t)
  := by
  rintro table' ⟨hname, hsome⟩
  use hname
  rw [OrderedMap.get_put]
  split_ifs with h
  · rfl
  · apply hsome

theorem has_put (c : Content) (hname : table ≠ []) (t : Table) :
  Has (c.put table t) table
  := by
  use hname
  rw [OrderedMap.get_put_self]
  rfl

theorem grows_update {key value : Bytes} (h : c.update table key value = some c') :
  c.Grows c'
  := by
  rw [update] at h
  split_ifs at h with hhas
  obtain rfl := Option.some.inj h
  apply grows_put

theorem grows_delete {key : Bytes} (h : c.delete table key = some c') :
  c.Grows c'
  := by
  rw [delete] at h
  split_ifs at h with hhas
  obtain rfl := Option.some.inj h
  apply grows_put

theorem grows_openTable (h : c.openTable flags table = some c') :
  c.Grows c'
  := by
  rw [openTable] at h
  split_ifs at h with hhas htrunc hcreat
  · obtain rfl := Option.some.inj h
    apply grows_put
  · obtain rfl := Option.some.inj h
    apply Grows.refl
  · obtain rfl := Option.some.inj h
    apply grows_put

theorem has_openTable (h : c.openTable flags table = some c') :
  c'.Has table
  := by
  rw [openTable] at h
  split_ifs at h with hhas htrunc hcreat
  · obtain rfl := Option.some.inj h
    apply grows_put _ _ _ _ hhas
  · obtain rfl := Option.some.inj h
    apply hhas
  · obtain rfl := Option.some.inj h
    apply has_put _ hcreat.1

theorem openTables_cons {rest : List Bytes} :
  openTables flags c (table :: rest) = some c'
    ↔ table.head? ≠ some dot
      ∧ ∃ c₁, c.openTable flags table = some c₁ ∧ openTables flags c₁ rest = some c'
  := by
  rw [openTables]
  split_ifs with hname
  · simp [hname]
  · simp [hname, Option.bind_eq_some_iff]

/-- What opening each of the tables keeps, opening them all keeps. -/
theorem openTables_keeps {P : Content → Prop}
    (hstep : ∀ table ∈ tables, table.head? ≠ some dot →
      ∀ d d', d.openTable flags table = some d' → P d → P d')
    (h : openTables flags c tables = some c') (hc : P c) :
  P c'
  := by
  induction tables generalizing c with
  | nil =>
      obtain rfl := Option.some.inj h
      apply hc
  | cons table rest ih =>
      obtain ⟨hname, c₁, hopen, hrest⟩ := openTables_cons.mp h
      have hc₁ : P c₁ := hstep table List.mem_cons_self hname c c₁ hopen hc
      have hsteps : ∀ table ∈ rest, table.head? ≠ some dot →
          ∀ d d', d.openTable flags table = some d' → P d → P d' := by
        intro table' hmem
        apply hstep table' (List.mem_cons_of_mem table hmem)
      apply ih hsteps hrest hc₁

theorem grows_openTables (h : openTables flags c tables = some c') :
  c.Grows c'
  := by
  apply openTables_keeps (P := c.Grows) _ h (Grows.refl c)
  intro table _ _ d d' hopen hd
  apply hd.trans (grows_openTable hopen)

theorem has_openTables (h : openTables flags c tables = some c') :
  ∀ table ∈ tables, c'.Has table
  := by
  induction tables generalizing c with
  | nil =>
      rintro table ⟨⟩
  | cons table rest ih =>
      obtain ⟨-, c₁, hopen, hrest⟩ := openTables_cons.mp h
      intro table' htable'
      rcases List.mem_cons.mp htable' with rfl | hmem
      · apply grows_openTables hrest _ (has_openTable hopen)
      · apply ih hrest table' hmem

theorem names_openTables (h : openTables flags c tables = some c') :
  ∀ table ∈ tables, table.head? ≠ some dot
  := by
  induction tables generalizing c with
  | nil =>
      rintro table ⟨⟩
  | cons table rest ih =>
      obtain ⟨hname, c₁, hopen, hrest⟩ := openTables_cons.mp h
      intro table' htable'
      rcases List.mem_cons.mp htable' with rfl | hmem
      · apply hname
      · apply ih hrest table' hmem

/-- What writing a first sequence number keeps, writing them all keeps. -/
theorem initSeqs_keeps {P : Content → Prop}
    (hstep : ∀ key d d', d.update hedTable key (encode32 0) = some d' → P d → P d')
    (h : c.initSeqs tables = some c') (hc : P c) :
  P c'
  := by
  induction tables generalizing c with
  | nil =>
      obtain rfl := Option.some.inj h
      apply hc
  | cons table rest ih =>
      obtain ⟨c₁, hupdate, hrest⟩ := Option.bind_eq_some_iff.mp h
      apply ih hrest (hstep table c c₁ hupdate hc)

theorem grows_initSeqs (h : c.initSeqs tables = some c') :
  c.Grows c'
  := by
  apply initSeqs_keeps (P := c.Grows) _ h (Grows.refl c)
  intro key d d' hupdate hd
  apply hd.trans (grows_update hupdate)

/-- The steps of opening. -/
theorem setup_eq_some_iff :
  c.setup flags tables = some c'
    ↔ ∃ c₁ c₂, c.openTable flags hedTable = some c₁ ∧ openTables flags c₁ tables = some c₂
      ∧ (if flags &&& O_TRUNC ≠ 0 then c₂.initSeqs tables else some c₂) = some c'
  := by
  simp only [setup, Option.bind_eq_some_iff]
  constructor
  · rintro ⟨c₁, hhed, c₂, htables, hinit⟩
    exact ⟨c₁, c₂, hhed, htables, hinit⟩
  · rintro ⟨c₁, c₂, hhed, htables, hinit⟩
    exact ⟨c₁, hhed, c₂, htables, hinit⟩

/-- After opening, all tables exist. -/
theorem hasAll_setup (h : c.setup flags tables = some c') :
  c'.HasAll tables
  := by
  obtain ⟨c₁, c₂, hhed, htables, hinit⟩ := setup_eq_some_iff.mp h
  have hgrows : c₂.Grows c' := by
    split_ifs at hinit with htrunc
    · apply grows_initSeqs hinit
    · obtain rfl := Option.some.inj hinit
      apply Grows.refl
  constructor
  · apply hgrows _ (grows_openTables htables _ (has_openTable hhed))
  · intro table htable
    apply hgrows _ (has_openTables htables table htable)
  · apply names_openTables htables

/-- Opening with an access mode succeeds if all tables exist. -/
theorem setup_of_hasAll (hflags : flags &&& O_ACCMODE = flags) (h : c.HasAll tables) :
  c.setup flags tables = some c
  := by
  have htrunc : flags &&& O_TRUNC = 0 := accmode_and hflags (by decide)
  have htables : ∀ table ∈ tables, table.head? ≠ some dot ∧ c.Has table := by
    intro table htable
    exact ⟨h.names table htable, h.listed table htable⟩
  rw [setup, openTable_of_accmode hflags, if_pos h.hed, Option.bind_some,
    openTables_of_accmode hflags, if_pos htables, Option.bind_some, htrunc]
  rfl

end Content

end Hed
