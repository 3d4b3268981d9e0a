import Mathlib.Data.List.Basic
import Mathlib.Data.List.Nodup
import Mathlib.Data.List.Perm.Basic
import Mathlib.Order.Lattice

/-!
# Finite ordered maps

`OrderedMap α β` is a finite map from the linearly ordered type `α` to `β`, stored as the
list of its entries in strictly ascending order of their keys.  The order makes the
representation canonical: two maps with the same values are equal.
-/

universe u v

/-- A finite map, given by its entries in strictly ascending order of keys. -/
structure OrderedMap (α : Type u) (β : Type v) [LinearOrder α] where
  entries : List (α × β)
  sorted : entries.Pairwise (fun p q => p.1 < q.1)

namespace OrderedMap

variable {α : Type u} {β : Type v} [LinearOrder α]

/-! ### Lists of entries -/

/-- The value the first entry of key `k` holds. -/
def findEntry (k : α) : List (α × β) → Option β
  | [] => none
  | (k', v) :: rest => if k = k' then some v else findEntry k rest

/-- Put an entry at its place among ascending entries, over an entry of the same key. -/
def insertEntry (k : α) (v : β) : List (α × β) → List (α × β)
  | [] => [(k, v)]
  | (k', v') :: rest =>
      if k < k' then (k, v) :: (k', v') :: rest
      else if k = k' then (k, v) :: rest
      else (k', v') :: insertEntry k v rest

/-- The entries of keys other than `k`. -/
def eraseEntry (k : α) (ℓ : List (α × β)) : List (α × β) :=
  ℓ.filter (fun p => p.1 ≠ k)

theorem mem_insertEntry {k : α} {v : β} {p : α × β} :
    ∀ {ℓ : List (α × β)}, p ∈ insertEntry k v ℓ → p = (k, v) ∨ p ∈ ℓ
  | [], h => by simpa [insertEntry] using h
  | (k', v') :: rest, h => by
      rw [insertEntry] at h
      split_ifs at h with hlt heq
      · simpa using h
      · rcases List.mem_cons.mp h with rfl | hp
        · left
          rfl
        · right
          apply List.mem_cons_of_mem _ hp
      · rcases List.mem_cons.mp h with rfl | hp
        · right
          apply List.mem_cons_self
        · rcases mem_insertEntry hp with rfl | hp'
          · left
            rfl
          · right
            apply List.mem_cons_of_mem _ hp'

theorem sorted_insertEntry (k : α) (v : β) :
    ∀ {ℓ : List (α × β)}, ℓ.Pairwise (fun p q => p.1 < q.1) →
      (insertEntry k v ℓ).Pairwise (fun p q => p.1 < q.1)
  | [], _ => List.pairwise_singleton _ _
  | (k', v') :: rest, h => by
      obtain ⟨hhead, htail⟩ := List.pairwise_cons.mp h
      rw [insertEntry]
      split_ifs with hlt heq
      · apply List.Pairwise.cons _ h
        rintro p hp
        rcases List.mem_cons.mp hp with rfl | hp'
        · apply hlt
        · apply lt_trans hlt (hhead p hp')
      · subst heq
        apply List.Pairwise.cons _ htail
        intro p hp
        apply hhead p hp
      · apply List.Pairwise.cons _ (sorted_insertEntry k v htail)
        intro p hp
        rcases mem_insertEntry hp with rfl | hp'
        · apply lt_of_le_of_ne (not_lt.mp hlt) (Ne.symm heq)
        · apply hhead p hp'

theorem findEntry_insertEntry (k k' : α) (v : β) :
    ∀ ℓ : List (α × β),
      findEntry k' (insertEntry k v ℓ) = if k' = k then some v else findEntry k' ℓ
  | [] => by simp [insertEntry, findEntry]
  | (k₀, v₀) :: rest => by
      have ih := findEntry_insertEntry k k' v rest
      rw [insertEntry]
      by_cases hlt : k < k₀
      · rw [if_pos hlt, findEntry]
      · rw [if_neg hlt]
        by_cases heq : k = k₀
        · subst heq
          rw [if_pos rfl, findEntry, findEntry]
          split_ifs with hk
          · rfl
          · rfl
        · rw [if_neg heq, findEntry, findEntry, ih]
          by_cases hk : k' = k₀
          · subst hk
            rw [if_pos rfl, if_pos rfl, if_neg (Ne.symm heq)]
          · rw [if_neg hk, if_neg hk]

theorem findEntry_eraseEntry (k k' : α) :
    ∀ ℓ : List (α × β), findEntry k' (eraseEntry k ℓ) = if k' = k then none else findEntry k' ℓ
  | [] => by simp [eraseEntry, findEntry]
  | (k₀, v₀) :: rest => by
      have ih := findEntry_eraseEntry k k' rest
      rw [eraseEntry] at ih
      rw [eraseEntry, List.filter_cons, findEntry]
      by_cases hk₀ : k₀ = k
      · subst hk₀
        simp only [ne_eq, not_true_eq_false, decide_false, Bool.false_eq_true, if_false]
        rw [ih]
        split_ifs with hk
        · rfl
        · rfl
      · simp only [ne_eq, hk₀, not_false_eq_true, decide_true, if_true]
        rw [findEntry, ih]
        by_cases hk : k' = k₀
        · rw [if_pos hk, if_pos hk, if_neg (fun h => hk₀ (hk.symm.trans h))]
        · rw [if_neg hk, if_neg hk]

theorem findEntry_eq_some_iff {k : α} {v : β} :
    ∀ {ℓ : List (α × β)}, ℓ.Pairwise (fun p q => p.1 < q.1) →
      (findEntry k ℓ = some v ↔ (k, v) ∈ ℓ)
  | [], _ => by simp [findEntry]
  | (k₀, v₀) :: rest, h => by
      obtain ⟨hhead, htail⟩ := List.pairwise_cons.mp h
      rw [findEntry, List.mem_cons, Prod.mk.injEq]
      split_ifs with hk
      · subst hk
        constructor
        · intro hv
          left
          use rfl
          simpa using hv.symm
        · rintro (⟨-, rfl⟩ | hmem)
          · rfl
          · apply (lt_irrefl k (hhead (k, v) hmem)).elim
      · rw [findEntry_eq_some_iff htail]
        constructor
        · apply Or.inr
        · rintro (⟨hk', -⟩ | hmem)
          · apply (hk hk').elim
          · apply hmem

/-! ### The operations -/

/-- The map without entries. -/
def empty : OrderedMap α β := ⟨[], List.Pairwise.nil⟩

instance : EmptyCollection (OrderedMap α β) := ⟨empty⟩

/-- The value at `k`, if the map has one. -/
def get (m : OrderedMap α β) (k : α) : Option β := findEntry k m.entries

/-- The map with the value `v` at `k`, whatever it held there. -/
def put (m : OrderedMap α β) (k : α) (v : β) : OrderedMap α β :=
  ⟨insertEntry k v m.entries, sorted_insertEntry k v m.sorted⟩

/-- The map with no value at `k`. -/
def erase (m : OrderedMap α β) (k : α) : OrderedMap α β :=
  ⟨eraseEntry k m.entries, m.sorted.filter _⟩

/-- The number of entries. -/
def size (m : OrderedMap α β) : ℕ := m.entries.length

instance [DecidableEq β] : DecidableEq (OrderedMap α β) := fun m m' =>
  decidable_of_iff (m.entries = m'.entries) (by
    cases m
    cases m'
    simp)

theorem get_put [DecidableEq α] (m : OrderedMap α β) (k k' : α) (v : β) :
  (m.put k v).get k' = if k' = k then some v else m.get k'
  := by
  apply Eq.trans (findEntry_insertEntry k k' v m.entries)
  congr

@[simp]
theorem get_put_self (m : OrderedMap α β) (k : α) (v : β) :
  (m.put k v).get k = some v
  := by
  rw [get_put, if_pos rfl]

theorem get_erase [DecidableEq α] (m : OrderedMap α β) (k k' : α) :
  (m.erase k).get k' = if k' = k then none else m.get k'
  := by
  apply Eq.trans (findEntry_eraseEntry k k' m.entries)
  congr

theorem get_eq_some_iff {m : OrderedMap α β} {k : α} {v : β} :
  m.get k = some v ↔ (k, v) ∈ m.entries
  := findEntry_eq_some_iff m.sorted

/-- A map is determined by its values. -/
@[ext]
theorem ext {m m' : OrderedMap α β} (h : ∀ k, m.get k = m'.get k) :
  m = m'
  := by
  have asymm : ∀ p q : α × β, p ∈ m.entries → q ∈ m'.entries → p.1 < q.1 → q.1 < p.1 → p = q :=
    fun p q _ _ hpq hqp => (lt_asymm hpq hqp).elim
  have nodup : ∀ {ℓ : List (α × β)}, ℓ.Pairwise (fun p q => p.1 < q.1) → ℓ.Nodup := by
    intro ℓ hℓ
    apply hℓ.imp
    rintro p _ hlt rfl
    apply lt_irrefl _ hlt
  have hperm : m.entries.Perm m'.entries := by
    apply (List.perm_ext_iff_of_nodup (nodup m.sorted) (nodup m'.sorted)).mpr
    rintro ⟨k, v⟩
    rw [← get_eq_some_iff, ← get_eq_some_iff, h k]
  have hentries := hperm.eq_of_pairwise asymm m.sorted m'.sorted
  cases m
  cases m'
  simpa using hentries

/-- Of two values put at one key, the later one stays. -/
@[simp]
theorem put_put_self (m : OrderedMap α β) (k : α) (v w : β) :
  (m.put k v).put k w = m.put k w
  := by
  ext1 k'
  simp only [get_put]
  split_ifs with hk
  · rfl
  · rfl

/-! ### Walking through a map -/

/-- The entry of the least key. -/
def first (m : OrderedMap α β) : Option (α × β) := m.entries.head?

/-- The entry of the least key after `k`. -/
def next (m : OrderedMap α β) (k : α) : Option (α × β) := m.entries.find? (fun p => k < p.1)

section

variable {m : OrderedMap α β} {ℓ ℓ' : List (α × β)} {p : α × β} (h : m.entries = ℓ ++ p :: ℓ')

include h

/-- The keys before an entry are less than its key, and those after it are greater. -/
theorem lt_of_entries :
  (∀ q ∈ ℓ, q.1 < p.1) ∧ ∀ q ∈ ℓ', p.1 < q.1
  := by
  have hsorted := m.sorted
  rw [h, List.pairwise_append, List.pairwise_cons] at hsorted
  obtain ⟨_, ⟨hafter, _⟩, hbefore⟩ := hsorted
  constructor
  · intro q hq
    apply hbefore q hq p List.mem_cons_self
  · apply hafter

theorem get_of_entries :
  m.get p.1 = some p.2
  := by
  rw [get_eq_some_iff, h]
  apply List.mem_append_right _ List.mem_cons_self

/-- The entry that follows another one in the list follows it in the map. -/
theorem next_of_entries :
  m.next p.1 = ℓ'.head?
  := by
  obtain ⟨hbefore, hafter⟩ := lt_of_entries h
  have hnone : ℓ.find? (fun q => p.1 < q.1) = none := by
    apply List.find?_eq_none.mpr
    intro q hq
    simp [(hbefore q hq).le]
  rw [next, h, List.find?_append, hnone, Option.none_or, List.find?_cons]
  simp only [lt_irrefl, decide_false]
  cases ℓ' with
  | nil => rfl
  | cons q rest =>
      have hq := hafter q List.mem_cons_self
      rw [List.find?_cons, decide_eq_true hq]
      rfl

theorem entries_erase_of_entries :
  (m.erase p.1).entries = ℓ ++ ℓ'
  := by
  obtain ⟨hbefore, hafter⟩ := lt_of_entries h
  have hℓ : eraseEntry p.1 ℓ = ℓ := by
    apply List.filter_eq_self.mpr
    intro q hq
    simp [(hbefore q hq).ne]
  have hℓ' : eraseEntry p.1 (p :: ℓ') = ℓ' := by
    rw [eraseEntry, List.filter_cons, if_neg (by simp)]
    apply List.filter_eq_self.mpr
    intro q hq
    simp [(hafter q hq).ne']
  apply Eq.trans (congrArg (eraseEntry p.1) h)
  apply Eq.trans (List.filter_append ℓ (p :: ℓ'))
  apply congrArg₂ _ hℓ hℓ'

end

section

variable {m : OrderedMap α β} {k k' : α} {p : α × β}

/-- The first entry is one, and its key is the least. -/
theorem first_eq_some (h : m.first = some p) :
  m.get p.1 = some p.2 ∧ ∀ k v, m.get k = some v → p.1 ≤ k
  := by
  obtain ⟨ℓ, hℓ⟩ := List.head?_eq_some_iff.mp h
  have hsplit : m.entries = [] ++ p :: ℓ := hℓ
  use get_of_entries hsplit
  intro k v hv
  have hmem := get_eq_some_iff.mp hv
  rw [hℓ] at hmem
  rcases List.mem_cons.mp hmem with hp | hmem
  · rw [← hp]
  · exact ((lt_of_entries hsplit).2 _ hmem).le

/-- The entry after a key is one with a greater key, and no other greater key is less. -/
theorem next_eq_some (h : m.next k = some p) :
  k < p.1 ∧ m.get p.1 = some p.2 ∧ ∀ k' v, m.get k' = some v → k < k' → p.1 ≤ k'
  := by
  obtain ⟨hp, ℓ, ℓ', hℓ, hbefore⟩ := List.find?_eq_some_iff_append.mp h
  use of_decide_eq_true hp, get_of_entries hℓ
  intro k' v hv hlt
  have hmem := get_eq_some_iff.mp hv
  rw [hℓ] at hmem
  rcases List.mem_append.mp hmem with hmem | hmem
  · have hnot := hbefore _ hmem
    simp [hlt] at hnot
  · rcases List.mem_cons.mp hmem with hp | hmem
    · rw [← hp]
    · exact ((lt_of_entries hℓ).2 _ hmem).le

/-- There is no key after a key without a next entry. -/
theorem next_eq_none (h : m.next k = none) {v : β} (hv : m.get k' = some v) :
  k' ≤ k
  := by
  have hnot := List.find?_eq_none.mp h _ (get_eq_some_iff.mp hv)
  simpa using hnot

end

end OrderedMap
