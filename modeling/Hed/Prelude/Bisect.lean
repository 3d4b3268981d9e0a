import Mathlib.Algebra.Order.Ring.Int
import Mathlib.Data.List.Basic
import Mathlib.Tactic.Common

/-!
# Searching by bisection

A key is looked for in a list by comparing it with the entries: the comparison is negative where
the key comes before an entry, positive where it comes after it, and zero where the entry is the
one that is looked for.  In a list that is sorted by keys the comparison goes from positive to
negative, and then looking at the middle is enough to tell which half to go on with.
-/

namespace Bisect

variable {α κ : Type}

/-- The comparison goes from positive to negative along the entries, and is zero at most once. -/
def Descends (cmp : α → ℤ) (entries : List α) : Prop :=
  entries.Pairwise (fun a b => 0 ≤ cmp b → 0 < cmp a)

/-- What a search promises: where the comparison descends, it finds the entry that compares equal,
if there is one. -/
def Searches (search : (α → ℤ) → List α → Option α) : Prop :=
  ∀ cmp entries, Descends cmp entries → ∀ entry,
    search cmp entries = some entry ↔ entry ∈ entries ∧ cmp entry = 0

/-- Entries that are sorted by their keys are compared in descending order. -/
theorem descends_of_sorted [LinearOrder κ] {key : α → κ} {k : κ} {cmp : α → ℤ} {entries : List α}
    (hsorted : entries.Pairwise (fun a b => key a < key b))
    (hnonneg : ∀ entry, 0 ≤ cmp entry ↔ key entry ≤ k)
    (hpos : ∀ entry, 0 < cmp entry ↔ key entry < k) :
  Descends cmp entries
  := by
  apply hsorted.imp
  intro a b hlt h
  apply (hpos a).mpr
  apply hlt.trans_le
  apply (hnonneg b).mp h

/-- Look at the entry in the middle, and go on before it or after it. -/
def bisectFrom (cmp : α → ℤ) : ℕ → List α → Option α
  | 0, _ => none
  | fuel + 1, entries =>
      match entries.drop (entries.length / 2) with
      | [] => none
      | entry :: after =>
          if cmp entry = 0 then some entry
          else if cmp entry < 0 then bisectFrom cmp fuel (entries.take (entries.length / 2))
          else bisectFrom cmp fuel after

def bisect (cmp : α → ℤ) (entries : List α) : Option α := bisectFrom cmp entries.length entries

variable {cmp : α → ℤ}

/-- Where an entry is compared, those before it are compared positive if it is not negative, and
those after it negative if it is not positive. -/
theorem Descends.split {before after : List α} {entry : α}
    (h : Descends cmp (before ++ entry :: after)) :
  Descends cmp before ∧ Descends cmp after ∧ (0 ≤ cmp entry → ∀ e ∈ before, 0 < cmp e)
    ∧ (cmp entry ≤ 0 → ∀ e ∈ after, cmp e < 0)
  := by
  obtain ⟨hbefore, hrest, hcross⟩ := List.pairwise_append.mp h
  obtain ⟨hentry, hafter⟩ := List.pairwise_cons.mp hrest
  use hbefore, hafter
  constructor
  · intro hle e he
    apply hcross e he entry List.mem_cons_self hle
  · intro hle e he
    by_contra hneg
    have hpos := hentry e he (not_lt.mp hneg)
    omega

/-- The search finds the entry that compares equal, as long as it can look at every entry. -/
theorem bisectFrom_iff {fuel : ℕ} {entries : List α} (hfuel : entries.length ≤ fuel)
    (h : Descends cmp entries) (entry : α) :
  bisectFrom cmp fuel entries = some entry ↔ entry ∈ entries ∧ cmp entry = 0
  := by
  induction fuel generalizing entries with
  | zero =>
      obtain rfl := List.length_eq_zero_iff.mp (Nat.le_zero.mp hfuel)
      simp [bisectFrom]
  | succ fuel ih =>
      have hentries := List.take_append_drop (entries.length / 2) entries
      rw [bisectFrom]
      split
      · rename_i hdrop
        have hnil : entries = [] := by
          apply List.length_eq_zero_iff.mp
          have hlength := List.drop_eq_nil_iff.mp hdrop
          omega
        simp [hnil]
      · rename_i middle after hdrop
        rw [hdrop] at hentries
        have hlength := congrArg List.length hentries
        rw [List.length_append, List.length_cons] at hlength
        generalize entries.take (entries.length / 2) = before at hentries hlength
        obtain ⟨hbefore, hafter, hpos, hneg⟩ := (hentries ▸ h).split
        rw [← hentries, List.mem_append, List.mem_cons]
        split_ifs with hzero hlt
        · constructor
          · rintro ⟨⟩
            simp [hzero]
          · rintro ⟨he | rfl | he, hentry⟩
            · have := hpos hzero.ge entry he
              omega
            · rfl
            · have := hneg hzero.le entry he
              omega
        · rw [ih (by omega) hbefore]
          constructor
          · rintro ⟨he, hentry⟩
            use Or.inl he
          · rintro ⟨he | rfl | he, hentry⟩
            · use he
            · omega
            · have := hneg hlt.le entry he
              omega
        · rw [ih (by omega) hafter]
          constructor
          · rintro ⟨he, hentry⟩
            use Or.inr (Or.inr he)
          · rintro ⟨he | rfl | he, hentry⟩
            · have := hpos (not_lt.mp hlt) entry he
              omega
            · contradiction
            · use he

theorem searches_bisect :
  Searches (α := α) bisect
  := by
  intro cmp entries h entry
  apply bisectFrom_iff (le_refl _) h

end Bisect
