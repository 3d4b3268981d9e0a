import Hed.Prelude.Store
import Mathlib.Data.List.Basic

/-!
# Numbers handed out by a transactional counter

A store whose content is a number counts: working in a transaction, it may hand out a number
above the one it holds and hold that instead.  The ledger lists the numbers that have been
handed out, those of transactions that committed and those of the transaction at work; what
a dropped transaction handed out is taken back.  The numbers of a ledger strictly increase.
-/

/-- The numbers handed out by transactions that committed, and by the one at work. -/
structure Ledger where
  committed : List ℕ
  pending : List ℕ

namespace Ledger

/-- The ledger with nothing handed out. -/
def empty : Ledger := ⟨[], []⟩

/-- The numbers of a ledger, in the order they were handed out. -/
def numbers (l : Ledger) : List ℕ := l.committed ++ l.pending

/-- The ledger after a move that may have handed out a number. -/
def next (l : Ledger) (m : Store.Move) (issued : Option ℕ) : Ledger :=
  match m with
  | .begin => ⟨l.committed, []⟩
  | .work => ⟨l.committed, l.pending ++ issued.toList⟩
  | .commit => ⟨l.committed ++ l.pending, []⟩
  | .drop => ⟨l.committed, []⟩
  | .idle => l

/-- The list increases strictly, up to `n` at most. -/
def UpTo (n : ℕ) (ns : List ℕ) : Prop := ns.Pairwise (· < ·) ∧ ∀ k ∈ ns, k ≤ n

theorem UpTo.snoc {n n' : ℕ} {ns : List ℕ} (h : UpTo n ns) (hn : n < n') :
  UpTo n' (ns ++ [n'])
  := by
  constructor
  · apply List.pairwise_append.mpr
    use h.1, List.pairwise_singleton _ _
    intro k hk k' hk'
    obtain rfl := List.mem_singleton.mp hk'
    apply Nat.lt_of_le_of_lt (h.2 k hk) hn
  · intro k hk
    rcases List.mem_append.mp hk with hk' | hk'
    · apply Nat.le_trans (h.2 k hk') (Nat.le_of_lt hn)
    · apply Nat.le_of_eq (List.mem_singleton.mp hk')

/-- The ledger of a counter: what the committed transactions handed out is below the
committed number, and all that was handed out is below the number at work. -/
structure Of (l : Ledger) (s : Store ℕ) : Prop where
  committed : UpTo s.committed l.committed
  working : ∀ n, s.working = some n → UpTo n l.numbers
  pending : s.working = none → l.pending = []

variable {l : Ledger} {s s' : Store ℕ}

theorem Of.increasing (h : l.Of s) :
  l.numbers.Pairwise (· < ·)
  := by
  cases hworking : s.working with
  | none =>
      rw [numbers, h.pending hworking, List.append_nil]
      apply h.committed.1
  | some n => apply (h.working n hworking).1

/-- A counter that starts to be watched. -/
theorem of_empty (s : Store ℕ) :
  empty.Of s
  := by
  have hnil : ∀ n, UpTo n [] := by
    intro n
    use List.Pairwise.nil
    rintro k ⟨⟩
  constructor
  · apply hnil
  · intro n _
    apply hnil
  · intro _
    rfl

/-- Every move of a counter keeps its ledger, if working hands out nothing and leaves the
number, or hands out a number above it that it becomes. -/
theorem Of.next {m : Store.Move} {issued : Option ℕ} (h : l.Of s) (hmoves : Store.Moves s m s')
    (hwork : m = .work → ∀ n n', s.working = some n → s'.working = some n' →
      (issued = none ∧ n' = n) ∨ (issued = some n' ∧ n < n')) :
  (l.next m issued).Of s'
  := by
  cases hmoves with
  | begin c =>
      constructor
      · apply h.committed
      · rintro _ ⟨⟩
        rw [numbers, Ledger.next, List.append_nil]
        apply h.committed
      · rintro ⟨⟩
  | work c d d' =>
      constructor
      · apply h.committed
      · rintro _ ⟨⟩
        have hd : UpTo d l.numbers := h.working d rfl
        rcases hwork rfl d d' rfl rfl with ⟨rfl, rfl⟩ | ⟨rfl, hlt⟩
        · rw [numbers, Ledger.next, Option.toList_none, List.append_nil]
          apply hd
        · rw [numbers, Ledger.next, Option.toList_some, ← List.append_assoc]
          apply hd.snoc hlt
      · rintro ⟨⟩
  | commit c d =>
      constructor
      · apply h.working d rfl
      · rintro _ ⟨⟩
      · intro _
        rfl
  | drop c d =>
      constructor
      · apply h.committed
      · rintro _ ⟨⟩
      · intro _
        rfl
  | idle => apply h

end Ledger
