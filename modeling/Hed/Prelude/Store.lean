import Mathlib.Tactic.Common

/-!
# Transactional stores

A store has a committed content and at most one transaction, which works on a content of its
own.  What can happen to a store: a transaction begins on the committed content, works,
commits its content, or is dropped.  The committed content is the one of the transaction
that committed last.
-/

universe u

/-- The committed content of a store, and the content of its transaction, if there is one. -/
structure Store (γ : Type u) where
  committed : γ
  working : Option γ

namespace Store

variable {γ : Type u} {s s' : Store γ}

/-- What can happen to a store. -/
inductive Move where
  | begin
  | work
  | commit
  | drop
  | idle
  deriving DecidableEq

/-- The moves of a store. -/
inductive Moves : Store γ → Move → Store γ → Prop where
  | begin (c : γ) : Moves ⟨c, none⟩ .begin ⟨c, some c⟩
  | work (c d d' : γ) : Moves ⟨c, some d⟩ .work ⟨c, some d'⟩
  | commit (c d : γ) : Moves ⟨c, some d⟩ .commit ⟨d, none⟩
  | drop (c : γ) (d : Option γ) : Moves ⟨c, d⟩ .drop ⟨c, none⟩
  | idle (s : Store γ) : Moves s .idle s

/-- Only a commit changes the committed content. -/
theorem Moves.committed_eq {m : Move} (h : Moves s m s') (hm : m ≠ .commit) :
  s'.committed = s.committed
  := by
  cases h with
  | begin => rfl
  | work => rfl
  | commit => apply (hm rfl).elim
  | drop => rfl
  | idle => rfl

/-- A commit publishes the content of the transaction. -/
theorem Moves.committed_of_commit (h : Moves s .commit s') :
  s.working = some s'.committed
  := by
  cases h with
  | commit => rfl

/-- What a store looks like through a function of its contents. -/
def map {δ : Type*} (f : γ → δ) (s : Store γ) : Store δ := ⟨f s.committed, s.working.map f⟩

theorem Moves.map {δ : Type*} (f : γ → δ) {m : Move} (h : Moves s m s') :
  Moves (s.map f) m (s'.map f)
  := by
  cases h with
  | begin c => apply Moves.begin
  | work c d d' => apply Moves.work
  | commit c d => apply Moves.commit
  | drop c d => apply Moves.drop
  | idle => apply Moves.idle

end Store
