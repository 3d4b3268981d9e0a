import Hed.Prelude.Run
import Mathlib.Data.List.Basic

/-!
# What is acquired and released

Resources are acquired and released, one after another.  A list of such uses is settled when
nothing is released that is not held and everything that is acquired is released as often.
`settled_iff` says how to see that by keeping what is held.
-/

/-- A resource is acquired or released. -/
inductive Use (ρ : Type) where
  | acquire (r : ρ)
  | release (r : ρ)
  deriving DecidableEq

/-- What is held, the latest first, and whether something was released that was not held. -/
structure Holdings (ρ : Type) where
  held : List ρ
  misuse : Bool
  deriving DecidableEq

namespace Holdings

variable {ρ : Type} [DecidableEq ρ]

/-- What is held after one more use. -/
def next (h : Holdings ρ) : Use ρ → Holdings ρ
  | .acquire r => ⟨r :: h.held, h.misuse⟩
  | .release r => if r ∈ h.held then ⟨h.held.erase r, h.misuse⟩ else ⟨h.held, true⟩

/-- What is held after some uses, when nothing is before. -/
def after (us : List (Use ρ)) : Holdings ρ := us.foldl next ⟨[], false⟩

/-- A use is allowed after others if it does not release what is not held. -/
def Allowed (before : List (Use ρ)) : Use ρ → Prop
  | .acquire _ => True
  | .release r => before.count (.release r) < before.count (.acquire r)

/-- Nothing is released that is not held, and what is acquired is released as often. -/
structure Settled (us : List (Use ρ)) : Prop where
  allowed : Along Allowed us
  released : ∀ r, us.count (.release r) = us.count (.acquire r)

theorem after_snoc (us : List (Use ρ)) (u : Use ρ) :
  after (us ++ [u]) = (after us).next u
  := List.foldl_append

/-- As long as there is no misuse, a resource is held as often as it was acquired more often
than released. -/
theorem count_held {us : List (Use ρ)} (h : (after us).misuse = false) (r : ρ) :
  (after us).held.count r + us.count (.release r) = us.count (.acquire r)
  := by
  induction us using List.reverseRecOn with
  | nil => rfl
  | append_singleton us u ih =>
      rw [after_snoc] at h ⊢
      cases u with
      | acquire s =>
          have hrest := ih h
          simp only [next, List.count_append, List.count_cons, List.count_nil]
          by_cases hs : s = r
          · simp [hs]
            omega
          · simp [hs]
            omega
      | release s =>
          rw [next] at h ⊢
          split_ifs at h ⊢ with hs
          have hrest := ih h
          have hpos := List.count_pos_iff.mpr hs
          simp only [List.count_append, List.count_cons, List.count_nil, List.count_erase]
          by_cases hr : s = r
          · obtain rfl := hr
            simp
            omega
          · simp [hr]
            omega

/-- There is no misuse exactly if every use is allowed. -/
theorem misuse_eq_false_iff {us : List (Use ρ)} :
  (after us).misuse = false ↔ Along Allowed us
  := by
  induction us using List.reverseRecOn with
  | nil => exact iff_of_true rfl along_nil
  | append_singleton us u ih =>
      rw [after_snoc, along_snoc, ← ih]
      cases u with
      | acquire r => simp [next, Allowed]
      | release r =>
          rw [next]
          have hheld : (after us).misuse = false →
              (r ∈ (after us).held ↔ us.count (.release r) < us.count (.acquire r)) := by
            intro h
            have hcount := count_held h r
            rw [← List.count_pos_iff]
            omega
          split_ifs with hr
          · constructor
            · intro h
              exact ⟨h, (hheld h).mp hr⟩
            · intro h
              exact h.1
          · constructor
            · rintro ⟨⟩
            · rintro ⟨h, hallowed⟩
              exact absurd ((hheld h).mpr hallowed) hr

/-- Uses are settled exactly if nothing is held after them and there is no misuse. -/
theorem settled_iff {us : List (Use ρ)} :
  Settled us ↔ after us = ⟨[], false⟩
  := by
  constructor
  · rintro ⟨hallowed, hreleased⟩
    have hmisuse := misuse_eq_false_iff.mpr hallowed
    have hheld : (after us).held = [] := by
      apply List.eq_nil_iff_forall_not_mem.mpr
      intro r hr
      have hcount := count_held hmisuse r
      have hpos := List.count_pos_iff.mpr hr
      have hsame := hreleased r
      omega
    rw [← hheld, ← hmisuse]
  · intro h
    have hmisuse : (after us).misuse = false := by rw [h]
    constructor
    · exact misuse_eq_false_iff.mp hmisuse
    · intro r
      have hcount := count_held hmisuse r
      rw [h] at hcount
      simpa using hcount

end Holdings
