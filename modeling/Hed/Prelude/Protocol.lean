import Hed.Prelude.Program

/-!
# Protocols of calls

A protocol says, for each of its states, which calls a program may make, and which state
each reply leads to.  A program follows the protocol if it keeps to it whatever the replies
are: so it keeps to it in whatever world it runs, also in one that others change between any
two of its calls.
-/

universe u v

/-- The calls allowed in each state, and the state after each reply. -/
structure Protocol (S : Signature.{u}) (Θ : Type v) where
  allows : Θ → S.Call → Prop
  next : Θ → (c : S.Call) → S.Reply c → Θ

namespace Program

variable {S : Signature.{u}} {Θ : Type v} {α β : Type u} (P : Protocol S Θ)

/-- From the state `θ` on the program keeps to the protocol, and if it ends, it does so in a
state and with a value in `Q`. -/
def Follows : Program S α → (Θ → α → Prop) → Θ → Prop
  | .done a, Q, θ => Q θ a
  | .halt, _, _ => True
  | .call c next, Q, θ => P.allows θ c ∧ ∀ r, Follows (next r) Q (P.next θ c r)

theorem follows_mono {p : Program S α} {Q Q' : Θ → α → Prop} {θ : Θ} (h : Follows P p Q θ)
    (hQ : ∀ θ a, Q θ a → Q' θ a) :
  Follows P p Q' θ
  := by
  induction p generalizing θ with
  | done a => apply hQ _ _ h
  | halt => trivial
  | call c next ih =>
      use h.1
      intro r
      apply ih r (h.2 r)

theorem follows_bind (p : Program S α) (q : α → Program S β) (Q : Θ → β → Prop) (θ : Θ) :
  Follows P (p >>= q) Q θ ↔ Follows P p (fun θ' a => Follows P (q a) Q θ') θ
  := by
  induction p generalizing θ with
  | done a => rfl
  | halt => rfl
  | call c next ih =>
      apply and_congr_right
      intro _
      apply forall_congr'
      intro r
      apply ih

/-- Sequencing by what is known of the first program. -/
theorem follows_bind_of {p : Program S α} {q : α → Program S β} {R : Θ → α → Prop}
    {Q : Θ → β → Prop} {θ : Θ} (hp : Follows P p R θ)
    (hq : ∀ θ' a, R θ' a → Follows P (q a) Q θ') :
  Follows P (p >>= q) Q θ
  := by
  rw [follows_bind]
  apply follows_mono P hp hq

theorem follows_require_bind (p : Prop) [Decidable p] (q : PUnit → Program S β)
    (Q : Θ → β → Prop) (θ : Θ) :
  Follows P (require p >>= q) Q θ ↔ (p → Follows P (q ⟨⟩) Q θ)
  := by
  by_cases hp : p
  · simp only [require, if_pos hp]
    constructor
    · intro h _
      apply h
    · intro h
      apply h hp
  · simp only [require, if_neg hp]
    constructor
    · intro _ h
      apply (hp h).elim
    · intro _
      trivial

theorem follows_demand_bind (o : Option α) (q : α → Program S β) (Q : Θ → β → Prop) (θ : Θ) :
  Follows P (demand o >>= q) Q θ ↔ ∀ a, o = some a → Follows P (q a) Q θ
  := by
  cases o with
  | none =>
      constructor
      · rintro _ a ⟨⟩
      · intro _
        trivial
  | some a =>
      constructor
      · rintro h _ ⟨⟩
        apply h
      · intro h
        apply h a rfl

/-- A program whose calls are allowed in a state and leave it. -/
theorem follows_of_calls {C : S.Call → Prop} {p : Program S α} {θ : Θ} (hp : p.Calls C)
    (allows : ∀ c, C c → P.allows θ c) (next : ∀ c r, C c → P.next θ c r = θ) :
  Follows P p (fun θ' _ => θ' = θ) θ
  := by
  induction p with
  | done a => rfl
  | halt => trivial
  | call c rest ih =>
      use allows c hp.1
      intro r
      rw [next c r hp.1]
      apply ih r (hp.2 r)

end Program
