import Mathlib.Data.List.Basic
import Mathlib.Tactic.Common

/-!
# Programs over external calls

A signature lists the external calls a program can make and what each replies.  A
`Program S α` makes calls, one after another, and ends with a value, or halts at a failed
assertion.  A handler says what a call does to the world and what it replies, given what
fate the environment has in store for that call.  `exec` runs a program against a list of
fates, and `wp` is the condition on the world that a postcondition holds after the program
whatever the fates are.
-/

universe u v

/-- The external calls a program can make, with the type of replies of each. -/
structure Signature where
  Call : Type u
  Reply : Call → Type u

/-- A program: it ends with a value, halts at a failed assertion, or makes a call and goes
on with the reply. -/
inductive Program (S : Signature.{u}) (α : Type u) : Type u where
  | done (a : α) : Program S α
  | halt : Program S α
  | call (c : S.Call) (next : S.Reply c → Program S α) : Program S α

namespace Program

variable {S : Signature.{u}} {α β γ : Type u}

/-- Continue a program with another one, from the value it ends with. -/
def bind : Program S α → (α → Program S β) → Program S β
  | .done a, q => q a
  | .halt, _ => .halt
  | .call c next, q => .call c (fun r => (next r).bind q)

instance : Monad (Program S) where
  pure := .done
  bind := bind

/-- The program that makes one call and ends with its reply. -/
def ask (c : S.Call) : Program S (S.Reply c) := .call c .done

/-- The program that halts unless `p` holds. -/
def require (p : Prop) [Decidable p] : Program S PUnit := if p then .done ⟨⟩ else .halt

/-- The program that ends with what an option holds and halts when it holds nothing. -/
def demand : Option α → Program S α
  | some a => .done a
  | none => .halt

@[simp]
theorem pure_bind (a : α) (q : α → Program S β) :
  (pure a : Program S α) >>= q = q a
  := rfl

@[simp]
theorem halt_bind (q : α → Program S β) :
  (.halt : Program S α) >>= q = .halt
  := rfl

@[simp]
theorem require_bind_halt (p : Prop) [Decidable p] :
  ((require p : Program S PUnit) >>= fun _ => (.halt : Program S β)) = .halt
  := by
  rw [require]
  split_ifs with hp
  · rfl
  · rfl

/-- `p.Calls P` says that every call the program may make, whatever the replies, is in `P`. -/
def Calls (P : S.Call → Prop) : Program S α → Prop
  | .done _ => True
  | .halt => True
  | .call c next => P c ∧ ∀ r, (next r).Calls P

theorem Calls.bind {P : S.Call → Prop} {p : Program S α} {q : α → Program S β}
    (hp : p.Calls P) (hq : ∀ a, (q a).Calls P) :
  (p >>= q).Calls P
  := by
  induction p with
  | done a => apply hq a
  | halt => trivial
  | call c next ih =>
      use hp.1
      intro r
      apply ih r (hp.2 r)

theorem Calls.mono {P P' : S.Call → Prop} (h : ∀ c, P c → P' c) {p : Program S α}
    (hp : p.Calls P) :
  p.Calls P'
  := by
  induction p with
  | done a => trivial
  | halt => trivial
  | call c next ih =>
      use h c hp.1
      intro r
      apply ih r (hp.2 r)

theorem calls_ask {P : S.Call → Prop} {c : S.Call} (h : P c) :
  (ask c).Calls P
  := by
  use h
  intro r
  trivial

theorem calls_require (P : S.Call → Prop) (p : Prop) [Decidable p] :
  (require p : Program S PUnit).Calls P
  := by
  rw [require]
  split_ifs with hp
  · trivial
  · trivial

theorem calls_demand (P : S.Call → Prop) (o : Option α) :
  (demand o : Program S α).Calls P
  := by
  cases o with
  | none => trivial
  | some a => trivial

theorem calls_ite {P : S.Call → Prop} {p : Prop} [Decidable p] {q q' : Program S α}
    (h : q.Calls P) (h' : q'.Calls P) :
  (if p then q else q').Calls P
  := by
  split_ifs with hp
  · apply h
  · apply h'

/-! ### Execution -/

/-- A call made in an execution, with the fate it met. -/
structure Event (S : Signature.{u}) (F : Type v) where
  call : S.Call
  fate : F

/-- The effect of a call on the world `W` and its reply, for each fate in `F`. -/
abbrev Handler (S : Signature.{u}) (F : Type v) (W : Type u) :=
  F → (c : S.Call) → W → S.Reply c × W

/-- What an execution leaves: the calls made, in order, the value of the program, if it did
not halt, and the world. -/
structure Outcome (S : Signature.{u}) (F : Type v) (W α : Type u) where
  trace : List (Event S F)
  value : Option α
  world : W

variable {F : Type v} {W : Type u} (H : Handler S F W)

/-- Run a program against the fates of its calls.  Once the fates run out, every call meets
the default one. -/
def exec [Inhabited F] : Program S α → List F → W → Outcome S F W α
  | .done a, _, w => ⟨[], some a, w⟩
  | .halt, _, w => ⟨[], none, w⟩
  | .call c next, fates, w =>
      let f := fates.headD default
      let o := exec (next (H f c w).1) fates.tail (H f c w).2
      ⟨⟨c, f⟩ :: o.trace, o.value, o.world⟩

/-- The condition on a world that, whatever the fates, the program ends there with a trace,
a value and a world in `Q`, unless it halts. -/
def wp : Program S α → (List (Event S F) → α → W → Prop) → W → Prop
  | .done a, Q, w => Q [] a w
  | .halt, _, _ => True
  | .call c next, Q, w => ∀ f, wp (next (H f c w).1) (fun t => Q (⟨c, f⟩ :: t)) (H f c w).2

/-- What holds after every execution that does not halt is what `wp` asks for. -/
theorem wp_iff_exec [Inhabited F] (p : Program S α) (Q : List (Event S F) → α → W → Prop)
    (w : W) :
  wp H p Q w ↔ ∀ fates a, (exec H p fates w).value = some a →
    Q (exec H p fates w).trace a (exec H p fates w).world
  := by
  induction p generalizing Q w with
  | done a =>
      constructor
      · rintro h fates _ ⟨⟩
        apply h
      · intro h
        apply h [] a rfl
  | halt =>
      constructor
      · rintro _ fates a ⟨⟩
      · intro _
        trivial
  | call c next ih =>
      constructor
      · intro h fates a ha
        apply (ih _ _ _).mp (h (fates.headD default)) fates.tail a ha
      · intro h f
        apply (ih _ _ _).mpr
        intro fates a ha
        apply h (f :: fates) a ha

theorem wp_mono {p : Program S α} {Q Q' : List (Event S F) → α → W → Prop} {w : W}
    (h : wp H p Q w) (hQ : ∀ t a w', Q t a w' → Q' t a w') :
  wp H p Q' w
  := by
  induction p generalizing Q Q' w with
  | done a => apply hQ _ _ _ h
  | halt => trivial
  | call c next ih =>
      intro f
      apply ih _ (h f)
      intro t a w'
      apply hQ

/-- A postcondition that always holds. -/
theorem wp_of_forall {p : Program S α} {Q : List (Event S F) → α → W → Prop} {w : W}
    (hQ : ∀ t a w', Q t a w') :
  wp H p Q w
  := by
  induction p generalizing Q w with
  | done a => apply hQ
  | halt => trivial
  | call c next ih =>
      intro f
      apply ih
      intro t a w'
      apply hQ

theorem wp_bind (p : Program S α) (q : α → Program S β)
    (Q : List (Event S F) → β → W → Prop) (w : W) :
  wp H (p >>= q) Q w ↔ wp H p (fun t a w' => wp H (q a) (fun t' => Q (t ++ t')) w') w
  := by
  induction p generalizing Q w with
  | done a => rfl
  | halt => rfl
  | call c next ih =>
      apply forall_congr'
      intro f
      apply ih

@[simp]
theorem wp_pure (a : α) (Q : List (Event S F) → α → W → Prop) (w : W) :
  wp H (pure a) Q w ↔ Q [] a w
  := Iff.rfl

@[simp]
theorem wp_done (a : α) (Q : List (Event S F) → α → W → Prop) (w : W) :
  wp H (.done a) Q w ↔ Q [] a w
  := Iff.rfl

theorem wp_require_bind (p : Prop) [Decidable p] (q : PUnit → Program S β)
    (Q : List (Event S F) → β → W → Prop) (w : W) :
  wp H (require p >>= q) Q w ↔ (p → wp H (q ⟨⟩) Q w)
  := by
  by_cases hp : p
  · simp only [require, if_pos hp]
    constructor
    · intro h _
      apply h
    · intro h
      apply h hp
  · simp only [require, if_neg hp]
    constructor
    · intro _ h
      apply (hp h).elim
    · intro _
      trivial

theorem wp_demand_bind (o : Option α) (q : α → Program S β)
    (Q : List (Event S F) → β → W → Prop) (w : W) :
  wp H (demand o >>= q) Q w ↔ ∀ a, o = some a → wp H (q a) Q w
  := by
  cases o with
  | none =>
      constructor
      · rintro _ a ⟨⟩
      · intro _
        trivial
  | some a =>
      constructor
      · rintro h _ ⟨⟩
        apply h
      · intro h
        apply h a rfl

/-- Sequencing by the specification of the first program. -/
theorem wp_bind_of {p : Program S α} {q : α → Program S β}
    {R : List (Event S F) → α → W → Prop} {Q : List (Event S F) → β → W → Prop} {w : W}
    (hp : wp H p R w)
    (hq : ∀ t a w', R t a w' → wp H (q a) (fun t' => Q (t ++ t')) w') :
  wp H (p >>= q) Q w
  := by
  rw [wp_bind]
  apply wp_mono H hp hq

/-- Sequencing by what holds from wherever the first program ends. -/
theorem wp_bind_of_forall {p : Program S α} {q : α → Program S β}
    {Q : List (Event S F) → β → W → Prop} {w : W}
    (hq : ∀ t a w', wp H (q a) (fun t' => Q (t ++ t')) w') :
  wp H (p >>= q) Q w
  := by
  rw [wp_bind]
  apply wp_of_forall H hq

/-- To what holds after a program may be added that its trace has only calls it may make. -/
theorem wp_calls {P : S.Call → Prop} {p : Program S α} {Q : List (Event S F) → α → W → Prop}
    {w : W} (hp : p.Calls P) (h : wp H p Q w) :
  wp H p (fun t a w' => Q t a w' ∧ ∀ e ∈ t, P e.call) w
  := by
  induction p generalizing Q w with
  | done a =>
      use h
      rintro e ⟨⟩
  | halt => trivial
  | call c next ih =>
      intro f
      apply wp_mono H (ih _ (hp.2 _) (h f))
      rintro t a w' ⟨hQ, ht⟩
      use hQ
      intro e he
      rcases List.mem_cons.mp he with rfl | he'
      · apply hp.1
      · apply ht e he'

/-- Two things that hold after a program hold together. -/
theorem wp_and {p : Program S α} {Q Q' : List (Event S F) → α → W → Prop} {w : W}
    (h : wp H p Q w) (h' : wp H p Q' w) :
  wp H p (fun t a w' => Q t a w' ∧ Q' t a w') w
  := by
  induction p generalizing Q Q' w with
  | done a => exact ⟨h, h'⟩
  | halt => trivial
  | call c next ih =>
      intro f
      apply ih _ (h f) (h' f)

/-- A program whose calls leave the world alone leaves it alone. -/
theorem wp_of_calls {P : S.Call → Prop} {p : Program S α} {w : W} (hp : p.Calls P)
    (hP : ∀ f c, P c → (H f c w).2 = w) :
  wp H p (fun _ _ w' => w' = w) w
  := by
  induction p with
  | done a => rfl
  | halt => trivial
  | call c next ih =>
      intro f
      rw [hP f c hp.1]
      apply ih _ (hp.2 _)

/-! ### Assuming something of every event -/

section Assuming

variable {A : Event S F → Prop}

/-- The condition on a world that the postcondition holds after the program if all events are
in `A`. -/
def wpOn (A : Event S F → Prop) (p : Program S α) (Q : List (Event S F) → α → W → Prop) (w : W) :
    Prop :=
  wp H p (fun t a w' => (∀ e ∈ t, A e) → Q t a w') w

theorem wpOn_of_wp {p : Program S α} {Q : List (Event S F) → α → W → Prop} {w : W}
    (h : wp H p Q w) :
  wpOn H A p Q w
  := by
  apply wp_mono H h
  intro t a w' hQ _
  apply hQ

theorem wpOn_mono {p : Program S α} {Q Q' : List (Event S F) → α → W → Prop} {w : W}
    (h : wpOn H A p Q w) (hQ : ∀ t a w', Q t a w' → Q' t a w') :
  wpOn H A p Q' w
  := by
  apply wp_mono H h
  intro t a w' hall ht
  apply hQ _ _ _ (hall ht)

theorem wpOn_done {a : α} {Q : List (Event S F) → α → W → Prop} {w : W} (h : Q [] a w) :
  wpOn H A (.done a) Q w
  := fun _ => h

theorem wpOn_ask {c : S.Call} {Q : List (Event S F) → S.Reply c → W → Prop} {w : W}
    (h : ∀ f, A ⟨c, f⟩ → Q [⟨c, f⟩] (H f c w).1 (H f c w).2) :
  wpOn H A (ask c) Q w
  := by
  intro f hf
  apply h f (hf _ List.mem_cons_self)

/-- Sequencing by the specification of the first program. -/
theorem wpOn_bind_of {p : Program S α} {q : α → Program S β}
    {R : List (Event S F) → α → W → Prop} {Q : List (Event S F) → β → W → Prop} {w : W}
    (hp : wpOn H A p R w)
    (hq : ∀ t a w', R t a w' → wpOn H A (q a) (fun t' => Q (t ++ t')) w') :
  wpOn H A (p >>= q) Q w
  := by
  apply wp_bind_of H hp
  intro t a w' hR
  by_cases ht : ∀ e ∈ t, A e
  · apply wp_mono H (hq t a w' (hR ht))
    intro t' b w'' hQ hall
    apply hQ (List.forall_mem_append.mp hall).2
  · apply wp_of_forall
    intro t' b w'' hall
    exact absurd (List.forall_mem_append.mp hall).1 ht

theorem wpOn_require_bind {p : Prop} [Decidable p] (hp : p) {q : PUnit → Program S β}
    {Q : List (Event S F) → β → W → Prop} {w : W} (hq : wpOn H A (q ⟨⟩) Q w) :
  wpOn H A (require p >>= q) Q w
  := by
  rw [require, if_pos hp]
  apply hq

end Assuming

/-- Once the fates have run out, every call meets the default one. -/
theorem exec_nil [Inhabited F] (p : Program S α) (w : W) :
  ∀ e ∈ (exec H p [] w).trace, e.fate = default
  := by
  induction p generalizing w with
  | done a =>
      rintro e ⟨⟩
  | halt =>
      rintro e ⟨⟩
  | call c next ih =>
      intro e he
      rcases List.mem_cons.mp he with rfl | he'
      · rfl
      · apply ih _ _ e he'

/-- Without fates, a sequence makes the calls of the first program, and then those of the second
one. -/
theorem exec_bind_of_value [Inhabited F] {p : Program S α} {w : W} {a : α}
    (h : (exec H p [] w).value = some a) (q : α → Program S β) :
  exec H (p >>= q) [] w
    = ⟨(exec H p [] w).trace ++ (exec H (q a) [] (exec H p [] w).world).trace,
      (exec H (q a) [] (exec H p [] w).world).value,
      (exec H (q a) [] (exec H p [] w).world).world⟩
  := by
  induction p generalizing w with
  | done a' =>
      obtain rfl := Option.some.inj h
      rfl
  | halt => cases h
  | call c next ih =>
      have hnext := ih _ h
      exact congrArg (fun o => Outcome.mk (⟨c, default⟩ :: o.trace) o.value o.world) hnext

/-! ### Programs that do not halt -/

/-- The program does not halt at a failed assertion, whatever the fates. -/
def Safe : Program S α → W → Prop
  | .done _, _ => True
  | .halt, _ => False
  | .call c next, w => ∀ f, Safe (next (H f c w).1) (H f c w).2

theorem safe_iff_exec [Inhabited F] (p : Program S α) (w : W) :
  Safe H p w ↔ ∀ fates, ∃ a, (exec H p fates w).value = some a
  := by
  induction p generalizing w with
  | done a =>
      apply iff_of_true trivial
      intro fates
      use a
      rfl
  | halt =>
      apply iff_of_false id
      intro h
      obtain ⟨a, ha⟩ := h []
      cases ha
  | call c next ih =>
      constructor
      · intro h fates
        apply (ih _ _).mp (h (fates.headD default)) fates.tail
      · intro h f
        apply (ih _ _).mpr
        intro fates
        apply h (f :: fates)

/-- A sequence does not halt, if the first program does not, and the second one does not
from where the first one ends. -/
theorem safe_bind {p : Program S α} {q : α → Program S β} {w : W} (hp : Safe H p w)
    (hq : wp H p (fun _ a w' => Safe H (q a) w') w) :
  Safe H (p >>= q) w
  := by
  induction p generalizing w with
  | done a => apply hq
  | halt => apply hp.elim
  | call c next ih =>
      intro f
      apply ih _ (hp f) (hq f)

theorem safe_require_bind {p : Prop} [Decidable p] (hp : p) {q : PUnit → Program S β} {w : W}
    (hq : Safe H (q ⟨⟩) w) :
  Safe H (require p >>= q) w
  := by
  rw [require, if_pos hp]
  apply hq

theorem safe_ask (c : S.Call) (w : W) :
  Safe H (ask c) w
  := by
  intro f
  trivial

end Program
