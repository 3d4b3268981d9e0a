import Mathlib.Data.Int.Notation
import Mathlib.Data.Option.Basic
import Hed.Prelude.Protocol

/-!
# The first failure

Some of the calls of a program report that they failed.  A program that stops at the first
failure makes no calls after it but those that clean up, and what it returns says what failed.
That is a protocol whose state is the first failure so far: `Reports` says that a program follows
it, and its rules take a program apart without a look at what any call does.
-/

universe u v

/-- What the reply of a call reports, if it reports a failure, and which calls clean up. -/
structure Failures (S : Signature.{u}) (ε : Type v) where
  error : (c : S.Call) → S.Reply c → Option ε
  Cleans : S.Call → Prop

namespace Failures

variable {S : Signature.{u}} {ε : Type v}

/-- The protocol of the programs that stop at the first failure. -/
def protocol (F : Failures S ε) : Protocol S (Option ε) where
  allows first c := first = none ∨ F.Cleans c
  next first c r := first.or (F.error c r)

end Failures

namespace Program

variable {S : Signature.{u}} {ε : Type v} {α β : Type u} (F : Failures S ε)

/-- The program stops at the first failure, where `first` has failed already, if anything has,
and `report` is what its value says of the first failure. -/
def Reports (first : Option ε) (p : Program S α) (report : α → Option ε) : Prop :=
  Follows F.protocol p (fun first' a => first' = report a) first

variable {F} {first : Option ε} {report : α → Option ε} {report' : β → Option ε}

theorem reports_pure {a : α} (h : report a = first) :
  Reports F first (pure a) report
  := h.symm

/-- A call, as long as nothing has failed. -/
theorem reports_ask (c : S.Call) :
  Reports F none (ask c) (F.error c)
  := by
  use Or.inl rfl
  intro r
  rfl

theorem reports_bind {p : Program S α} {q : α → Program S β} (hp : Reports F first p report)
    (hq : ∀ a, Reports F (report a) (q a) report') :
  Reports F first (p >>= q) report'
  := by
  apply follows_bind_of _ hp
  rintro _ a rfl
  apply hq

theorem reports_ite {c : Prop} [Decidable c] {p q : Program S α}
    (hp : c → Reports F first p report) (hq : ¬ c → Reports F first q report) :
  Reports F first (if c then p else q) report
  := by
  split_ifs with hc
  · apply hp hc
  · apply hq hc

/-- Cleaning up leaves the first failure as it is. -/
theorem reports_of_calls {p : Program S α} {C : S.Call → Prop} (hp : p.Calls C)
    (cleans : ∀ c, C c → F.Cleans c) (error : ∀ c r, C c → F.error c r = none) :
  Reports F first p (fun _ => first)
  := by
  apply follows_of_calls _ hp
  · intro c hc
    apply Or.inr (cleans c hc)
  · intro c r hc
    change first.or (F.error c r) = first
    rw [error c r hc, Option.or_none]

/-- Cleaning up, and what follows it. -/
theorem reports_calls_bind {p : Program S α} {q : α → Program S β} {C : S.Call → Prop}
    (hp : p.Calls C) (cleans : ∀ c, C c → F.Cleans c)
    (error : ∀ c r, C c → F.error c r = none)
    (hq : ∀ a, Reports F first (q a) report') :
  Reports F first (p >>= q) report'
  := reports_bind (reports_of_calls hp cleans error) hq

/-! ### Codes -/

/-- The failure that a code stands for: none, if it is zero. -/
def ofCode (ret : ℤ) : Option ℤ := if ret = 0 then none else some ret

theorem ofCode_of_ne {ret : ℤ} (h : ret ≠ 0) :
  ofCode ret = some ret
  := if_neg h

section Codes

variable {G : Failures S ℤ} {first : Option ℤ} {report : β → Option ℤ}

/-- What follows a code that is not zero, and one that is. -/
theorem reports_check {p : Program S α} {code : α → ℤ} {stop next : α → Program S β}
    (hp : Reports G first p (fun a => ofCode (code a)))
    (hstop : ∀ a, code a ≠ 0 → Reports G (some (code a)) (stop a) report)
    (hnext : ∀ a, Reports G none (next a) report) :
  Reports G first (p >>= fun a => if code a ≠ 0 then stop a else next a) report
  := by
  apply reports_bind hp
  intro a
  apply reports_ite
  · intro hcode
    rw [ofCode_of_ne hcode]
    apply hstop a hcode
  · intro hcode
    rw [not_not.mp hcode]
    apply hnext a

end Codes

end Program
