import Hed.Prelude.Program

/-!
# Programs with further calls

Two signatures put together.  A program over the first one is a program over both, and what
holds after it holds there too, if the calls of the first one leave the world of the second
one alone.
-/

universe u v

/-- The calls of two signatures. -/
def Signature.sum (S T : Signature.{u}) : Signature.{u} where
  Call := S.Call ⊕ T.Call
  Reply := Sum.elim S.Reply T.Reply

namespace Program

variable {S T : Signature.{u}} {α : Type u} {F : Type v} {W V : Type u}

/-- A program over the first signature, as one over both. -/
def inl : Program S α → Program (S.sum T) α
  | .done a => .done a
  | .halt => .halt
  | .call c next => .call (.inl c) (fun r => (next r).inl)

/-- An event of the first signature, as one of both. -/
def Event.inl (e : Event S F) : Event (S.sum T) F := ⟨.inl e.call, e.fate⟩

/-- Handle the calls of both signatures, those of the first one on its own world. -/
def sumHandler (H : Handler S F W) (K : Handler T F (W × V)) : Handler (S.sum T) F (W × V) :=
  fun f c s =>
    match c with
    | .inl c => ((H f c s.1).1, (H f c s.1).2, s.2)
    | .inr c => K f c s

variable {H : Handler S F W} {K : Handler T F (W × V)}

theorem wp_inl {p : Program S α} {Q : List (Event (S.sum T) F) → α → W × V → Prop} {w : W}
    {v : V} :
  wp (sumHandler H K) p.inl Q (w, v)
    ↔ wp H p (fun t a w' => Q (t.map Event.inl) a (w', v)) w
  := by
  induction p generalizing Q w with
  | done a => rfl
  | halt => rfl
  | call c next ih =>
      apply forall_congr'
      intro f
      apply ih

theorem safe_inl {p : Program S α} {w : W} {v : V} :
  Safe (sumHandler H K) p.inl (w, v) ↔ Safe H p w
  := by
  induction p generalizing w with
  | done a => rfl
  | halt => rfl
  | call c next ih =>
      apply forall_congr'
      intro f
      apply ih

end Program
