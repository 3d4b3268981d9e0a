import Mathlib.Data.List.Induction
import Mathlib.Tactic.Common

/-!
# Runs of labelled steps

A system is a relation `step s e s'`: from the state `s` it can move to `s'`, and `e` is
what there is to see of the move.  `Run step s es s'` says that the moves seen as `es`, one
after another, lead from `s` to `s'`.  `Along C es` says that each of the events `es`
satisfies `C`, which may look at the events before it; `Run.along` is the rule that derives
from a condition along a run a property along the run.
-/

universe u v

/-- The moves of a system, one after another. -/
inductive Run {σ : Type u} {ε : Type v} (step : σ → ε → σ → Prop) (s : σ) :
    List ε → σ → Prop where
  | nil : Run step s [] s
  | snoc {s' s'' : σ} {es : List ε} {e : ε} (run : Run step s es s') (last : step s' e s'') :
      Run step s (es ++ [e]) s''

/-- Each of the events satisfies a condition on the events before it and itself. -/
def Along {ε : Type v} (C : List ε → ε → Prop) (es : List ε) : Prop :=
  ∀ before e after, es = before ++ e :: after → C before e

section Along

variable {ε : Type v} {C : List ε → ε → Prop}

theorem along_nil :
  Along C []
  := by
  intro before e after h
  cases before with
  | nil => cases h
  | cons e' before => cases h

theorem along_snoc {es : List ε} {e : ε} :
  Along C (es ++ [e]) ↔ Along C es ∧ C es e
  := by
  constructor
  · intro h
    constructor
    · rintro before e' after rfl
      apply h before e' (after ++ [e])
      simp
    · apply h es e [] rfl
  · rintro ⟨hes, he⟩ before e' after h
    induction after using List.reverseRecOn with
    | nil =>
        obtain ⟨rfl, h'⟩ := List.append_inj' h rfl
        obtain rfl := (List.cons.inj h').1
        apply he
    | append_singleton after e'' _ =>
        rw [← List.cons_append, ← List.append_assoc] at h
        obtain ⟨rfl, -⟩ := List.append_inj' h rfl
        apply hes before e' after rfl

/-- The first event, and the others after it. -/
theorem along_cons {e : ε} {es : List ε} :
  Along C (e :: es) ↔ C [] e ∧ Along (fun before => C (e :: before)) es
  := by
  constructor
  · intro h
    constructor
    · apply h [] e es rfl
    · rintro before e' after rfl
      apply h (e :: before) e' after rfl
  · rintro ⟨he, hes⟩ before e' after h
    cases before with
    | nil =>
        obtain ⟨rfl, rfl⟩ := List.cons.inj h
        apply he
    | cons e'' before =>
        obtain ⟨rfl, rfl⟩ := List.cons.inj h
        apply hes before e' after rfl

theorem Along.mono {P : List ε → ε → Prop} {es : List ε} (h : Along C es)
    (hP : ∀ before e, C before e → P before e) :
  Along P es
  := by
  intro before e after hes
  apply hP before e (h before e after hes)

/-- A condition on each event by itself. -/
theorem along_iff_forall_mem {P : ε → Prop} {es : List ε} :
  Along (fun _ e => P e) es ↔ ∀ e ∈ es, P e
  := by
  constructor
  · intro h e he
    obtain ⟨before, after, hes⟩ := List.append_of_mem he
    apply h before e after hes
  · rintro h before e after rfl
    apply h e (by simp)

/-- A condition on the event at each place of a list and on the events up to there. -/
theorem along_iff_forall_lt {es : List ε} :
  Along C es ↔ ∀ k (hk : k < es.length), C (es.take k) es[k]
  := by
  constructor
  · intro h k hk
    apply h (es.take k) es[k] (es.drop (k + 1))
    rw [List.getElem_cons_drop, List.take_append_drop]
  · rintro h before e after rfl
    have hk := h before.length (by simp)
    simpa using hk

end Along

namespace Run

variable {σ : Type u} {ε : Type v} {step : σ → ε → σ → Prop} {s s' s'' : σ} {es es' : List ε}

theorem single {e : ε} (h : step s e s') :
  Run step s [e] s'
  := .snoc .nil h

theorem append (h : Run step s es s') (h' : Run step s' es' s'') :
  Run step s (es ++ es') s''
  := by
  induction h' with
  | nil => simpa using h
  | snoc run last ih =>
      rw [← List.append_assoc]
      apply Run.snoc ih last

/-- The last move of a run. -/
theorem snoc_iff {e : ε} :
  Run step s (es ++ [e]) s'' ↔ ∃ s', Run step s es s' ∧ step s' e s''
  := by
  constructor
  · generalize hes : es ++ [e] = es'
    intro h
    cases h with
    | nil => simp at hes
    | snoc run last =>
        obtain ⟨rfl, h⟩ := List.append_inj' hes rfl
        obtain rfl := (List.cons.inj h).1
        exact ⟨_, run, last⟩
  · rintro ⟨s', run, last⟩
    exact .snoc run last

/-- A run goes through a state after each of its parts. -/
theorem append_iff :
  Run step s (es ++ es') s'' ↔ ∃ s', Run step s es s' ∧ Run step s' es' s''
  := by
  constructor
  · intro h
    induction es' using List.reverseRecOn generalizing s'' with
    | nil =>
        rw [List.append_nil] at h
        exact ⟨s'', h, .nil⟩
    | append_singleton es' e ih =>
        rw [← List.append_assoc] at h
        obtain ⟨s₁, hrun, hlast⟩ := snoc_iff.mp h
        obtain ⟨s', h', h''⟩ := ih hrun
        exact ⟨s', h', .snoc h'' hlast⟩
  · rintro ⟨s', h, h'⟩
    exact append h h'

/-- The first move of a run. -/
theorem cons_iff {e : ε} :
  Run step s (e :: es) s'' ↔ ∃ s', step s e s' ∧ Run step s' es s''
  := by
  have hes : e :: es = [e] ++ es := rfl
  rw [hes, append_iff]
  constructor
  · rintro ⟨s', h, h'⟩
    have hsnoc : Run step s ([] ++ [e]) s' := h
    obtain ⟨s₁, hnil, hstep⟩ := snoc_iff.mp hsnoc
    generalize hes' : ([] : List ε) = es' at hnil
    cases hnil with
    | nil => exact ⟨s', hstep, h'⟩
    | snoc run last => simp at hes'
  · rintro ⟨s', h, h'⟩
    exact ⟨s', single h, h'⟩

/-- If every move that satisfies `C` preserves the invariant and satisfies `P`, then every
run that satisfies `C` preserves the invariant and satisfies `P`. -/
theorem along {I : List ε → σ → Prop} {C P : List ε → ε → Prop} (h : Run step s es s')
    (init : I [] s)
    (next : ∀ es e s₁ s₂, I es s₁ → step s₁ e s₂ → C es e → I (es ++ [e]) s₂ ∧ P es e)
    (hC : Along C es) :
  I es s' ∧ Along P es
  := by
  induction h with
  | nil =>
      use init
      apply along_nil
  | @snoc s₁ s₂ es e run last ih =>
      obtain ⟨hes, he⟩ := along_snoc.mp hC
      obtain ⟨hI, hP⟩ := ih hes
      obtain ⟨hI', hP'⟩ := next es e s₁ s₂ hI last he
      use hI'
      apply along_snoc.mpr ⟨hP, hP'⟩

end Run
