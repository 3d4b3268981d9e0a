import Hed.Prelude.Interleaving

/-!
# Contracts of processes

A contract is a protocol that also says which replies a call can get in each state.  A
program honours it if it keeps to the protocol whenever the replies are among those.
`Interleaving.run_contract` is the rule for processes that all honour one contract: an
invariant that ties the states of all of them to the world and to what has happened so far
holds in every run.  Each process may rely on the others, since they honour the contract, too.
-/

universe u v

/-- The calls allowed in each state, the replies they can get there, and the state after
each reply. -/
structure Contract (S : Signature.{u}) (Θ : Type v) extends Protocol S Θ where
  can : Θ → (c : S.Call) → S.Reply c → Prop

namespace Program

variable {S : Signature.{u}} {Θ : Type v} {α β : Type u} (C : Contract S Θ)

/-- From the state `θ` on the program keeps to the contract, as long as the replies are such
as the contract says, and if it ends, it does so in a state and with a value in `Q`. -/
def Honours : Program S α → (Θ → α → Prop) → Θ → Prop
  | .done a, Q, θ => Q θ a
  | .halt, _, _ => True
  | .call c next, Q, θ =>
      C.allows θ c ∧ ∀ r, C.can θ c r → Honours (next r) Q (C.next θ c r)

theorem honours_mono {p : Program S α} {Q Q' : Θ → α → Prop} {θ : Θ} (h : Honours C p Q θ)
    (hQ : ∀ θ a, Q θ a → Q' θ a) :
  Honours C p Q' θ
  := by
  induction p generalizing θ with
  | done a => apply hQ _ _ h
  | halt => trivial
  | call c next ih =>
      use h.1
      intro r hr
      apply ih r (h.2 r hr)

/-- Sequencing by what is known of the first program. -/
theorem honours_bind_of {p : Program S α} {q : α → Program S β} {R : Θ → α → Prop}
    {Q : Θ → β → Prop} {θ : Θ} (hp : Honours C p R θ)
    (hq : ∀ θ' a, R θ' a → Honours C (q a) Q θ') :
  Honours C (p >>= q) Q θ
  := by
  induction p generalizing θ with
  | done a => apply hq θ a hp
  | halt => trivial
  | call c next ih =>
      use hp.1
      intro r hr
      apply ih r (hp.2 r hr)

/-- A call, and what follows each of its replies. -/
theorem honours_ask_bind {c : S.Call} {q : S.Reply c → Program S β} {Q : Θ → β → Prop} {θ : Θ}
    (hc : C.allows θ c) (hq : ∀ r, C.can θ c r → Honours C (q r) Q (C.next θ c r)) :
  Honours C (ask c >>= q) Q θ
  := ⟨hc, hq⟩

theorem honours_require_bind (p : Prop) [Decidable p] (q : PUnit → Program S β)
    (Q : Θ → β → Prop) (θ : Θ) :
  Honours C (require p >>= q) Q θ ↔ (p → Honours C (q ⟨⟩) Q θ)
  := by
  by_cases hp : p
  · simp only [require, if_pos hp]
    constructor
    · intro h _
      apply h
    · intro h
      apply h hp
  · simp only [require, if_neg hp]
    constructor
    · intro _ h
      apply (hp h).elim
    · intro _
      trivial

theorem honours_demand_bind (o : Option α) (q : α → Program S β) (Q : Θ → β → Prop) (θ : Θ) :
  Honours C (demand o >>= q) Q θ ↔ ∀ a, o = some a → Honours C (q a) Q θ
  := by
  cases o with
  | none =>
      constructor
      · rintro _ a ⟨⟩
      · intro _
        trivial
  | some a =>
      constructor
      · rintro h _ ⟨⟩
        apply h
      · intro h
        apply h a rfl

/-- What is known of a program in a world that its calls do not change is known of it
wherever the replies are those of that world. -/
theorem honours_of_wp {F : Type*} {W : Type u} (H : Handler S F W) {K : S.Call → Prop}
    {p : Program S α} {Q : List (Event S F) → α → W → Prop} {θ : Θ} {w : W} (hp : p.Calls K)
    (allows : ∀ c, K c → C.allows θ c) (next : ∀ c r, K c → C.next θ c r = θ)
    (can : ∀ c r, K c → C.can θ c r → ∃ f, H f c w = (r, w)) (h : wp H p Q w) :
  Honours C p (fun θ' a => θ' = θ ∧ ∃ t, Q t a w) θ
  := by
  induction p generalizing Q with
  | done a => exact ⟨rfl, [], h⟩
  | halt => trivial
  | call c rest ih =>
      use allows c hp.1
      intro r hr
      obtain ⟨f, hf⟩ := can c r hp.1 hr
      have hrest := h f
      rw [hf] at hrest
      rw [next c r hp.1]
      apply honours_mono C (ih r (hp.2 r) hrest)
      rintro θ' a ⟨rfl, t, hQ⟩
      exact ⟨rfl, ⟨c, f⟩ :: t, hQ⟩

end Program

/-- A contract for processes that perform operations: the state in which an operation is
begun, and the one in which a process is when it has returned; what is so of a process at
rest; what is so when an operation ends; and which operations the contract is for. -/
structure Terms (S : Signature.{u}) (O : Type v) (ρ σ : Type u) (Θ : Type v) extends
    Contract S Θ where
  enter : O → Θ → Θ
  leave : ρ × σ → Θ → Θ
  Rest : Θ → σ → Prop
  Post : O → Θ → ρ × σ → Prop
  Admits : O → Prop

namespace Interleaving

variable {S : Signature.{u}} {ι F O : Type v} {W ρ σ : Type u} {Θ : Type v}

/-- What is left of the program of a process honours the contract. -/
def Honest (T : Terms S O ρ σ Θ) (θ : Θ) : Process S O ρ σ → Prop
  | .rest own => T.Rest θ own
  | .busy op left => Program.Honours T.toContract left (T.Post op) θ

/-- The operation of a step, if it begins one, is one the contract is for. -/
def Admitted (T : Terms S O ρ σ Θ) : Move S ι F W O ρ σ → Prop
  | .call _ op => T.Admits op
  | _ => True

section Contract

variable [DecidableEq ι]

/-- The states of the contract of all processes after a step. -/
def advance (T : Terms S O ρ σ Θ) (θ : ι → Θ) : Move S ι F W O ρ σ → ι → Θ
  | .call i op => Function.update θ i (T.enter op (θ i))
  | .ask i c _ _ reply => Function.update θ i (T.next (θ i) c reply)
  | .ret i _ result own => Function.update θ i (T.leave (result, own) (θ i))

/-- The states of the contract of all processes after the steps of a run. -/
def stages (T : Terms S O ρ σ Θ) (start : ι → Θ) (ms : List (Move S ι F W O ρ σ)) : ι → Θ :=
  ms.foldl (advance T) start

theorem stages_snoc (T : Terms S O ρ σ Θ) (start : ι → Θ) (ms : List (Move S ι F W O ρ σ))
    (m : Move S ι F W O ρ σ) :
  stages T start (ms ++ [m]) = advance T (stages T start ms) m
  := by
  rw [stages, List.foldl_append]
  rfl

/-- The conditions under which the processes keep an invariant `J` of the past, of the
states of the contract of all of them, and of the world. -/
structure Binds (M : Interleaving S ι F W O ρ σ) (T : Terms S O ρ σ Θ)
    (J : List (Move S ι F W O ρ σ) → (ι → Θ) → W → Prop) : Prop where
  honours : ∀ op own θ, T.Admits op → T.Rest θ own →
    Program.Honours T.toContract (M.program op own) (T.Post op) (T.enter op θ)
  resting : ∀ op θ r, T.Post op θ r → T.Rest (T.leave r θ) r.2
  entering : ∀ past θ w i op, J past θ w →
    J (past ++ [.call i op]) (advance T θ (.call i op : Move S ι F W O ρ σ)) w
  replies : ∀ past θ w i c f, J past θ w → T.allows (θ i) c → M.waits i c f w = false →
    T.can (θ i) c (M.handle i f c w).1
  calling : ∀ past θ w i c f, J past θ w → T.allows (θ i) c → M.waits i c f w = false →
    J (past ++ [.ask i c f w (M.handle i f c w).1])
      (advance T θ (.ask i c f w (M.handle i f c w).1)) (M.handle i f c w).2
  leaving : ∀ past θ w i op result own, J past θ w → T.Post op (θ i) (result, own) →
    J (past ++ [.ret i op result own])
      (advance T θ (.ret i op result own : Move S ι F W O ρ σ)) w

/-- Every process is honest, and the invariant holds, after the steps `past` of a run. -/
def Bound (T : Terms S O ρ σ Θ) (J : List (Move S ι F W O ρ σ) → (ι → Θ) → W → Prop)
    (start : ι → Θ) (past : List (Move S ι F W O ρ σ)) (s : State S ι W O ρ σ) : Prop :=
  (∀ i, Honest T (stages T start past i) (s.process i)) ∧ J past (stages T start past) s.world

variable {M : Interleaving S ι F W O ρ σ} {T : Terms S O ρ σ Θ}
  {J : List (Move S ι F W O ρ σ) → (ι → Θ) → W → Prop}

/-- The process whose turn it was is honest again, and the others still are. -/
theorem honest_update {θ : ι → Θ} {process : ι → Process S O ρ σ}
    (h : ∀ i, Honest T (θ i) (process i)) {i : ι} {θ' : Θ} {p : Process S O ρ σ}
    (hi : Honest T θ' p) :
  ∀ j, Honest T (Function.update θ i θ' j) (Function.update process i p j)
  := by
  intro j
  by_cases hj : j = i
  · obtain rfl := hj
    rw [Function.update_self, Function.update_self]
    apply hi
  · rw [Function.update_of_ne hj, Function.update_of_ne hj]
    apply h

/-- One step keeps the invariant, and every process honest. -/
theorem Binds.step (h : Binds M T J) {past : List (Move S ι F W O ρ σ)} {θ : ι → Θ}
    {s s' : State S ι W O ρ σ} {m : Move S ι F W O ρ σ}
    (hhonest : ∀ i, Honest T (θ i) (s.process i)) (hJ : J past θ s.world)
    (hstep : M.Steps s m s') (hm : Admitted T m) :
  (∀ i, Honest T (advance T θ m i) (s'.process i)) ∧ J (past ++ [m]) (advance T θ m) s'.world
  := by
  cases hstep.stepped with
  | @call i op own hown =>
      have hi := hhonest i
      rw [hown] at hi
      constructor
      · exact honest_update hhonest (h.honours op own (θ i) hm hi)
      · apply h.entering past θ _ i op hJ
  | @ask i f op c next hbusy hwaits =>
      have hi := hhonest i
      rw [hbusy] at hi
      constructor
      · have hcan := h.replies past θ s.world i c f hJ hi.1 hwaits
        exact honest_update hhonest (hi.2 _ hcan)
      · apply h.calling past θ s.world i c f hJ hi.1 hwaits
  | @ret i op result own hdone =>
      have hi := hhonest i
      rw [hdone] at hi
      constructor
      · exact honest_update hhonest (h.resting op (θ i) _ hi)
      · apply h.leaving past θ _ i op result own hJ hi

/-- In every run of admitted operations the invariant holds, and every process is honest. -/
theorem run_contract (h : Binds M T J) {start : ι → Θ} {s s' : State S ι W O ρ σ}
    {ms : List (Move S ι F W O ρ σ)} (run : Run M.Steps s ms s')
    (hhonest : ∀ i, Honest T (start i) (s.process i)) (hJ : J [] start s.world)
    (hms : ∀ m ∈ ms, Admitted T m) :
  (∀ i, Honest T (stages T start ms i) (s'.process i)) ∧ J ms (stages T start ms) s'.world
  := by
  have hstart : Bound T J start [] s := ⟨hhonest, hJ⟩
  have hnext : ∀ past m s₁ s₂, Bound T J start past s₁ → M.Steps s₁ m s₂ → Admitted T m →
      Bound T J start (past ++ [m]) s₂ ∧ True := by
    rintro past m s₁ s₂ ⟨hhonest₁, hJ₁⟩ hstep hm
    have hbound := h.step hhonest₁ hJ₁ hstep hm
    rw [← stages_snoc] at hbound
    exact ⟨hbound, trivial⟩
  have hrun := run.along (P := fun _ _ => True) hstart hnext (along_iff_forall_mem.mpr hms)
  apply hrun.1

end Contract

end Interleaving
