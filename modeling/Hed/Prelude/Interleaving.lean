import Mathlib.Data.List.DropRight
import Mathlib.Logic.Function.Basic
import Hed.Prelude.Protocol
import Hed.Prelude.Run

/-!
# Interleavings of processes

Processes share a world.  Each of them performs operations, one after another; an operation
is a program, and each of its calls is one step, so that anything may happen between two
calls of a process.  `Interleaving.run_protocol` is the rule for what one of the processes
relies on: if its programs follow a protocol, an invariant that ties the state of the
protocol to the world holds in every run in which the calls of the others keep it.
`Interleaving.called_of_busy` finds the step that began an operation, so that the rule can be
used from there on.
-/

universe u v

/-- A process: at rest, in a state of its own, or in an operation, with what is left of its
program. -/
inductive Process (S : Signature.{u}) (O : Type v) (ρ σ : Type u) where
  | rest (s : σ)
  | busy (op : O) (left : Program S (ρ × σ))

/-- Processes `ι` that share a world `W`: the program of each operation, what the calls of a
process do, and whether they have to wait. -/
structure Interleaving (S : Signature.{u}) (ι : Type v) (F : Type v) (W : Type u) (O : Type v)
    (ρ σ : Type u) where
  program : O → σ → Program S (ρ × σ)
  handle : ι → Program.Handler S F W
  waits : ι → S.Call → F → W → Bool

namespace Interleaving

variable {S : Signature.{u}} {ι F O : Type v} {W ρ σ : Type u}

/-- The processes and the world they share. -/
structure State (S : Signature.{u}) (ι : Type v) (W : Type u) (O : Type v) (ρ σ : Type u) where
  process : ι → Process S O ρ σ
  world : W

/-- Whose turn it is, and for what: to begin an operation, to make a call, which meets the
given fate, or to return. -/
inductive Turn (ι F O : Type v) where
  | call (i : ι) (op : O)
  | ask (i : ι) (f : F)
  | ret (i : ι)

/-- What there is to see of a step. -/
inductive Move (S : Signature.{u}) (ι F : Type v) (W : Type u) (O : Type v) (ρ σ : Type u) where
  | call (i : ι) (op : O)
  | ask (i : ι) (c : S.Call) (f : F) (before : W) (reply : S.Reply c)
  | ret (i : ι) (op : O) (result : ρ) (after : σ)

section Steps

variable [DecidableEq ι] (M : Interleaving S ι F W O ρ σ)

/-- The step of a turn, if it can be taken. -/
def step (s : State S ι W O ρ σ) : Turn ι F O → Option (Move S ι F W O ρ σ × State S ι W O ρ σ)
  | .call i op =>
      match s.process i with
      | .rest own =>
          some (.call i op,
            { s with process := Function.update s.process i (.busy op (M.program op own)) })
      | _ => none
  | .ask i f =>
      match s.process i with
      | .busy op (.call c next) =>
          if M.waits i c f s.world then none
          else
            let r := M.handle i f c s.world
            some (.ask i c f s.world r.1,
              ⟨Function.update s.process i (.busy op (next r.1)), r.2⟩)
      | _ => none
  | .ret i =>
      match s.process i with
      | .busy op (.done (result, own)) =>
          some (.ret i op result own,
            { s with process := Function.update s.process i (.rest own) })
      | _ => none

/-- The steps of the processes. -/
def Steps (s : State S ι W O ρ σ) (m : Move S ι F W O ρ σ) (s' : State S ι W O ρ σ) : Prop :=
  ∃ turn, M.step s turn = some (m, s')

/-- The steps of the processes, each with what it needs and where it leads. -/
inductive Stepped (s : State S ι W O ρ σ) : Move S ι F W O ρ σ → State S ι W O ρ σ → Prop where
  | call {i : ι} {op : O} {own : σ} (rest : s.process i = .rest own) :
      Stepped s (.call i op)
        { s with process := Function.update s.process i (.busy op (M.program op own)) }
  | ask {i : ι} {f : F} {op : O} {c : S.Call} {next : S.Reply c → Program S (ρ × σ)}
      (busy : s.process i = .busy op (.call c next)) (waits : M.waits i c f s.world = false) :
      Stepped s (.ask i c f s.world (M.handle i f c s.world).1)
        ⟨Function.update s.process i (.busy op (next (M.handle i f c s.world).1)),
          (M.handle i f c s.world).2⟩
  | ret {i : ι} {op : O} {result : ρ} {own : σ}
      (done : s.process i = .busy op (.done (result, own))) :
      Stepped s (.ret i op result own)
        { s with process := Function.update s.process i (.rest own) }

variable {M} in
theorem Steps.stepped {s s' : State S ι W O ρ σ} {m : Move S ι F W O ρ σ} (h : M.Steps s m s') :
  M.Stepped s m s'
  := by
  obtain ⟨turn, hturn⟩ := h
  cases turn with
  | call i op =>
      rw [Interleaving.step] at hturn
      split at hturn
      · rename_i own hown
        obtain ⟨rfl, rfl⟩ := Prod.mk.inj (Option.some.inj hturn)
        apply Stepped.call hown
      · cases hturn
  | ask i f =>
      rw [Interleaving.step] at hturn
      split at hturn
      · rename_i op c next hbusy
        split_ifs at hturn with hwaits
        obtain ⟨rfl, rfl⟩ := Prod.mk.inj (Option.some.inj hturn)
        apply Stepped.ask hbusy (eq_false_of_ne_true hwaits)
      · cases hturn
  | ret i =>
      rw [Interleaving.step] at hturn
      split at hturn
      · rename_i op result own hdone
        obtain ⟨rfl, rfl⟩ := Prod.mk.inj (Option.some.inj hturn)
        apply Stepped.ret hdone
      · cases hturn

/-- Take the turns of a schedule. -/
def play : State S ι W O ρ σ → List (Turn ι F O) →
    Option (List (Move S ι F W O ρ σ) × State S ι W O ρ σ)
  | s, [] => some ([], s)
  | s, turn :: rest =>
      (M.step s turn).bind (fun r => (play r.2 rest).map (fun r' => (r.1 :: r'.1, r'.2)))

/-- What a schedule plays is a run. -/
theorem run_play {s s' : State S ι W O ρ σ} {schedule : List (Turn ι F O)}
    {ms : List (Move S ι F W O ρ σ)} (h : M.play s schedule = some (ms, s')) :
  Run M.Steps s ms s'
  := by
  induction schedule generalizing s ms with
  | nil =>
      cases h
      apply Run.nil
  | cons turn rest ih =>
      obtain ⟨⟨m, s₁⟩, hstep, h'⟩ := Option.bind_eq_some_iff.mp h
      obtain ⟨⟨ms', s₂⟩, hrest, h''⟩ := Option.map_eq_some_iff.mp h'
      cases h''
      apply Run.cons_iff.mpr
      use s₁
      constructor
      · use turn
      · apply ih hrest

/-! ### What a process is in -/

/-- The step begins an operation of the process `i`. -/
def Move.begins (i : ι) : Move S ι F W O ρ σ → Bool
  | .call j _ => j = i
  | _ => false

/-- The steps of a run since the process `i` has begun an operation the last time. -/
def sinceCall (i : ι) (ms : List (Move S ι F W O ρ σ)) : List (Move S ι F W O ρ σ) :=
  ms.rtakeWhile (fun m => !m.begins i)

variable {M} {s s' : State S ι W O ρ σ} {i : ι} {op : O}

/-- A process that begins an operation was at rest. -/
theorem process_of_call (h : M.Steps s (.call i op) s') :
  ∃ own, s.process i = .rest own ∧ s'.process i = .busy op (M.program op own)
    ∧ s'.world = s.world
  := by
  cases h.stepped with
  | @call _ _ own hown =>
      use own, hown
      constructor
      · apply Function.update_self
      · rfl

/-- A process that returns ends its program with what it returns. -/
theorem process_of_ret {result : ρ} {own : σ} (h : M.Steps s (.ret i op result own) s') :
  s.process i = .busy op (.done (result, own))
  := by
  cases h.stepped with
  | ret hdone => apply hdone

/-- A process is in an operation after a step that begins it, and after others if it was in
that operation before. -/
theorem busy_before {m : Move S ι F W O ρ σ} {left : Program S (ρ × σ)} (h : M.Steps s m s')
    (hbusy : s'.process i = .busy op left) :
  m = .call i op ∨ (m.begins i = false ∧ ∃ left', s.process i = .busy op left')
  := by
  cases h.stepped with
  | @call j op' own hown =>
      by_cases hj : j = i
      · obtain rfl := hj
        simp only [Function.update_self] at hbusy
        left
        rw [(Process.busy.inj hbusy).1]
      · simp only [Function.update_of_ne (Ne.symm hj)] at hbusy
        right
        use decide_eq_false hj, left
  | @ask j f op' c next hbusy' hwaits =>
      right
      use rfl
      by_cases hj : j = i
      · obtain rfl := hj
        simp only [Function.update_self] at hbusy
        use .call c next
        rw [hbusy', (Process.busy.inj hbusy).1]
      · simp only [Function.update_of_ne (Ne.symm hj)] at hbusy
        use left
  | @ret j op' result own hdone =>
      right
      use rfl
      by_cases hj : j = i
      · obtain rfl := hj
        simp only [Function.update_self] at hbusy
        cases hbusy
      · simp only [Function.update_of_ne (Ne.symm hj)] at hbusy
        use left

/-- A process that was at rest and is in an operation has begun it, and has begun no other one
since. -/
theorem called_of_busy {ms : List (Move S ι F W O ρ σ)} (run : Run M.Steps s ms s') {own : σ}
    (hrest : s.process i = .rest own) {left : Program S (ρ × σ)}
    (hbusy : s'.process i = .busy op left) :
  ∃ earlier, ms = earlier ++ .call i op :: sinceCall i ms
  := by
  induction run generalizing left with
  | nil =>
      rw [hrest] at hbusy
      cases hbusy
  | @snoc s₁ s₂ ms m run last ih =>
      rcases busy_before last hbusy with rfl | ⟨hbegins, left', hbusy'⟩
      · use ms
        rw [sinceCall, List.rtakeWhile_concat_neg]
        simp [Move.begins]
      · obtain ⟨earlier, hms⟩ := ih hbusy'
        use earlier
        rw [sinceCall, List.rtakeWhile_concat_pos _ _ _ (by rw [hbegins]; rfl), ← sinceCall,
          ← List.cons_append, ← List.append_assoc, ← hms]

end Steps

section Protocol

variable [DecidableEq ι] {Θ : Type*}

/-- The state of the protocol of the process `i` after a step: `enter` is where it begins an
operation, and its calls go on from there. -/
def follow (P : Protocol S Θ) (enter : O → Θ → Θ) (i : ι) (θ : Θ) : Move S ι F W O ρ σ → Θ
  | .call j op => if j = i then enter op θ else θ
  | .ask j c _ _ reply => if j = i then P.next θ c reply else θ
  | .ret _ _ _ _ => θ

/-- The state of the protocol of the process `i` after the steps of a run. -/
def phase (P : Protocol S Θ) (enter : O → Θ → Θ) (start : Θ) (i : ι)
    (ms : List (Move S ι F W O ρ σ)) : Θ :=
  ms.foldl (follow P enter i) start

theorem phase_snoc (P : Protocol S Θ) (enter : O → Θ → Θ) (start : Θ) (i : ι)
    (ms : List (Move S ι F W O ρ σ)) (m : Move S ι F W O ρ σ) :
  phase P enter start i (ms ++ [m]) = follow P enter i (phase P enter start i ms) m
  := by
  rw [phase, List.foldl_append]
  rfl

/-- What is left of the program of a process follows the protocol, and ends as `Post` says;
at rest, the state of the protocol is one of `Idle`. -/
def Keeps (P : Protocol S Θ) (Idle : Θ → Prop) (Post : O → Θ → ρ × σ → Prop) (θ : Θ) :
    Process S O ρ σ → Prop
  | .rest _ => Idle θ
  | .busy op left => Program.Follows P left (Post op) θ

/-- What a step of the process `i` shows of the protocol: its call is allowed, and what it
returns satisfies `Post`. -/
def Shows (P : Protocol S Θ) (Post : O → Θ → ρ × σ → Prop) (i : ι) (θ : Θ) :
    Move S ι F W O ρ σ → Prop
  | .call _ _ => True
  | .ask j c _ _ _ => j = i → P.allows θ c
  | .ret j op result own => j = i → Post op θ (result, own)

/-- The call of a step, if another process than `i` makes it, satisfies `C`. -/
def Obeys (C : Θ → ι → S.Call → F → W → Prop) (i : ι) (θ : Θ) : Move S ι F W O ρ σ → Prop
  | .ask j c f before _ => j ≠ i → C θ j c f before
  | _ => True

/-- The conditions under which an invariant `I` of the protocol of the process `i` and of the
world is kept: by the process itself, as it follows the protocol, and by the calls of the
others that satisfy `C`. -/
structure Relies (M : Interleaving S ι F W O ρ σ) (i : ι) (P : Protocol S Θ)
    (enter : O → Θ → Θ) (Idle : Θ → Prop) (Post : O → Θ → ρ × σ → Prop) (I : Θ → W → Prop)
    (C : Θ → ι → S.Call → F → W → Prop) : Prop where
  follows : ∀ op own θ, Idle θ → Program.Follows P (M.program op own) (Post op) (enter op θ)
  idle : ∀ op θ r, Post op θ r → Idle θ
  entering : ∀ op θ w, I θ w → I (enter op θ) w
  own : ∀ θ c f w, I θ w → P.allows θ c →
    I (P.next θ c (M.handle i f c w).1) (M.handle i f c w).2
  others : ∀ θ j c f w, j ≠ i → I θ w → C θ j c f w → I θ (M.handle j f c w).2

/-- What a process relies on, after the steps `past` of a run. -/
def Guarded (P : Protocol S Θ) (enter : O → Θ → Θ) (Idle : Θ → Prop)
    (Post : O → Θ → ρ × σ → Prop) (I : Θ → W → Prop) (start : Θ) (i : ι)
    (past : List (Move S ι F W O ρ σ)) (s : State S ι W O ρ σ) : Prop :=
  Keeps P Idle Post (phase P enter start i past) (s.process i)
    ∧ I (phase P enter start i past) s.world

variable {M : Interleaving S ι F W O ρ σ} {i : ι} {P : Protocol S Θ} {enter : O → Θ → Θ}
  {Idle : Θ → Prop} {Post : O → Θ → ρ × σ → Prop} {I : Θ → W → Prop}
  {C : Θ → ι → S.Call → F → W → Prop}

/-- One step keeps what the process relies on, and shows that it keeps to the protocol. -/
theorem Relies.step (h : Relies M i P enter Idle Post I C) {θ : Θ} {s s' : State S ι W O ρ σ}
    {m : Move S ι F W O ρ σ} (hkeeps : Keeps P Idle Post θ (s.process i)) (hI : I θ s.world)
    (hstep : M.Steps s m s') (hm : Obeys C i θ m) :
  Keeps P Idle Post (follow P enter i θ m) (s'.process i)
    ∧ I (follow P enter i θ m) s'.world ∧ Shows P Post i θ m
  := by
  have hother : ∀ {j : ι} {p : Process S O ρ σ}, j ≠ i →
      Keeps P Idle Post θ (Function.update s.process j p i) := by
    intro j p hj
    rw [Function.update_of_ne hj.symm]
    apply hkeeps
  cases hstep.stepped with
  | @call j op own hown =>
      by_cases hj : j = i
      · obtain rfl := hj
        rw [hown] at hkeeps
        simp only [follow, if_true, Function.update_self]
        use h.follows op own θ hkeeps, h.entering op θ _ hI
        trivial
      · simp only [follow, if_neg hj]
        use hother hj, hI
        trivial
  | @ask j f op c next hbusy hwaits =>
      by_cases hj : j = i
      · obtain rfl := hj
        rw [hbusy] at hkeeps
        simp only [follow, if_true, Function.update_self]
        use hkeeps.2 _, h.own θ c f s.world hI hkeeps.1
        intro _
        apply hkeeps.1
      · simp only [follow, if_neg hj]
        use hother hj, h.others θ j c f s.world hj hI (hm hj)
        intro hji
        apply (hj hji).elim
  | @ret j op result own hdone =>
      by_cases hj : j = i
      · obtain rfl := hj
        rw [hdone] at hkeeps
        simp only [follow, Function.update_self]
        use h.idle op θ _ hkeeps, hI
        intro _
        apply hkeeps
      · use hother hj, hI
        intro hji
        apply (hj hji).elim

/-- In every run in which the calls of the others satisfy the condition, the invariant of
the process holds, and the process keeps to its protocol. -/
theorem run_protocol (h : Relies M i P enter Idle Post I C) {start : Θ}
    {s s' : State S ι W O ρ σ} {ms : List (Move S ι F W O ρ σ)} (run : Run M.Steps s ms s')
    (hkeeps : Keeps P Idle Post start (s.process i)) (hI : I start s.world)
    (hms : Along (fun past m => Obeys C i (phase P enter start i past) m) ms) :
  I (phase P enter start i ms) s'.world
    ∧ Along (fun past m => Shows P Post i (phase P enter start i past) m) ms
  := by
  have hnext : ∀ past m s₁ s₂, Guarded P enter Idle Post I start i past s₁ → M.Steps s₁ m s₂ →
      Obeys C i (phase P enter start i past) m →
      Guarded P enter Idle Post I start i (past ++ [m]) s₂
        ∧ Shows P Post i (phase P enter start i past) m := by
    intro past m s₁ s₂ hguarded hstep hm
    obtain ⟨hkeeps', hI', hshows⟩ := h.step hguarded.1 hguarded.2 hstep hm
    rw [← phase_snoc] at hkeeps' hI'
    exact ⟨⟨hkeeps', hI'⟩, hshows⟩
  have hstart : Guarded (F := F) P enter Idle Post I start i [] s := ⟨hkeeps, hI⟩
  obtain ⟨hguarded, hshows⟩ := run.along hstart hnext hms
  exact ⟨hguarded.2, hshows⟩

end Protocol

end Interleaving
