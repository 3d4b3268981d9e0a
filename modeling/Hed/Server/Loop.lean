import Hed.Prelude.Run
import Hed.Server.Code

/-!
# What the server loop serves

The loop is to hand every event on in the iteration in which it is reported, and to end at
the first error.  But `hed_srv_process` takes a delay of zero for the delay having expired,
and then looks neither at the events nor at the errors that `upoll_wait` has reported.
`serves_iff` says that nothing else goes wrong.
-/

namespace Hed

open Program

/-! ### What the loop is to do -/

namespace Turn

/-- `upoll_wait` fails, and not because the delay has expired or of a signal. -/
def Fails (turn : Turn) : Prop :=
  turn.wait < 0 ∧ turn.wait ≠ -ETIME.code ∧ turn.wait ≠ -EINTR.code

instance (turn : Turn) : Decidable turn.Fails :=
  inferInstanceAs (Decidable (_ ∧ _ ∧ _))

/-- The code that is to end the loop in this turn, if any. -/
def code (turn : Turn) : Option ℤ :=
  if turn.Fails then some turn.wait
  else if 0 < turn.wait ∧ turn.dispatch ≠ 0 ∧ turn.dispatch ≠ -EINTR.code then
    some turn.dispatch
  else none

end Turn

/-- What `hed_srv_run` is to return for the code that ends the loop. -/
def exitCode (code : ℤ) : ℤ := if code = -ESHUTDOWN.code then 0 else code

/-- The loop loses no event and hides no error: in each of its iterations in which events are
reported, they are dispatched; it ends in the first turn that has a code, and returns that;
and without such a turn it goes on. -/
structure ServesAll (turns : List Turn) (served : Served) : Prop where
  dispatched : ∀ it ∈ served.iterations, 0 < it.turn.wait →
    .upollDispatch it.turn.wait.toNat ∈ it.calls
  ended : ∀ before turn after code, turns = before ++ turn :: after →
    (∀ t ∈ before, t.code = none) → turn.code = some code →
    served.iterations.map (fun it => it.turn) = before ++ [turn]
      ∧ served.ret = some (exitCode code)
  goesOn : (∀ t ∈ turns, t.code = none) →
    served.iterations.map (fun it => it.turn) = turns ∧ served.ret = none

/-- What gets lost in a turn: its timers are due at once, and there are events or an error. -/
def Turn.Loses (turn : Turn) : Prop := turn.tmout = 0 ∧ (0 < turn.wait ∨ turn.Fails)

/-- A signal that asks the server to terminate ends the loop, with the code zero. -/
theorem code_of_terminates {turn : Turn} {assertIntern : Bool} {state : BitVec 32} {ret : ℤ}
    {signo : ℕ} (hwait : 0 < turn.wait) (hret : 0 ≤ ret) (hsigno : Terminates signo)
    (hdispatch : hedSrvDispatchSigchan assertIntern state ret signo = some turn.dispatch) :
  turn.code = some (-ESHUTDOWN.code) ∧ exitCode (-ESHUTDOWN.code) = 0
  := by
  have hfails : ¬ turn.Fails := by
    rintro ⟨hneg, -⟩
    omega
  have hshutdown : turn.dispatch = -ESHUTDOWN.code := by
    rw [hedSrvDispatchSigchan] at hdispatch
    split_ifs at hdispatch with hstate hzero hneg hagain
    · omega
    · omega
    · apply (Option.some.inj hdispatch).symm
  constructor
  · rw [Turn.code, if_neg hfails, hshutdown, if_pos ⟨hwait, by decide, by decide⟩]
  · rfl

/-- A signal that the server ignores does not end it. -/
theorem code_of_ignored {turn : Turn} {assertIntern : Bool} {state : BitVec 32} {ret : ℤ}
    {signo : ℕ} (hwait : 0 < turn.wait) (hret : 0 ≤ ret)
    (hsigno : signo = SIGUSR1 ∨ signo = SIGUSR2)
    (hdispatch : hedSrvDispatchSigchan assertIntern state ret signo = some turn.dispatch) :
  turn.code = none
  := by
  have hfails : ¬ turn.Fails := by
    rintro ⟨hneg, -⟩
    omega
  have hterminates : ¬ Terminates signo := by
    rcases hsigno with rfl | rfl
    · decide
    · decide
  have hzero : turn.dispatch = 0 := by
    rw [hedSrvDispatchSigchan] at hdispatch
    split_ifs at hdispatch with hstate hzero hneg hagain
    · omega
    · omega
    · apply (Option.some.inj hdispatch).symm
  rw [Turn.code, if_neg hfails, if_neg (fun h => h.2.1 hzero)]

/-! ### One iteration -/

/-- The calls and the code of an iteration. -/
theorem iterate_eq (turn : Turn) :
  iterate turn
    = if turn.wait = -ETIME.code ∨ turn.tmout = 0 then
        (⟨turn, [.etuxTimerIssueMsec, .upollWait turn.tmout, .etuxTimerRun]⟩, some 0)
      else if turn.wait ≤ 0 then
        (⟨turn, [.etuxTimerIssueMsec, .upollWait turn.tmout]⟩, some turn.wait)
      else
        (⟨turn, [.etuxTimerIssueMsec, .upollWait turn.tmout, .upollDispatch turn.wait.toNat]⟩,
          some turn.dispatch)
  := by
  let rest : Srv ℤ :=
    if turn.wait = -ETIME.code ∨ turn.tmout = 0 then do
      etuxTimerRun
      pure 0
    else if turn.wait ≤ 0 then pure turn.wait
    else upollDispatch turn.wait.toNat
  have hiterate : iterate turn
      = (⟨turn, .etuxTimerIssueMsec :: .upollWait turn.tmout
          :: (exec (answer turn) rest [] ()).trace.map (fun e => e.call)⟩,
        (exec (answer turn) rest [] ()).value) := rfl
  rw [hiterate]
  simp only [rest]
  split_ifs with hexpired hready
  · rfl
  · rfl
  · rfl

/-- An iteration that loses nothing dispatches the events. -/
theorem dispatch_mem {turn : Turn} (h : ¬ turn.Loses) (hwait : 0 < turn.wait) :
  .upollDispatch turn.wait.toNat ∈ (iterate turn).1.calls
  := by
  have htime : ¬ (turn.wait = -ETIME.code ∨ turn.tmout = 0) := by
    rintro (htime | htmout)
    · rw [htime] at hwait
      revert hwait
      decide
    · apply h ⟨htmout, Or.inl hwait⟩
  rw [iterate_eq, if_neg htime, if_neg (by omega)]
  simp

/-- An iteration that loses nothing returns the code of its turn, or one that goes on. -/
theorem iterate_ret {turn : Turn} (h : ¬ turn.Loses) :
  ∃ ret, (iterate turn).2 = some ret
    ∧ turn.code = if ret = 0 ∨ ret = -EINTR.code then none else some ret
  := by
  rw [iterate_eq]
  split_ifs with hexpired hready
  · use 0, rfl
    have hfails : ¬ turn.Fails := by
      rintro ⟨hneg, htime, hintr⟩
      rcases hexpired with hexpired | htmout
      · apply htime hexpired
      · apply h ⟨htmout, Or.inr ⟨hneg, htime, hintr⟩⟩
    have hready : ¬ 0 < turn.wait := by
      intro hpos
      rcases hexpired with hexpired | htmout
      · rw [hexpired] at hpos
        revert hpos
        decide
      · apply h ⟨htmout, Or.inl hpos⟩
    rw [Turn.code, if_neg hfails, if_neg (fun h' => hready h'.1), if_pos (Or.inl rfl)]
  · use turn.wait, rfl
    obtain ⟨htime, -⟩ := not_or.mp hexpired
    have hpos : ¬ (0 < turn.wait ∧ turn.dispatch ≠ 0 ∧ turn.dispatch ≠ -EINTR.code) := by
      rintro ⟨hpos, -⟩
      omega
    rw [Turn.code, if_neg hpos]
    by_cases hfails : turn.Fails
    · have hends : ¬ (turn.wait = 0 ∨ turn.wait = -EINTR.code) := by
        rintro (hzero | hintr)
        · apply hfails.1.ne hzero
        · apply hfails.2.2 hintr
      rw [if_pos hfails, if_neg hends]
    · have hgoes : turn.wait = 0 ∨ turn.wait = -EINTR.code := by
        by_contra h'
        obtain ⟨hzero, hintr⟩ := not_or.mp h'
        apply hfails ⟨lt_of_le_of_ne hready hzero, htime, hintr⟩
      rw [if_neg hfails, if_pos hgoes]
  · use turn.dispatch, rfl
    have hfails : ¬ turn.Fails := by
      rintro ⟨hneg, -⟩
      omega
    rw [Turn.code, if_neg hfails]
    split_ifs with h₁ h₂ h₃
    · rcases h₂ with h₂ | h₂
      · apply (h₁.2.1 h₂).elim
      · apply (h₁.2.2 h₂).elim
    · rfl
    · rfl
    · apply (h₁ ⟨by omega, not_or.mp h₃⟩).elim

/-- An iteration that loses something dispatches nothing, and the loop goes on. -/
theorem iterate_loses {turn : Turn} (h : turn.Loses) :
  iterate turn
    = (⟨turn, [.etuxTimerIssueMsec, .upollWait turn.tmout, .etuxTimerRun]⟩, some 0)
  := by
  rw [iterate_eq, if_pos (Or.inr h.1)]

@[simp]
theorem iterate_turn (turn : Turn) :
  (iterate turn).1.turn = turn
  := rfl

/-! ### The loop -/

/-- The first iteration of the loop, and what comes after it. -/
theorem hedSrvRun_cons {turn : Turn} {rest : List Turn} {ret : ℤ}
    (hret : (iterate turn).2 = some ret) :
  hedSrvRun (turn :: rest)
    = if ret = 0 ∨ ret = -EINTR.code then
        ⟨(iterate turn).1 :: (hedSrvRun rest).iterations, (hedSrvRun rest).ret⟩
      else ⟨[(iterate turn).1], some (exitCode ret)⟩
  := by
  have hloop : hedSrvLoop (turn :: rest)
      = if ret = 0 ∨ ret = -EINTR.code then
          ⟨(iterate turn).1 :: (hedSrvLoop rest).iterations, (hedSrvLoop rest).ret⟩
        else ⟨[(iterate turn).1], some ret⟩ := by
    rw [hedSrvLoop]
    generalize iterate turn = r at hret
    obtain ⟨it, o⟩ := r
    obtain rfl : o = some ret := hret
    rfl
  rw [hedSrvRun, hloop]
  split_ifs with hgoes
  · rfl
  · obtain ⟨-, hintr⟩ := not_or.mp hgoes
    simp [exitCode, hintr]

/-- The loop ends only if it returns a code, or there are no turns left. -/
theorem iterations_ne_nil {turns : List Turn} (h : turns ≠ []) :
  (hedSrvRun turns).iterations ≠ []
  := by
  cases turns with
  | nil => apply (h rfl).elim
  | cons turn rest =>
      have hret : ∃ ret, (iterate turn).2 = some ret := by
        rw [iterate_eq]
        split_ifs with hexpired hready
        · use 0
        · use turn.wait
        · use turn.dispatch
      obtain ⟨ret, hret⟩ := hret
      rw [hedSrvRun_cons hret]
      split_ifs with hgoes
      · simp
      · simp

/-- A turn without a code, in which nothing gets lost, can be left out. -/
theorem servesAll_cons {turn : Turn} {rest : List Turn} {it : Iteration} {served : Served}
    (hturn : it.turn = turn) (hcode : turn.code = none)
    (hdispatch : 0 < turn.wait → .upollDispatch turn.wait.toNat ∈ it.calls) :
  ServesAll (turn :: rest) ⟨it :: served.iterations, served.ret⟩ ↔ ServesAll rest served
  := by
  constructor
  · intro h
    constructor
    · intro it' hit'
      apply h.dispatched it' (List.mem_cons_of_mem _ hit')
    · rintro before turn' after code rfl hbefore hcode'
      obtain ⟨hturns, hret⟩ := h.ended (turn :: before) turn' after code rfl
        (List.forall_mem_cons.mpr ⟨hcode, hbefore⟩) hcode'
      use (List.cons.inj hturns).2, hret
    · intro hrest
      obtain ⟨hturns, hret⟩ := h.goesOn (List.forall_mem_cons.mpr ⟨hcode, hrest⟩)
      use (List.cons.inj hturns).2, hret
  · intro h
    constructor
    · intro it' hit'
      rcases List.mem_cons.mp hit' with rfl | hit''
      · rw [hturn]
        apply hdispatch
      · apply h.dispatched it' hit''
    · intro before turn' after code hturns hbefore hcode'
      cases before with
      | nil =>
          obtain ⟨rfl, -⟩ := List.cons.inj hturns
          rw [hcode] at hcode'
          cases hcode'
      | cons t before =>
          obtain ⟨rfl, hrest⟩ := List.cons.inj hturns
          obtain ⟨-, hbefore'⟩ := List.forall_mem_cons.mp hbefore
          obtain ⟨hturns', hret⟩ := h.ended before turn' after code hrest hbefore' hcode'
          rw [List.map_cons, hturn, hturns']
          exact ⟨rfl, hret⟩
    · intro hall
      obtain ⟨hturns, hret⟩ := h.goesOn (List.forall_mem_cons.mp hall).2
      rw [List.map_cons, hturn, hturns]
      exact ⟨rfl, hret⟩

/-- A turn that has a code, and in which the loop ends. -/
theorem servesAll_ended {turn : Turn} {rest : List Turn} {it : Iteration} {code : ℤ}
    (hturn : it.turn = turn) (hcode : turn.code = some code)
    (hdispatch : 0 < turn.wait → .upollDispatch turn.wait.toNat ∈ it.calls) :
  ServesAll (turn :: rest) ⟨[it], some (exitCode code)⟩
  := by
  constructor
  · intro it' hit'
    rw [List.mem_singleton.mp hit', hturn]
    apply hdispatch
  · intro before turn' after code' hturns hbefore hcode'
    cases before with
    | nil =>
        obtain ⟨rfl, -⟩ := List.cons.inj hturns
        rw [hcode] at hcode'
        rw [Option.some.inj hcode', List.map_singleton, hturn]
        exact ⟨rfl, rfl⟩
    | cons t before =>
        obtain ⟨rfl, -⟩ := List.cons.inj hturns
        obtain ⟨hnone, -⟩ := List.forall_mem_cons.mp hbefore
        rw [hcode] at hnone
        cases hnone
  · intro hall
    obtain ⟨hnone, -⟩ := List.forall_mem_cons.mp hall
    rw [hcode] at hnone
    cases hnone

/-- When something gets lost in the first turn, the loop does not do what it is to do. -/
theorem not_servesAll_of_loses {turn : Turn} {rest : List Turn} (h : turn.Loses) :
  ¬ ServesAll (turn :: rest) (hedSrvRun (turn :: rest))
  := by
  have hret : (iterate turn).2 = some 0 := by
    rw [iterate_loses h]
  rw [hedSrvRun_cons hret, if_pos (Or.inl rfl)]
  intro hserves
  rcases h.2 with hwait | hfails
  · have hmem := hserves.dispatched _ List.mem_cons_self hwait
    rw [iterate_loses h] at hmem
    simp at hmem
  · have hcode : turn.code = some turn.wait := by
      rw [Turn.code, if_pos hfails]
    obtain ⟨hturns, hsome⟩ := hserves.ended [] turn rest turn.wait rfl (by simp) hcode
    cases rest with
    | nil => cases hsome
    | cons turn' rest =>
        have hne := iterations_ne_nil (List.cons_ne_nil turn' rest)
        simp at hturns
        apply hne hturns

/-- Nothing gets lost in the turns up to the first that has a code. -/
def LosesNothing (turns : List Turn) : Prop :=
  Along (fun before turn => (∀ t ∈ before, t.code = none) → ¬ turn.Loses) turns

theorem losesNothing_cons {turn : Turn} {rest : List Turn} :
  LosesNothing (turn :: rest) ↔ ¬ turn.Loses ∧ (turn.code = none → LosesNothing rest)
  := by
  rw [LosesNothing, along_cons]
  constructor
  · rintro ⟨hturn, hrest⟩
    use hturn (by simp)
    intro hcode before turn' after hturns hbefore
    apply hrest before turn' after hturns
    exact List.forall_mem_cons.mpr ⟨hcode, hbefore⟩
  · rintro ⟨hturn, hrest⟩
    use fun _ => hturn
    intro before turn' after hturns hbefore
    obtain ⟨hcode, hbefore'⟩ := List.forall_mem_cons.mp hbefore
    apply hrest hcode before turn' after hturns hbefore'

/-- The loop loses no event and hides no error exactly if, up to the first turn that has a
code, its timers are never due at once when there are events or an error. -/
theorem serves_all_iff (turns : List Turn) :
  ServesAll turns (hedSrvRun turns) ↔ LosesNothing turns
  := by
  induction turns with
  | nil =>
      apply iff_of_true
      · constructor
        · rintro it ⟨⟩
        · intro before turn after code hturns
          simp at hturns
        · intro _
          exact ⟨rfl, rfl⟩
      · apply along_nil
  | cons turn rest ih =>
      rw [losesNothing_cons]
      by_cases hloses : turn.Loses
      · apply iff_of_false (not_servesAll_of_loses hloses)
        rintro ⟨hnot, -⟩
        apply hnot hloses
      · obtain ⟨ret, hret, hcode⟩ := iterate_ret hloses
        rw [hedSrvRun_cons hret]
        split_ifs at hcode ⊢ with hgoes
        · rw [servesAll_cons (iterate_turn turn) hcode (dispatch_mem hloses), ih]
          simp [hloses, hcode]
        · apply iff_of_true (servesAll_ended (iterate_turn turn) hcode (dispatch_mem hloses))
          use hloses
          intro hnone
          rw [hcode] at hnone
          cases hnone

/-- A server whose timer is due when the shutdown signal is reported. -/
def dueTimer : List Turn := [⟨0, 1, -ESHUTDOWN.code⟩]

/-- The signal is not dispatched, and the server goes on. -/
theorem due_timer_loses_signal :
  ¬ ∀ turns, ServesAll turns (hedSrvRun turns)
  := by
  intro hserves
  have hended := (hserves dueTimer).ended [] ⟨0, 1, -ESHUTDOWN.code⟩ [] (-ESHUTDOWN.code) rfl
    (by simp) (by decide)
  revert hended
  decide

end Hed
