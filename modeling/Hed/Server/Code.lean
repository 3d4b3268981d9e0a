import Hed.Lmdb.World
import Hed.Prelude.Program

/-!
# The server loop

The functions of `server.c` that serve: one iteration, the loop around it, and what the
descriptor of the signals makes of a signal.  The results of `upoll_wait` and of
`upoll_dispatch` and the delays of the timers come from outside; a `Turn` has those of one
iteration.
-/

namespace Hed

def EINTR : Errno := ⟨4, by decide⟩
def ETIME : Errno := ⟨62, by decide⟩
def ESHUTDOWN : Errno := ⟨108, by decide⟩

/-- The calls of an iteration of the server. -/
inductive SrvCall where
  | etuxTimerIssueMsec
  | etuxTimerRun
  | upollWait (tmout : ℤ)
  | upollDispatch (nr : ℕ)
  deriving DecidableEq

/-- What each of them replies. -/
def SrvCall.Reply : SrvCall → Type
  | .etuxTimerIssueMsec => ℤ
  | .etuxTimerRun => Unit
  | .upollWait _ => ℤ
  | .upollDispatch _ => ℤ

/-- The signature of these calls. -/
abbrev srvCalls : Signature where
  Call := SrvCall
  Reply := SrvCall.Reply

/-- A function of `server.c` that returns `α`. -/
abbrev Srv (α : Type) := Program srvCalls α

open Program

def etuxTimerIssueMsec : Srv ℤ := ask (S := srvCalls) .etuxTimerIssueMsec
def etuxTimerRun : Srv Unit := ask (S := srvCalls) .etuxTimerRun
def upollWait (tmout : ℤ) : Srv ℤ := ask (S := srvCalls) (.upollWait tmout)
def upollDispatch (nr : ℕ) : Srv ℤ := ask (S := srvCalls) (.upollDispatch nr)

def hedSrvProcess : Srv ℤ := do
  let tmout ← etuxTimerIssueMsec
  let ret ← upollWait tmout
  if ret = -ETIME.code ∨ tmout = 0 then do
    etuxTimerRun
    pure 0
  else if ret ≤ 0 then pure ret
  else upollDispatch ret.toNat

/-! ### The loop -/

/-- What an iteration meets: the delay of the timers, what `upoll_wait` returns, and what
`upoll_dispatch` returns, should it be called. -/
structure Turn where
  tmout : ℤ
  wait : ℤ
  dispatch : ℤ
  deriving DecidableEq

/-- The replies of a turn. -/
def answer (turn : Turn) : Handler srvCalls Unit Unit := fun _ c _ =>
  match c with
  | .etuxTimerIssueMsec => (turn.tmout, ())
  | .etuxTimerRun => ((), ())
  | .upollWait _ => (turn.wait, ())
  | .upollDispatch _ => (turn.dispatch, ())

/-- An iteration: what it met, and the calls it made. -/
structure Iteration where
  turn : Turn
  calls : List SrvCall
  deriving DecidableEq

/-- One iteration, and the code it returns. -/
def iterate (turn : Turn) : Iteration × Option ℤ :=
  let o := exec (answer turn) hedSrvProcess [] ()
  (⟨turn, o.trace.map (fun e => e.call)⟩, o.value)

/-- What there is to see of the loop: its iterations, and the code it returns, if the turns
suffice for it to end. -/
structure Served where
  iterations : List Iteration
  ret : Option ℤ
  deriving DecidableEq

/-- The loop of `hed_srv_run`, and its last return code. -/
def hedSrvLoop : List Turn → Served
  | [] => ⟨[], none⟩
  | turn :: rest =>
      match iterate turn with
      | (it, none) => ⟨[it], none⟩
      | (it, some ret) =>
          if ret = 0 ∨ ret = -EINTR.code then
            ⟨it :: (hedSrvLoop rest).iterations, (hedSrvLoop rest).ret⟩
          else ⟨[it], some ret⟩

def hedSrvRun (turns : List Turn) : Served :=
  ⟨(hedSrvLoop turns).iterations, (hedSrvLoop turns).ret.map (fun ret =>
    if ret = -ESHUTDOWN.code ∨ ret = -EINTR.code then 0 else ret)⟩

/-! ### Signals -/

def SIGHUP : ℕ := 1
def SIGINT : ℕ := 2
def SIGQUIT : ℕ := 3
def SIGUSR1 : ℕ := 10
def SIGUSR2 : ℕ := 12
def SIGTERM : ℕ := 15

def EPOLLIN : BitVec 32 := 0x1
def EPOLLPRI : BitVec 32 := 0x2
def EPOLLOUT : BitVec 32 := 0x4
def EPOLLERR : BitVec 32 := 0x8
def EPOLLHUP : BitVec 32 := 0x10
def EPOLLRDHUP : BitVec 32 := 0x2000

/-- The signals that ask the server to terminate. -/
def Terminates (signo : ℕ) : Prop :=
  signo = SIGHUP ∨ signo = SIGINT ∨ signo = SIGQUIT ∨ signo = SIGTERM

instance (signo : ℕ) : Decidable (Terminates signo) :=
  inferInstanceAs (Decidable (_ ∨ _ ∨ _ ∨ _))

/-- `hed_srv_dispatch_sigchan`, given what `usig_read_fd` returns and the number of the signal
it reads; none when an internal assertion fails, which are compiled in with
`CONFIG_HED_ASSERT_INTERN` only. -/
def hedSrvDispatchSigchan (assertIntern : Bool) (state : BitVec 32) (ret : ℤ) (signo : ℕ) :
    Option ℤ :=
  if assertIntern = true
      ∧ (state &&& (EPOLLOUT ||| EPOLLRDHUP ||| EPOLLPRI ||| EPOLLHUP ||| EPOLLERR) ≠ 0
        ∨ state &&& EPOLLIN = 0) then none
  else if assertIntern = true ∧ ret = 0 then none
  else if ret < 0 then if ret = -EAGAIN.code then some 0 else some ret
  else if Terminates signo then some (-ESHUTDOWN.code)
  else if signo = SIGUSR1 ∨ signo = SIGUSR2 then some 0
  else if assertIntern = true then none
  else some ret

end Hed
