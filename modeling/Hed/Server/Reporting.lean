import Hed.Prelude.Failures
import Hed.Server.Setup

/-!
# What setting up a server says of failures

The steps of setting up a server fail one by one, and each failure leads to the label that undoes
the steps before it.  `set_up_reports` says that there is no way around: whatever the steps return,
the first that fails is the last, and it is what the function returns.
-/

namespace Hed

open Program

/-- The failure that an `errno` stands for. -/
def ofErrno (errno : ℤ) : Option ℤ := ofCode (-errno)

/-- The failure that a descriptor stands for, if it is none. -/
def ofFd (fd : ℤ) : Option ℤ := if fd < 0 then some fd else none

/-- What a step returns of a failure: a code, an `errno`, or a negative descriptor. -/
def SetupCall.failure : (c : SetupCall) → c.Reply → Option ℤ
  | .galvUnixAdoptOpen _, ret => ofCode ret
  | .galvFdAdoptOpen _, ret => ofCode ret
  | .upollOpen _, ret => ofCode ret
  | .galvRpcOpenAccept, ret => ofCode ret
  | .chmod _ _, errno => ofErrno errno
  | .usigOpenFd _ _, fd => ofFd fd
  | .upollRegister _ _, ret => ofCode ret
  | .galvRepoInit _, _ => none
  | .usigProcmask _, _ => none
  | .upollUnregister _, _ => none
  | .usigCloseFd _, _ => none
  | .galvRpcCloseAccept, _ => none
  | .upollClose, _ => none
  | .galvUnixAdoptClose, _ => none
  | .galvRepoFini, _ => none

/-- A step that undoes another one. -/
def SetupCall.Undoes : SetupCall → Prop
  | .upollUnregister _ | .usigCloseFd _ | .galvRpcCloseAccept | .upollClose | .galvUnixAdoptClose
  | .galvRepoFini => True
  | _ => False

/-- The failures of the steps.  After one only such steps are made as undo others: above all, the
signals are not blocked. -/
def setupFailures : Failures setupCalls ℤ where
  error := SetupCall.failure
  Cleans := SetupCall.Undoes

section Functions

variable {β : Type} {first : Option ℤ} {report : β → Option ℤ}
  {usigFullMsk : List ℕ} (srv : HedServer)

theorem reports_undo {c : SetupCall} (h : c.Undoes) {q : c.Reply → Setup β}
    (hq : ∀ a, Reports setupFailures first (q a) report) :
  Reports setupFailures first (ask (S := setupCalls) c >>= q) report
  := by
  have hc : (ask (S := setupCalls) c).Calls SetupCall.Undoes := calls_ask h
  apply reports_calls_bind hc
  · exact fun _ => id
  · intro c r hundoes
    cases c with
    | upollUnregister fd => rfl
    | usigCloseFd fd => rfl
    | galvRpcCloseAccept => rfl
    | upollClose => rfl
    | galvUnixAdoptClose => rfl
    | galvRepoFini => rfl
    | _ => cases hundoes
  · apply hq

theorem reports_setupFini {ret : ℤ} (h : ret ≠ 0) :
  Reports setupFailures (some ret) (setupFini ret srv) (fun r => ofCode r.1)
  := by
  apply reports_undo (c := .galvRepoFini) trivial
  intro _
  exact reports_pure (ofCode_of_ne h)

theorem reports_setupCloseAdopt {ret : ℤ} (h : ret ≠ 0) :
  Reports setupFailures (some ret) (setupCloseAdopt ret srv) (fun r => ofCode r.1)
  := by
  apply reports_undo (c := .galvUnixAdoptClose) trivial
  intro _
  apply reports_setupFini srv h

theorem reports_setupClosePoll {ret : ℤ} (h : ret ≠ 0) :
  Reports setupFailures (some ret) (setupClosePoll ret srv) (fun r => ofCode r.1)
  := by
  apply reports_undo (c := .upollClose) trivial
  intro _
  apply reports_setupCloseAdopt srv h

theorem reports_hedSrvOpenSigchan :
  Reports setupFailures none (hedSrvOpenSigchan usigFullMsk srv) (fun r => ofCode r.1)
  := by
  have hopen : Reports setupFailures none
      (usigOpenFd [SIGHUP, SIGINT, SIGQUIT, SIGTERM, SIGUSR1, SIGUSR2]
        (SFD_NONBLOCK ||| SFD_CLOEXEC)) ofFd := reports_ask _
  apply reports_bind hopen
  intro fd
  apply reports_ite
  · intro hfd
    apply reports_pure
    rw [ofFd, if_pos hfd]
    apply ofCode_of_ne hfd.ne
  · intro hfd
    rw [ofFd, if_neg hfd]
    apply reports_check (reports_ask _)
    · intro err herr
      apply reports_undo (c := .usigCloseFd fd) trivial
      intro _
      exact reports_pure (ofCode_of_ne herr)
    · intro _
      apply reports_bind (reports_ask _)
      intro _
      exact reports_pure rfl

/-- Setting up a server, if opening the adopt and making the socket accessible report their
failures. -/
theorem reports_setUp (connNr : ℕ) {adoptOpen access : Setup ℤ}
    (hadopt : Reports setupFailures none adoptOpen ofCode)
    (haccess : Reports setupFailures none access ofErrno) :
  Reports setupFailures none (setUp usigFullMsk connNr adoptOpen access srv) (fun r => ofCode r.1)
  := by
  apply reports_bind (reports_ask _)
  intro _
  apply reports_check hadopt
  · intro ret hret
    apply reports_setupFini srv hret
  · intro _
    apply reports_check (reports_ask _)
    · intro ret hret
      apply reports_setupCloseAdopt srv hret
    · intro _
      apply reports_check (reports_ask _)
      · intro ret hret
        apply reports_setupClosePoll srv hret
      · intro _
        apply reports_bind haccess
        intro errno
        apply reports_ite
        · intro herrno
          have hret : -errno ≠ 0 := Int.neg_ne_zero.mpr herrno
          rw [ofErrno, ofCode_of_ne hret]
          apply reports_setupClosePoll srv hret
        · intro herrno
          rw [not_not.mp herrno]
          apply reports_bind (reports_hedSrvOpenSigchan srv)
          rintro ⟨ret, srv'⟩
          apply reports_ite
          · intro hret
            rw [hret]
            exact reports_pure rfl
          · intro hret
            rw [ofCode_of_ne hret]
            apply reports_undo (c := .upollUnregister srv'.sigFd) trivial
            intro _
            apply reports_undo (c := .usigCloseFd srv'.sigFd) trivial
            intro _
            apply reports_setupClosePoll srv' hret

end Functions

/-- Whatever the steps of setting up a server return: after the first that fails only such steps
are made as undo others, and the function returns what that step returned. -/
theorem set_up_reports (usigFullMsk : List ℕ) (connNr : ℕ) (srv : HedServer) (path : Bytes)
    (mode : ℕ) (fd : ℤ) :
  Reports setupFailures none (hedSrvInit usigFullMsk connNr srv path mode) (fun r => ofCode r.1)
    ∧ Reports setupFailures none (hedSrvConnInit usigFullMsk connNr srv fd) (fun r => ofCode r.1)
  := by
  constructor
  · apply reports_setUp
    · apply reports_ask
    · apply reports_ask
  · apply reports_setUp
    · apply reports_ask
    · exact reports_pure rfl

end Hed
