import Hed.Prelude.Holdings
import Hed.Server.Code

/-!
# Setting up the server

`hed_srv_init` and `hed_srv_conn_init` of `server.c` acquire, one after another, what a server
needs, and release it when a step fails.  `cleans_up_iff` says in which cases they release what
they have acquired, all of it and nothing else: the ladder of labels has none for the accepting
of connections, and the descriptor of the signals is released by `hed_srv_open_sigchan` and
again by its callers.
-/

namespace Hed

/-! ### The calls -/

def SIGTRAP : ℕ := 5
def SIGCONT : ℕ := 18
def SIGTSTP : ℕ := 20
def SIGTTIN : ℕ := 21
def SIGTTOU : ℕ := 22

def SOCK_STREAM : ℕ := 1
def SOCK_CLOEXEC : ℕ := 0x80000
def SFD_NONBLOCK : ℕ := 0x800
def SFD_CLOEXEC : ℕ := 0x80000

/-- A `struct galv_unix_adopt_conf`. -/
structure GalvUnixAdoptConf where
  type : ℕ
  flags : ℕ
  path : Bytes
  backlog : ℕ
  deriving DecidableEq

/-- The calls of setting up a server and of finishing it.  What `galv_rpc_open_accept` is given
is left out. -/
inductive SetupCall where
  | galvRepoInit (nr : ℕ)
  | galvUnixAdoptOpen (conf : GalvUnixAdoptConf)
  | galvFdAdoptOpen (fd : ℤ)
  | upollOpen (nr : ℕ)
  | galvRpcOpenAccept
  | chmod (path : Bytes) (mode : ℕ)
  | usigOpenFd (msk : List ℕ) (flags : ℕ)
  | upollRegister (fd : ℤ) (events : BitVec 32)
  | usigProcmask (blk : List ℕ)
  | upollUnregister (fd : ℤ)
  | usigCloseFd (fd : ℤ)
  | galvRpcCloseAccept
  | upollClose
  | galvUnixAdoptClose
  | galvRepoFini
  deriving DecidableEq

/-- What each of them replies; `chmod` replies with the `errno` that it sets, zero if none. -/
def SetupCall.Reply : SetupCall → Type
  | .galvUnixAdoptOpen _ | .galvFdAdoptOpen _ | .upollOpen _ | .galvRpcOpenAccept | .chmod _ _
  | .usigOpenFd _ _ | .upollRegister _ _ => ℤ
  | _ => Unit

/-- The signature of these calls. -/
abbrev setupCalls : Signature where
  Call := SetupCall
  Reply := SetupCall.Reply

/-- A function of `server.c` that makes them. -/
abbrev Setup (α : Type) := Program setupCalls α

open Program

def galvRepoInit (nr : ℕ) : Setup Unit := ask (S := setupCalls) (.galvRepoInit nr)
def galvUnixAdoptOpen (conf : GalvUnixAdoptConf) : Setup ℤ :=
  ask (S := setupCalls) (.galvUnixAdoptOpen conf)
def galvFdAdoptOpen (fd : ℤ) : Setup ℤ := ask (S := setupCalls) (.galvFdAdoptOpen fd)
def upollOpen (nr : ℕ) : Setup ℤ := ask (S := setupCalls) (.upollOpen nr)
def galvRpcOpenAccept : Setup ℤ := ask (S := setupCalls) .galvRpcOpenAccept
def chmod (path : Bytes) (mode : ℕ) : Setup ℤ := ask (S := setupCalls) (.chmod path mode)
def usigOpenFd (msk : List ℕ) (flags : ℕ) : Setup ℤ :=
  ask (S := setupCalls) (.usigOpenFd msk flags)
def upollRegister (fd : ℤ) (events : BitVec 32) : Setup ℤ :=
  ask (S := setupCalls) (.upollRegister fd events)
def usigProcmask (blk : List ℕ) : Setup Unit := ask (S := setupCalls) (.usigProcmask blk)
def upollUnregister (fd : ℤ) : Setup Unit := ask (S := setupCalls) (.upollUnregister fd)
def usigCloseFd (fd : ℤ) : Setup Unit := ask (S := setupCalls) (.usigCloseFd fd)
def galvRpcCloseAccept : Setup Unit := ask (S := setupCalls) .galvRpcCloseAccept
def upollClose : Setup Unit := ask (S := setupCalls) .upollClose
def galvUnixAdoptClose : Setup Unit := ask (S := setupCalls) .galvUnixAdoptClose
def galvRepoFini : Setup Unit := ask (S := setupCalls) .galvRepoFini

/-! ### The functions -/

/-- A `struct hed_server`, as far as these functions read it themselves. -/
structure HedServer where
  sigFd : ℤ
  deriving DecidableEq

/-- `hed_srv_open_sigchan`; the set of all signals is given, which is a constant of `utils`. -/
def hedSrvOpenSigchan (usigFullMsk : List ℕ) (srv : HedServer) : Setup (ℤ × HedServer) := do
  let msk := [SIGHUP, SIGINT, SIGQUIT, SIGTERM, SIGUSR1, SIGUSR2]
  let sigFd ← usigOpenFd msk (SFD_NONBLOCK ||| SFD_CLOEXEC)
  let srv := { srv with sigFd := sigFd }
  if sigFd < 0 then pure (sigFd, srv)
  else do
    let err ← upollRegister sigFd EPOLLIN
    if err ≠ 0 then do
      usigCloseFd sigFd
      pure (err, srv)
    else do
      usigProcmask (usigFullMsk.removeAll [SIGCONT, SIGTSTP, SIGTRAP, SIGTTIN, SIGTTOU])
      pure (0, srv)

def hedSrvCloseSigchan (srv : HedServer) : Setup Unit := do
  upollUnregister srv.sigFd
  usigCloseFd srv.sigFd

/-- The labels `fini`, `close_adopt` and `close_poll` of the functions that set up a server. -/
def setupFini (ret : ℤ) (srv : HedServer) : Setup (ℤ × HedServer) := do
  galvRepoFini
  pure (ret, srv)

def setupCloseAdopt (ret : ℤ) (srv : HedServer) : Setup (ℤ × HedServer) := do
  galvUnixAdoptClose
  setupFini ret srv

def setupClosePoll (ret : ℤ) (srv : HedServer) : Setup (ℤ × HedServer) := do
  upollClose
  setupCloseAdopt ret srv

/-- What the two functions that set up a server have in common.  They open the adopt in different
ways, and one makes the socket accessible, for which the `errno` is given. -/
def setUp (usigFullMsk : List ℕ) (connNr : ℕ) (adoptOpen access : Setup ℤ) (srv : HedServer) :
    Setup (ℤ × HedServer) := do
  galvRepoInit connNr
  let ret ← adoptOpen
  if ret ≠ 0 then setupFini ret srv
  else do
    let ret ← upollOpen (connNr + 1)
    if ret ≠ 0 then setupCloseAdopt ret srv
    else do
      let ret ← galvRpcOpenAccept
      if ret ≠ 0 then setupClosePoll ret srv
      else do
        let errno ← access
        if errno ≠ 0 then setupClosePoll (-errno) srv
        else do
          let (ret, srv) ← hedSrvOpenSigchan usigFullMsk srv
          if ret = 0 then pure (0, srv)
          else do
            hedSrvCloseSigchan srv
            setupClosePoll ret srv

/-- `hed_srv_init`; `connNr` is `CONFIG_HED_CONN_NR`. -/
def hedSrvInit (usigFullMsk : List ℕ) (connNr : ℕ) (srv : HedServer) (path : Bytes) (mode : ℕ) :
    Setup (ℤ × HedServer) :=
  setUp usigFullMsk connNr (galvUnixAdoptOpen ⟨SOCK_STREAM, SOCK_CLOEXEC, path, connNr⟩)
    (chmod path mode) srv

/-- `hed_srv_conn_init`, which leaves the socket as it is. -/
def hedSrvConnInit (usigFullMsk : List ℕ) (connNr : ℕ) (srv : HedServer) (fd : ℤ) :
    Setup (ℤ × HedServer) :=
  setUp usigFullMsk connNr (galvFdAdoptOpen fd) (pure 0) srv

def hedSrvFini (srv : HedServer) : Setup Unit := do
  hedSrvCloseSigchan srv
  galvRpcCloseAccept
  upollClose
  galvUnixAdoptClose
  galvRepoFini

/-! ### What is acquired and released -/

/-- What a server holds: its repository of connections, the descriptors that it waits for
connections with and polls, the accepting of connections, the descriptor of the signals, and
the registration of a descriptor. -/
inductive Held where
  | repo
  | adopt
  | poll
  | accept
  | sigFd (fd : ℤ)
  | watch (fd : ℤ)
  deriving DecidableEq

/-- What the steps of setting up return. -/
structure SetupResults where
  adopt : ℤ
  poll : ℤ
  accept : ℤ
  chmod : ℤ
  sigFd : ℤ
  register : ℤ
  deriving DecidableEq

namespace SetupResults

/-- The replies with these results. -/
def respond (results : SetupResults) : Handler setupCalls Unit Unit := fun _ c _ =>
  match c with
  | .galvUnixAdoptOpen _ | .galvFdAdoptOpen _ => (results.adopt, ())
  | .upollOpen _ => (results.poll, ())
  | .galvRpcOpenAccept => (results.accept, ())
  | .chmod _ _ => (results.chmod, ())
  | .usigOpenFd _ _ => (results.sigFd, ())
  | .upollRegister _ _ => (results.register, ())
  | .galvRepoInit _ | .usigProcmask _ | .upollUnregister _ | .usigCloseFd _ | .galvRpcCloseAccept
  | .upollClose | .galvUnixAdoptClose | .galvRepoFini => ((), ())

/-- What a call acquires or releases: an opening acquires if it succeeds. -/
def uses (results : SetupResults) : SetupCall → List (Use Held)
  | .galvRepoInit _ => [.acquire .repo]
  | .galvUnixAdoptOpen _ | .galvFdAdoptOpen _ =>
      if results.adopt = 0 then [.acquire .adopt] else []
  | .upollOpen _ => if results.poll = 0 then [.acquire .poll] else []
  | .galvRpcOpenAccept => if results.accept = 0 then [.acquire .accept] else []
  | .chmod _ _ | .usigProcmask _ => []
  | .usigOpenFd _ _ => if 0 ≤ results.sigFd then [.acquire (.sigFd results.sigFd)] else []
  | .upollRegister fd _ => if results.register = 0 then [.acquire (.watch fd)] else []
  | .upollUnregister fd => [.release (.watch fd)]
  | .usigCloseFd fd => [.release (.sigFd fd)]
  | .galvRpcCloseAccept => [.release .accept]
  | .upollClose => [.release .poll]
  | .galvUnixAdoptClose => [.release .adopt]
  | .galvRepoFini => [.release .repo]

/-- With these results, a function acquires and releases this, and returns that. -/
structure Runs {α : Type} (results : SetupResults) (p : Setup α) (us : List (Use Held)) (a : α) :
    Prop where
  value : (exec results.respond p [] ()).value = some a
  uses : (exec results.respond p [] ()).trace.flatMap (fun e => results.uses e.call) = us

end SetupResults

open SetupResults

namespace SetupResults.Runs

variable {α β : Type} {results : SetupResults} {us us' : List (Use Held)}

theorem done (a : α) :
  results.Runs (pure a) [] a
  := ⟨rfl, rfl⟩

theorem call (c : SetupCall) :
  results.Runs (ask (S := setupCalls) c) (results.uses c) (results.respond () c ()).1
  := ⟨rfl, List.append_nil _⟩

theorem bind {p : Setup α} {q : α → Setup β} {a : α} {b : β} (hp : results.Runs p us a)
    (hq : results.Runs (q a) us' b) :
  results.Runs (p >>= q) (us ++ us') b
  := by
  have hexec := exec_bind_of_value results.respond hp.value q
  constructor
  · rw [hexec]
    apply hq.value
  · rw [hexec, List.flatMap_append, hp.uses]
    exact congrArg (us ++ ·) hq.uses

theorem ite_pos {c : Prop} [Decidable c] {p q : Setup α} {a : α} (hc : c)
    (h : results.Runs p us a) :
  results.Runs (if c then p else q) us a
  := by
  rw [if_pos hc]
  apply h

theorem ite_neg {c : Prop} [Decidable c] {p q : Setup α} {a : α} (hc : ¬ c)
    (h : results.Runs q us a) :
  results.Runs (if c then p else q) us a
  := by
  rw [if_neg hc]
  apply h

/-- A step that fails, and one that does not. -/
theorem failed {p : Setup ℤ} {fail : ℤ → Setup β} {rest : Setup β} {ret : ℤ} {b : β}
    (hp : results.Runs p us ret) (hret : ret ≠ 0) (hfail : results.Runs (fail ret) us' b) :
  results.Runs (p >>= fun ret => if ret ≠ 0 then fail ret else rest) (us ++ us') b
  := bind hp (ite_pos hret hfail)

theorem passed {p : Setup ℤ} {fail : ℤ → Setup β} {rest : Setup β} {ret : ℤ} {b : β}
    (hp : results.Runs p us ret) (hret : ret = 0) (hrest : results.Runs rest us' b) :
  results.Runs (p >>= fun ret => if ret ≠ 0 then fail ret else rest) (us ++ us') b
  := bind hp (ite_neg (not_not.mpr hret) hrest)

/-- What a function acquires, releases and returns depends on the results only. -/
theorem unique {p : Setup α} {a a' : α} (h : results.Runs p us a) (h' : results.Runs p us' a') :
  us = us' ∧ a = a'
  := ⟨h.uses.symm.trans h'.uses, Option.some.inj (h.value.symm.trans h'.value)⟩

theorem of_eq {p : Setup α} {a : α} (h : results.Runs p us a) (hus : us = us') :
  results.Runs p us' a
  := hus ▸ h

end SetupResults.Runs

section Functions

variable {results : SetupResults} {usigFullMsk : List ℕ} (srv : HedServer)

theorem runs_openSigchan_of_neg (hfd : results.sigFd < 0) :
  results.Runs (hedSrvOpenSigchan usigFullMsk srv) [] (results.sigFd, ⟨results.sigFd⟩)
  := by
  apply Runs.of_eq
  · apply Runs.bind (Runs.call _)
    apply Runs.ite_pos hfd
    apply Runs.done
  · simp [SetupResults.uses, hfd]

/-- The descriptor is closed again when it cannot be registered. -/
theorem runs_openSigchan_of_unregistered (hfd : 0 ≤ results.sigFd)
    (hregister : results.register ≠ 0) :
  results.Runs (hedSrvOpenSigchan usigFullMsk srv)
    [.acquire (.sigFd results.sigFd), .release (.sigFd results.sigFd)]
    (results.register, ⟨results.sigFd⟩)
  := by
  apply Runs.of_eq
  · apply Runs.bind (Runs.call _)
    apply Runs.ite_neg (not_lt.mpr hfd)
    apply Runs.failed (Runs.call _) hregister
    apply Runs.bind (Runs.call _)
    apply Runs.done
  · simp [SetupResults.uses, respond, hfd, hregister]

theorem runs_openSigchan (hfd : 0 ≤ results.sigFd) (hregister : results.register = 0) :
  results.Runs (hedSrvOpenSigchan usigFullMsk srv)
    [.acquire (.sigFd results.sigFd), .acquire (.watch results.sigFd)] (0, ⟨results.sigFd⟩)
  := by
  apply Runs.of_eq
  · apply Runs.bind (Runs.call _)
    apply Runs.ite_neg (not_lt.mpr hfd)
    apply Runs.passed (Runs.call _) hregister
    apply Runs.bind (Runs.call _)
    apply Runs.done
  · simp [SetupResults.uses, respond, hfd, hregister]

theorem runs_closeSigchan :
  results.Runs (hedSrvCloseSigchan srv)
    [.release (.watch srv.sigFd), .release (.sigFd srv.sigFd)] ()
  := by
  apply Runs.of_eq
  · apply Runs.bind (Runs.call _)
    apply Runs.call
  · rfl

theorem runs_setupFini (ret : ℤ) :
  results.Runs (setupFini ret srv) [.release .repo] (ret, srv)
  := by
  apply Runs.of_eq
  · apply Runs.bind (Runs.call _)
    apply Runs.done
  · rfl

theorem runs_setupCloseAdopt (ret : ℤ) :
  results.Runs (setupCloseAdopt ret srv) [.release .adopt, .release .repo] (ret, srv)
  := by
  apply Runs.of_eq
  · apply Runs.bind (Runs.call _)
    apply runs_setupFini
  · rfl

theorem runs_setupClosePoll (ret : ℤ) :
  results.Runs (setupClosePoll ret srv) [.release .poll, .release .adopt, .release .repo]
    (ret, srv)
  := by
  apply Runs.of_eq
  · apply Runs.bind (Runs.call _)
    apply runs_setupCloseAdopt
  · rfl

theorem runs_fini :
  results.Runs (hedSrvFini srv) [.release (.watch srv.sigFd), .release (.sigFd srv.sigFd),
    .release .accept, .release .poll, .release .adopt, .release .repo] ()
  := by
  apply Runs.of_eq
  · apply Runs.bind (runs_closeSigchan srv)
    apply Runs.bind (Runs.call _)
    apply Runs.bind (Runs.call _)
    apply Runs.bind (Runs.call _)
    apply Runs.call
  · rfl

end Functions

/-! ### Cleaning up -/

open Holdings

/-- A function that sets up a server cleans up: when it fails, it has released what it has
acquired and nothing else, and when it succeeds, finishing the server releases it. -/
def CleansUp (results : SetupResults) (p : Setup (ℤ × HedServer)) : Prop :=
  ∃ us ret srv us', results.Runs p us (ret, srv) ∧ results.Runs (hedSrvFini srv) us' ()
    ∧ (ret ≠ 0 → Settled us) ∧ (ret = 0 → Settled (us ++ us'))

section CleansUp

variable {results : SetupResults} {p : Setup (ℤ × HedServer)} {us : List (Use Held)} {ret : ℤ}
  {srv : HedServer}

theorem cleansUp_iff_of_failed (h : results.Runs p us (ret, srv)) (hret : ret ≠ 0) :
  CleansUp results p ↔ after us = ⟨[], false⟩
  := by
  rw [← settled_iff]
  constructor
  · rintro ⟨us', ret', srv', _, hruns, _, hfailed, _⟩
    obtain ⟨rfl, heq⟩ := h.unique hruns
    obtain ⟨rfl, rfl⟩ := Prod.mk.inj heq
    exact hfailed hret
  · intro hsettled
    refine ⟨us, ret, srv, _, h, runs_fini srv, ?_, ?_⟩
    · intro _
      exact hsettled
    · intro hzero
      exact absurd hzero hret

/-- A server that is set up cleans up if finishing it does. -/
theorem cleansUp_of_runs (h : results.Runs p us (0, srv)) {us' : List (Use Held)}
    (hfini : results.Runs (hedSrvFini srv) us' ()) (hsettled : after (us ++ us') = ⟨[], false⟩) :
  CleansUp results p
  := by
  refine ⟨us, 0, srv, us', h, hfini, ?_, ?_⟩
  · intro hne
    exact absurd rfl hne
  · intro _
    exact settled_iff.mpr hsettled

end CleansUp

section SetUp

variable {results : SetupResults} (usigFullMsk : List ℕ) (connNr : ℕ)
  {adoptOpen access : Setup ℤ} {errno : ℤ} (srv : HedServer)
  (hadopt : results.Runs adoptOpen (if results.adopt = 0 then [.acquire .adopt] else [])
    results.adopt)

include hadopt

theorem runs_setUp_of_adopt (h : results.adopt ≠ 0) :
  results.Runs (setUp usigFullMsk connNr adoptOpen access srv) [.acquire .repo, .release .repo]
    (results.adopt, srv)
  := by
  apply Runs.of_eq
  · apply Runs.bind (Runs.call _)
    apply Runs.failed hadopt h
    apply runs_setupFini
  · simp [SetupResults.uses, h]

theorem runs_setUp_of_poll (h : results.adopt = 0) (h' : results.poll ≠ 0) :
  results.Runs (setUp usigFullMsk connNr adoptOpen access srv)
    [.acquire .repo, .acquire .adopt, .release .adopt, .release .repo] (results.poll, srv)
  := by
  apply Runs.of_eq
  · apply Runs.bind (Runs.call _)
    apply Runs.passed hadopt h
    apply Runs.failed (Runs.call _) h'
    apply runs_setupCloseAdopt
  · simp [SetupResults.uses, h, h']

theorem runs_setUp_of_accept (h : results.adopt = 0) (h' : results.poll = 0)
    (h'' : results.accept ≠ 0) :
  results.Runs (setUp usigFullMsk connNr adoptOpen access srv)
    [.acquire .repo, .acquire .adopt, .acquire .poll, .release .poll, .release .adopt,
      .release .repo] (results.accept, srv)
  := by
  apply Runs.of_eq
  · apply Runs.bind (Runs.call _)
    apply Runs.passed hadopt h
    apply Runs.passed (Runs.call _) h'
    apply Runs.failed (Runs.call _) h''
    apply runs_setupClosePoll
  · simp [SetupResults.uses, h, h', h'']

variable (haccess : results.Runs access [] errno)

include haccess

/-- Once connections are accepted, what is left to do. -/
theorem runs_setUp_of_accepted (h : results.adopt = 0) (h' : results.poll = 0)
    (h'' : results.accept = 0) {us : List (Use Held)} {r : ℤ × HedServer}
    (hrest : results.Runs
      (if errno ≠ 0 then setupClosePoll (-errno) srv
        else do
          let (ret, srv) ← hedSrvOpenSigchan usigFullMsk srv
          if ret = 0 then pure (0, srv)
          else do
            hedSrvCloseSigchan srv
            setupClosePoll ret srv) us r) :
  results.Runs (setUp usigFullMsk connNr adoptOpen access srv)
    (.acquire .repo :: .acquire .adopt :: .acquire .poll :: .acquire .accept :: us) r
  := by
  apply Runs.of_eq
  · apply Runs.bind (Runs.call _)
    apply Runs.passed hadopt h
    apply Runs.passed (Runs.call _) h'
    apply Runs.passed (Runs.call _) h''
    apply Runs.bind haccess
    apply hrest
  · simp [SetupResults.uses, h, h', h'']

theorem runs_setUp_of_access (h : results.adopt = 0) (h' : results.poll = 0)
    (h'' : results.accept = 0) (herrno : errno ≠ 0) :
  results.Runs (setUp usigFullMsk connNr adoptOpen access srv)
    [.acquire .repo, .acquire .adopt, .acquire .poll, .acquire .accept, .release .poll,
      .release .adopt, .release .repo] (-errno, srv)
  := by
  apply runs_setUp_of_accepted usigFullMsk connNr srv hadopt haccess h h' h''
  apply Runs.ite_pos herrno
  apply runs_setupClosePoll

variable {us : List (Use Held)} {ret : ℤ} {srv' : HedServer}

theorem runs_setUp_of_sigchan (h : results.adopt = 0) (h' : results.poll = 0)
    (h'' : results.accept = 0) (herrno : errno = 0)
    (hopen : results.Runs (hedSrvOpenSigchan usigFullMsk srv) us (ret, srv')) (hret : ret ≠ 0) :
  results.Runs (setUp usigFullMsk connNr adoptOpen access srv)
    (.acquire .repo :: .acquire .adopt :: .acquire .poll :: .acquire .accept ::
      (us ++ [.release (.watch srv'.sigFd), .release (.sigFd srv'.sigFd), .release .poll,
        .release .adopt, .release .repo])) (ret, srv')
  := by
  apply runs_setUp_of_accepted usigFullMsk connNr srv hadopt haccess h h' h''
  apply Runs.ite_neg (not_not.mpr herrno)
  apply Runs.bind hopen
  apply Runs.ite_neg hret
  apply Runs.bind (runs_closeSigchan srv')
  apply runs_setupClosePoll

theorem runs_setUp (h : results.adopt = 0) (h' : results.poll = 0) (h'' : results.accept = 0)
    (herrno : errno = 0) (hopen : results.Runs (hedSrvOpenSigchan usigFullMsk srv) us (0, srv')) :
  results.Runs (setUp usigFullMsk connNr adoptOpen access srv)
    (.acquire .repo :: .acquire .adopt :: .acquire .poll :: .acquire .accept :: us) (0, srv')
  := by
  apply runs_setUp_of_accepted usigFullMsk connNr srv hadopt haccess h h' h''
  apply Runs.of_eq
  · apply Runs.ite_neg (not_not.mpr herrno)
    apply Runs.bind hopen
    apply Runs.ite_pos rfl
    apply Runs.done
  · rw [List.append_nil]

/-- Setting up a server cleans up unless a step fails after connections are accepted. -/
theorem cleansUp_setUp_iff :
  CleansUp results (setUp usigFullMsk connNr adoptOpen access srv)
    ↔ (results.adopt = 0 → results.poll = 0 → results.accept = 0 →
      errno = 0 ∧ 0 ≤ results.sigFd ∧ results.register = 0)
  := by
  by_cases h : results.adopt = 0
  swap
  · rw [cleansUp_iff_of_failed (runs_setUp_of_adopt usigFullMsk connNr srv hadopt h) h]
    apply iff_of_true (by decide)
    intro hzero
    exact absurd hzero h
  by_cases h' : results.poll = 0
  swap
  · rw [cleansUp_iff_of_failed (runs_setUp_of_poll usigFullMsk connNr srv hadopt h h') h']
    apply iff_of_true (by decide)
    intro _ hzero
    exact absurd hzero h'
  by_cases h'' : results.accept = 0
  swap
  · rw [cleansUp_iff_of_failed (runs_setUp_of_accept usigFullMsk connNr srv hadopt h h' h'') h'']
    apply iff_of_true (by decide)
    intro _ _ hzero
    exact absurd hzero h''
  simp only [h, h', h'', true_implies]
  by_cases herrno : errno = 0
  swap
  · have hruns := runs_setUp_of_access usigFullMsk connNr srv hadopt haccess h h' h'' herrno
    rw [cleansUp_iff_of_failed hruns (Int.neg_ne_zero.mpr herrno)]
    apply iff_of_false (by decide)
    rintro ⟨hzero, _⟩
    exact herrno hzero
  by_cases hfd : 0 ≤ results.sigFd
  swap
  · have hneg := not_le.mp hfd
    have hruns := runs_setUp_of_sigchan usigFullMsk connNr srv hadopt haccess h h' h'' herrno
      (runs_openSigchan_of_neg srv hneg) hneg.ne
    rw [cleansUp_iff_of_failed hruns hneg.ne]
    apply iff_of_false
    · simp [after, next]
    · rintro ⟨_, hpos, _⟩
      exact hfd hpos
  by_cases hregister : results.register = 0
  swap
  · have hruns := runs_setUp_of_sigchan usigFullMsk connNr srv hadopt haccess h h' h'' herrno
      (runs_openSigchan_of_unregistered srv hfd hregister) hregister
    rw [cleansUp_iff_of_failed hruns hregister]
    apply iff_of_false
    · simp [after, next]
    · rintro ⟨_, _, hzero⟩
      exact hregister hzero
  · have hruns := runs_setUp usigFullMsk connNr srv hadopt haccess h h' h'' herrno
      (runs_openSigchan srv hfd hregister)
    apply iff_of_true
    · apply cleansUp_of_runs hruns (runs_fini _)
      simp [after, next]
    · exact ⟨herrno, hfd, hregister⟩

end SetUp

/-- With these results of their steps, the functions that set up a server clean up exactly if no
step fails after connections are accepted. -/
theorem cleans_up_iff (results : SetupResults) (usigFullMsk : List ℕ) (connNr : ℕ)
    (srv : HedServer) (path : Bytes) (mode : ℕ) (fd : ℤ) :
  (CleansUp results (hedSrvInit usigFullMsk connNr srv path mode)
      ↔ (results.adopt = 0 → results.poll = 0 → results.accept = 0 →
        results.chmod = 0 ∧ 0 ≤ results.sigFd ∧ results.register = 0))
    ∧ (CleansUp results (hedSrvConnInit usigFullMsk connNr srv fd)
      ↔ (results.adopt = 0 → results.poll = 0 → results.accept = 0 →
        0 ≤ results.sigFd ∧ results.register = 0))
  := by
  constructor
  · exact cleansUp_setUp_iff usigFullMsk connNr srv (Runs.call _) (Runs.call _)
  · apply (cleansUp_setUp_iff usigFullMsk connNr srv (Runs.call (.galvFdAdoptOpen fd))
      (Runs.done 0)).trans
    simp only [true_and]

/-- The signals of Linux. -/
def signals : List ℕ := List.range' 1 64

/-- Registering the descriptor of the signals fails. -/
def unregistered : SetupResults := ⟨0, 0, 0, 0, 7, -12⟩

/-- Then the descriptor is closed twice, and the server goes on accepting connections. -/
theorem sigchan_closed_twice :
  let o := exec unregistered.respond (hedSrvInit signals 8 ⟨-1⟩ [0x73] 0o600) [] ()
  ¬ CleansUp unregistered (hedSrvInit signals 8 ⟨-1⟩ [0x73] 0o600) ∧ o.value = some (-12, ⟨7⟩)
    ∧ (o.trace.map (fun e => e.call)).count (.usigCloseFd 7) = 2
    ∧ .galvRpcOpenAccept ∈ o.trace.map (fun e => e.call)
    ∧ .galvRpcCloseAccept ∉ o.trace.map (fun e => e.call)
  := by
  intro o
  refine ⟨?_, ?_, ?_, ?_, ?_⟩
  · intro hcleans
    obtain ⟨_, _, hregister⟩ :=
      (cleansUp_setUp_iff signals 8 ⟨-1⟩ (Runs.call _) (Runs.call _)).mp hcleans rfl rfl rfl
    exact absurd hregister (by decide)
  · rfl
  · decide
  · decide
  · decide

end Hed
