import Hed.Server.Code

/-!
# Halting the server

`hed_srv_halt` of `server.c` waits until its connections are closed.  Which of them are closed
when, and what `upoll_process` returns meanwhile, comes from outside.  The variable that it
returns is assigned in the loop only: `halts_iff` says that this is what goes wrong, and that
nothing else does.
-/

namespace Hed

section Code

/-- A repository of connections: those that are open, and whether it has been closed. -/
structure GalvRepo (κ : Type) where
  conns : List κ
  closed : Bool
  deriving DecidableEq

/-- What halting looks at and changes of a server. -/
structure Halting (κ : Type) where
  suspended : Bool
  repo : GalvRepo κ
  deriving DecidableEq

/-- A call of `upoll_process`: what it returns, and the connections that are closed in it. -/
structure Processed (κ : Type) where
  ret : ℤ
  closes : List κ
  deriving DecidableEq

/-- How halting goes: it is still waiting when there are no more events, it reads its result
before that is assigned, or it returns. -/
inductive Halted (κ : Type) where
  | waiting
  | unassigned
  | returned (ret : ℤ) (srv : Halting κ)
  deriving DecidableEq

variable {κ : Type} [DecidableEq κ]

/-- The connections that are left of some when others are closed. -/
def without (conns closes : List κ) : List κ := conns.filter (fun c => c ∉ closes)

/-- A server after some of its connections are closed. -/
def Halting.close (srv : Halting κ) (closes : List κ) : Halting κ :=
  { srv with repo := { srv.repo with conns := without srv.repo.conns closes } }

def galvAcceptSuspend (srv : Halting κ) : Halting κ := { srv with suspended := true }

/-- `galv_conn_repo_halt`, which may close some connections at once. -/
def galvConnRepoHalt (srv : Halting κ) (atOnce : List κ) : Halting κ := srv.close atOnce

def galvRepoEmpty (srv : Halting κ) : Bool := srv.repo.conns.isEmpty

def galvConnRepoClose (srv : Halting κ) : Halting κ := { srv with repo := ⟨[], true⟩ }

/-- The loop of `hed_srv_halt`: the server when it ends and the variable `ret`, which holds
nothing until it is assigned. -/
def hedSrvHaltLoop : Halting κ → Option ℤ → List (Processed κ) → Option (Option ℤ × Halting κ)
  | srv, ret, [] => if galvRepoEmpty srv then some (ret, srv) else none
  | srv, ret, p :: rest =>
      if galvRepoEmpty srv then some (ret, srv)
      else if p.ret ≠ 0 then some (some p.ret, srv.close p.closes)
      else hedSrvHaltLoop (srv.close p.closes) (some p.ret) rest

/-- What `hed_srv_halt` does after its loop. -/
def hedSrvHaltEnd : Option (Option ℤ × Halting κ) → Halted κ
  | none => .waiting
  | some (none, _) => .unassigned
  | some (some ret, srv) =>
      .returned (if ret = -ESHUTDOWN.code then -EINTR.code else ret) (galvConnRepoClose srv)

def hedSrvHalt (srv : Halting κ) (atOnce : List κ) (events : List (Processed κ)) : Halted κ :=
  hedSrvHaltEnd (hedSrvHaltLoop (galvConnRepoHalt (galvAcceptSuspend srv) atOnce) none events)

end Code

variable {κ : Type} [DecidableEq κ]

/-! ### What halting is to do -/

/-- The connections that are left after some events. -/
def left (conns : List κ) (events : List (Processed κ)) : List κ :=
  events.foldl (fun conns p => without conns p.closes) conns

/-- What is asked of halting a server with some connections.  It does not read its result before
that is assigned; once no connection is left it returns zero, if `upoll_process` has not failed
until then; at the first failure it returns that, or `EINTR` for `ESHUTDOWN`; it goes on as long
as neither happens; and the repository is closed when it returns. -/
structure Halts (conns : List κ) (events : List (Processed κ)) (o : Halted κ) : Prop where
  assigned : o ≠ .unassigned
  drained : ∀ before after, events = before ++ after → (∀ p ∈ before, p.ret = 0) →
    left conns before = [] → ∃ srv, o = .returned 0 srv
  failed : ∀ before p after, events = before ++ p :: after → (∀ p' ∈ before, p'.ret = 0) →
    left conns before ≠ [] → p.ret ≠ 0 →
    ∃ srv, o = .returned (if p.ret = -ESHUTDOWN.code then -EINTR.code else p.ret) srv
  goesOn : (∀ p ∈ events, p.ret = 0) → left conns events ≠ [] → o = .waiting
  closed : ∀ ret srv, o = .returned ret srv → srv.repo = ⟨[], true⟩

/-- When there are no connections, none are left. -/
theorem left_nil (events : List (Processed κ)) :
  left [] events = []
  := by
  induction events with
  | nil => rfl
  | cons p rest ih => apply ih

/-! ### One event -/

theorem halts_of_empty (events : List (Processed κ)) {srv : Halting κ}
    (hclosed : srv.repo = ⟨[], true⟩) :
  Halts [] events (.returned 0 srv)
  := by
  constructor
  · rintro ⟨⟩
  · intro before after _ _ _
    use srv
  · intro before p after _ _ hleft
    exact absurd (left_nil before) hleft
  · intro _ hleft
    exact absurd (left_nil events) hleft
  · rintro ret srv' ⟨⟩
    apply hclosed

theorem halts_of_no_events {conns : List κ} (hconns : conns ≠ []) :
  Halts conns [] .waiting
  := by
  constructor
  · rintro ⟨⟩
  · intro before after hevents _ hleft
    obtain ⟨rfl, _⟩ := List.append_eq_nil_iff.mp hevents.symm
    exact absurd hleft hconns
  · intro before p after hevents
    simp at hevents
  · intro _ _
    rfl
  · rintro ret srv ⟨⟩

/-- The first event fails. -/
theorem halts_of_failed {conns : List κ} {p : Processed κ} {rest : List (Processed κ)}
    {srv : Halting κ} (hconns : conns ≠ []) (hret : p.ret ≠ 0) (hclosed : srv.repo = ⟨[], true⟩) :
  Halts conns (p :: rest)
    (.returned (if p.ret = -ESHUTDOWN.code then -EINTR.code else p.ret) srv)
  := by
  constructor
  · rintro ⟨⟩
  · intro before after hevents hzero hleft
    cases before with
    | nil => exact absurd hleft hconns
    | cons p' before =>
        obtain ⟨rfl, _⟩ := List.cons.inj hevents
        exact absurd (hzero p List.mem_cons_self) hret
  · intro before p' after hevents hzero _ _
    cases before with
    | nil =>
        obtain ⟨rfl, _⟩ := List.cons.inj hevents
        use srv
    | cons p'' before =>
        obtain ⟨rfl, _⟩ := List.cons.inj hevents
        exact absurd (hzero p List.mem_cons_self) hret
  · intro hzero
    exact absurd (hzero p List.mem_cons_self) hret
  · rintro ret srv' ⟨⟩
    apply hclosed

/-- The first event does not fail. -/
theorem halts_cons {conns : List κ} {p : Processed κ} {rest : List (Processed κ)} {o : Halted κ}
    (hconns : conns ≠ []) (hret : p.ret = 0) (h : Halts (without conns p.closes) rest o) :
  Halts conns (p :: rest) o
  := by
  constructor
  · apply h.assigned
  · intro before after hevents hzero hleft
    cases before with
    | nil => exact absurd hleft hconns
    | cons p' before =>
        obtain ⟨rfl, hrest⟩ := List.cons.inj hevents
        apply h.drained before after hrest (List.forall_mem_cons.mp hzero).2 hleft
  · intro before p' after hevents hzero hleft hret'
    cases before with
    | nil =>
        obtain ⟨rfl, _⟩ := List.cons.inj hevents
        exact absurd hret hret'
    | cons p'' before =>
        obtain ⟨rfl, hrest⟩ := List.cons.inj hevents
        apply h.failed before p' after hrest (List.forall_mem_cons.mp hzero).2 hleft hret'
  · intro hzero hleft
    apply h.goesOn (List.forall_mem_cons.mp hzero).2 hleft
  · apply h.closed

/-! ### The loop -/

theorem hedSrvHaltLoop_of_empty {srv : Halting κ} (hconns : srv.repo.conns = []) (ret : Option ℤ)
    (events : List (Processed κ)) :
  hedSrvHaltLoop srv ret events = some (ret, srv)
  := by
  have hempty : galvRepoEmpty srv = true := List.isEmpty_iff.mpr hconns
  cases events with
  | nil => exact if_pos hempty
  | cons p rest => exact if_pos hempty

/-- The loop does what it is to do wherever there are connections, whatever its variable
holds. -/
theorem halts_loop {srv : Halting κ} (hconns : srv.repo.conns ≠ []) (ret : Option ℤ)
    (events : List (Processed κ)) :
  Halts srv.repo.conns events (hedSrvHaltEnd (hedSrvHaltLoop srv ret events))
  := by
  induction events generalizing srv ret with
  | nil =>
      have hempty : ¬ galvRepoEmpty srv = true := mt List.isEmpty_iff.mp hconns
      rw [hedSrvHaltLoop, if_neg hempty]
      exact halts_of_no_events hconns
  | cons p rest ih =>
      have hempty : ¬ galvRepoEmpty srv = true := mt List.isEmpty_iff.mp hconns
      rw [hedSrvHaltLoop, if_neg hempty]
      split_ifs with hret
      · exact halts_of_failed hconns hret rfl
      · rw [ne_eq, not_not] at hret
        apply halts_cons hconns hret
        by_cases hleft : without srv.repo.conns p.closes = []
        · rw [hedSrvHaltLoop_of_empty hleft, hleft, hret]
          exact halts_of_empty rest rfl
        · have hconns' : (srv.close p.closes).repo.conns ≠ [] := hleft
          exact ih hconns' (some p.ret)

/-- Halting does what it is to do exactly if some connection is still open when its loop
begins. -/
theorem halts_iff (srv : Halting κ) (atOnce : List κ) (events : List (Processed κ)) :
  Halts (without srv.repo.conns atOnce) events (hedSrvHalt srv atOnce events)
    ↔ ∃ c ∈ srv.repo.conns, c ∉ atOnce
  := by
  have hopen : (∃ c ∈ srv.repo.conns, c ∉ atOnce) ↔ without srv.repo.conns atOnce ≠ [] := by
    simp [without]
  rw [hopen]
  constructor
  · intro h hconns
    apply h.assigned
    rw [hedSrvHalt, hedSrvHaltLoop_of_empty hconns]
    rfl
  · intro hconns
    have hconns' : (galvConnRepoHalt (galvAcceptSuspend srv) atOnce).repo.conns ≠ [] := hconns
    exact halts_loop hconns' none events

/-- Without connections, the result is read before it is assigned. -/
theorem idle_server_unassigned :
  hedSrvHalt (⟨false, ⟨[], false⟩⟩ : Halting ℕ) [] [] = .unassigned
    ∧ ¬ ∀ (srv : Halting ℕ) (atOnce : List ℕ) (events : List (Processed ℕ)),
      Halts (without srv.repo.conns atOnce) events (hedSrvHalt srv atOnce events)
  := by
  have hidle : hedSrvHalt (⟨false, ⟨[], false⟩⟩ : Halting ℕ) [] [] = .unassigned := rfl
  use hidle
  intro hhalts
  exact (hhalts ⟨false, ⟨[], false⟩⟩ [] []).assigned hidle

end Hed
