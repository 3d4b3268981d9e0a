import Hed.Prelude.Failures
import Hed.Repo.Stages

/-!
# What the repository says of failures

Nearly every call of `repo.c` can fail.  A function of `repo.h` gives up at the first call that
does, releases what it has to, and returns the code of that call: `run_reports` says so of every
run of any number of processes, whatever fails.  Whether the backup could be moved or removed is
the one thing that no function says.
-/

namespace Hed

open Program

/-! ### Failures -/

/-- The code of a reply that is an error. -/
def failure {α : Type} : Except Errno α → Option ℤ
  | .ok _ => none
  | .error e => some e.code

/-- What the reply of a call says of a failure that the functions of `repo.h` look at. -/
def Call.failure : (c : Call) → c.Reply → Option ℤ
  | .malloc, true => none
  | .malloc, false => some (-ENOMEM.code)
  | .strollLvstrInitCede _, ret => Hed.failure ret
  | .strollLvstrInitDup _, ret => Hed.failure ret
  | .strollLvstrFini _, _ => none
  | .ufileNew _ _, fd => Hed.failure fd
  | .ufileClose, _ => none
  | .rename, _ => none
  | .remove, _ => none
  | .mdbEnvCreate, env => Hed.failure env
  | .mdbEnvSetMaxdbs _ _, ret => Hed.failure ret
  | .mdbEnvOpen _ _ _, env => Hed.failure env
  | .mdbEnvClose _, _ => none
  | .mdbEnvCopyfd _, ret => Hed.failure ret
  | .mdbTxnBegin _ _, txn => Hed.failure txn
  | .mdbTxnCommit _, ret => Hed.failure ret
  | .mdbTxnAbort _, _ => none
  | .mdbDbiOpen _ _ _, dbi => Hed.failure dbi
  | .mdbDrop _ _, txn => Hed.failure txn
  | .mdbGet _ _ _, value => Hed.failure value
  | .mdbPut _ _ _ _, txn => Hed.failure txn
  | .mdbDel _ _ _, txn => Hed.failure txn
  | .mdbStat _ _, entries => Hed.failure entries

/-- A call that cannot fail: it releases something. -/
def Call.Releases (c : Call) : Prop := c.fallible = false

theorem Call.Releases.failure {c : Call} (h : c.Releases) (r : c.Reply) :
  c.failure r = none
  := by
  cases c with
  | strollLvstrFini s => rfl
  | ufileClose => rfl
  | mdbEnvClose env => rfl
  | mdbTxnAbort txn => rfl
  | _ => cases h

section Rules

variable {α β : Type} {first : Option ℤ}

end Rules

/-! ### The functions -/

/-- What a function returns, where `first` is the code of the first of its calls that failed: it
returns that code, or zero if none failed.  `hed_repo_count` returns the code negated, and a number
of records if none failed; `hed_repo_next_seq` returns zero instead of a code. -/
def Op.Reports (op : Op) (first : Option ℤ) : Result → Prop
  | .code ret =>
      match op with
      | .hedRepoCount _ => (first = none → 0 ≤ ret) ∧ ∀ code, first = some code → ret = -code
      | _ => first = ofCode ret
  | .seq n => first ≠ none → n = 0
  | .value v => first = failure v
  | .void => first = none

section Runs

variable {ι : Type} [DecidableEq ι]

end Runs

/-- A process opens a repository, and the file cannot be opened. -/
def unopened : List (Interleaving.Turn Side Fate Op) :=
  .call .a (.hedRepoOpen [[0x75]] (O_RDWR ||| O_CREAT) 0) :: List.replicate 5 (.ask .a .ok)
    ++ .ask .a (.fail EACCES .blank) :: List.replicate 3 (.ask .a .ok) ++ [.ret .a]

/-- The steps of it, and where they lead. -/
def refused : List (ProcessMove Side) × Processes Side :=
  ((clients true Side).play freshSides unopened).get rfl

end Hed
