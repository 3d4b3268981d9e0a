import Mathlib.Data.BitVec
import Hed.Lmdb.World

/-!
# The table of methods of a connection

`hed_rpc_create` of `rpc.c`, which builds the table of the methods that a peer may call.  The
table has one entry for each id up to the largest, and the loop writes the methods of the
list of authorisations to it, one after another: `hedRpcFill_eq` says what it makes of the
table, and `fill_getElem` that the last authorisation of an id decides.
-/

namespace Hed

def EPERM : Errno := ⟨1, by decide⟩

/-- A `gid_t`. -/
abbrev Gid := BitVec 32

/-- A `struct hed_rpc_auth`: members of the group `gid` may call the method `meth`, which may
be `NULL`, under the number `id`. -/
structure HedRpcAuth (μ : Type) where
  id : BitVec 32
  gid : Gid
  meth : Option μ
  deriving DecidableEq

/-- A `struct hed_rpc_factory`, whose ids are at most `maxId`. -/
structure HedRpcFactory (μ : Type) where
  maxId : BitVec 32
  auth : List (HedRpcAuth μ)
  id_le : ∀ a ∈ auth, a.id ≤ maxId

/-- What the code can find out about a connection: the groups of the peer. -/
structure GalvRpcConn where
  groups : List Gid

/-- The ways a function of `rpc.c` does not return: an internal assertion fails, or it
writes outside of the table. -/
inductive Crash where
  | assertion
  | outOfBounds
  deriving DecidableEq

/-- What `hed_rpc_create` returns: a code, or the size of the table, and the table that it
hands out, if it does. -/
structure Created (μ : Type) where
  ret : ℤ
  meth : Option (List (Option μ))
  deriving DecidableEq

section Code

variable {μ : Type}

/-- The loop of `hed_rpc_create` from the index `i` on.  Its assertion is compiled in with
`CONFIG_HED_ASSERT_INTERN` only. -/
def hedRpcFill (assertIntern : Bool) (nr : ℕ) :
    ℕ → List (HedRpcAuth μ) → List (Option μ) → Bool → Except Crash (List (Option μ) × Bool)
  | _, [], fn, permit => .ok (fn, permit)
  | i, auth :: rest, fn, _ =>
      if assertIntern = true ∧ ¬ i < nr then .error .assertion
      else if auth.id.toNat < fn.length then
        hedRpcFill assertIntern nr (i + 1) rest (fn.set auth.id.toNat auth.meth) true
      else .error .outOfBounds

/-- `hed_rpc_create`; `memory` is whether `calloc` finds memory for the table. -/
def hedRpcCreate (assertIntern memory : Bool) (factory : HedRpcFactory μ)
    (_rpc : GalvRpcConn) : Except Crash (Created μ) :=
  let nr := (factory.maxId + 1).toNat
  if memory = false then .ok ⟨-ENOMEM.code, none⟩
  else
    match hedRpcFill assertIntern nr 0 factory.auth (List.replicate nr none) false with
    | .error e => .error e
    | .ok (fn, permit) =>
        if permit then .ok ⟨nr, some fn⟩ else .ok ⟨-EPERM.code, none⟩

end Code

/-! ### The table -/

section Table

variable {μ : Type}

/-- The last authorisation of an id. -/
def lastAuth (auth : List (HedRpcAuth μ)) (i : ℕ) : Option (HedRpcAuth μ) :=
  (auth.filter (fun a => a.id.toNat = i)).getLast?

/-- Write the methods of a list of authorisations to a table. -/
def fill (fn : List (Option μ)) (auth : List (HedRpcAuth μ)) : List (Option μ) :=
  auth.foldl (fun fn a => fn.set a.id.toNat a.meth) fn

theorem lastAuth_cons (a : HedRpcAuth μ) (rest : List (HedRpcAuth μ)) (i : ℕ) :
  lastAuth (a :: rest) i
    = ((lastAuth rest i).or (if a.id.toNat = i then some a else none))
  := by
  rw [lastAuth, List.filter_cons]
  by_cases hi : a.id.toNat = i
  · simp only [hi, decide_true, if_true, List.getLast?_cons]
    rw [lastAuth]
    cases (rest.filter (fun a => a.id.toNat = i)).getLast? with
    | none => rfl
    | some b => rfl
  · simp [hi, lastAuth]

/-- The last authorisation of an id is one of the list, with that id. -/
theorem mem_of_lastAuth {auth : List (HedRpcAuth μ)} {i : ℕ} {a : HedRpcAuth μ}
    (h : lastAuth auth i = some a) :
  a ∈ auth ∧ a.id.toNat = i
  := by
  have hmem := List.mem_of_getLast? h
  rw [List.mem_filter] at hmem
  simpa using hmem

/-- An entry is the method of the last authorisation of its id, or what it was before. -/
theorem getElem?_fill (fn : List (Option μ)) (auth : List (HedRpcAuth μ)) (i : ℕ) :
  (fill fn auth)[i]?
    = match lastAuth auth i with
      | none => fn[i]?
      | some a => if i < fn.length then some a.meth else none
  := by
  induction auth generalizing fn with
  | nil => rfl
  | cons a rest ih =>
      rw [fill, List.foldl_cons, ← fill, ih, lastAuth_cons, List.length_set]
      cases lastAuth rest i with
      | some b => rfl
      | none =>
          rw [Option.none_or]
          by_cases hi : a.id.toNat = i
          · obtain rfl := hi
            simp only [if_true, List.getElem?_set]
          · simp only [if_neg hi, List.getElem?_set]

/-- What the loop makes of a table that has room for all ids: it fails its assertion, if the
list is longer than the table and the assertion is compiled in. -/
theorem hedRpcFill_eq (assertIntern : Bool) (nr i : ℕ) (auth : List (HedRpcAuth μ))
    (fn : List (Option μ)) (permit : Bool) (hids : ∀ a ∈ auth, a.id.toNat < fn.length)
    (hi : assertIntern = true → i ≤ nr) :
  hedRpcFill assertIntern nr i auth fn permit
    = if assertIntern = true ∧ nr < i + auth.length then .error .assertion
      else .ok (fill fn auth, permit || !auth.isEmpty)
  := by
  induction auth generalizing i fn permit with
  | nil =>
      have hshort : ¬ (assertIntern = true ∧ nr < i + ([] : List (HedRpcAuth μ)).length) := by
        rintro ⟨hassert, hlt⟩
        apply (hi hassert).not_gt hlt
      rw [if_neg hshort, hedRpcFill]
      simp [fill]
  | cons a rest ih =>
      obtain ⟨ha, hrest⟩ := List.forall_mem_cons.mp hids
      have hlength : i + (a :: rest).length = i + 1 + rest.length := by
        rw [List.length_cons]
        omega
      rw [hedRpcFill, hlength]
      by_cases hfails : assertIntern = true ∧ ¬ i < nr
      · have hlong : nr < i + 1 + rest.length := by omega
        rw [if_pos hfails, if_pos ⟨hfails.1, hlong⟩]
      · have hrest' : ∀ b ∈ rest, b.id.toNat < (fn.set a.id.toNat a.meth).length := by
          rw [List.length_set]
          apply hrest
        have hi' : assertIntern = true → i + 1 ≤ nr := by
          intro hassert
          have hlt : i < nr := by
            by_contra h
            apply hfails ⟨hassert, h⟩
          apply hlt
        rw [if_neg hfails, if_pos ha, ih (i + 1) _ true hrest' hi']
        simp [fill]

end Table

/-! ### Creating the table -/

section Create

variable {μ : Type} {assertIntern : Bool} {factory : HedRpcFactory μ}

/-- The size of the table, unless it does not fit 32 bits. -/
theorem size_eq (hmax : factory.maxId ≠ BitVec.allOnes 32) :
  (factory.maxId + 1).toNat = factory.maxId.toNat + 1
  := by
  have hne : factory.maxId.toNat ≠ 2 ^ 32 - 1 := by
    intro h
    apply hmax
    apply BitVec.eq_of_toNat_eq
    rw [h, BitVec.toNat_allOnes]
  have hlt := factory.maxId.isLt
  rw [BitVec.toNat_add]
  have hone : (1 : BitVec 32).toNat = 1 := rfl
  omega

/-- All ids have a place in the table, if its size fits 32 bits. -/
theorem id_lt_size (factory : HedRpcFactory μ) :
  ∀ a ∈ factory.auth, a.id.toNat < factory.maxId.toNat + 1
  := by
  intro a ha
  apply Nat.lt_succ_of_le (BitVec.le_def.mp (factory.id_le a ha))

/-- With memory, and a size that fits 32 bits. -/
theorem hedRpcCreate_eq (hmax : factory.maxId ≠ BitVec.allOnes 32) (rpc : GalvRpcConn) :
  hedRpcCreate assertIntern true factory rpc
    = if assertIntern = true ∧ factory.maxId.toNat + 1 < factory.auth.length then
        .error .assertion
      else if factory.auth = [] then .ok ⟨-EPERM.code, none⟩
      else
        .ok ⟨(factory.maxId.toNat + 1 : ℕ),
          some (fill (List.replicate (factory.maxId.toNat + 1) none) factory.auth)⟩
  := by
  have hids : ∀ a ∈ factory.auth,
      a.id.toNat < (List.replicate (factory.maxId.toNat + 1) (none : Option μ)).length := by
    rw [List.length_replicate]
    apply id_lt_size
  have hfill := hedRpcFill_eq assertIntern (factory.maxId.toNat + 1) 0 factory.auth _ false hids
    (fun _ => Nat.zero_le _)
  rw [Nat.zero_add] at hfill
  simp only [hedRpcCreate, Bool.true_eq_false, if_false, size_eq hmax, hfill]
  by_cases hlong : assertIntern = true ∧ factory.maxId.toNat + 1 < factory.auth.length
  · rw [if_pos hlong, if_pos hlong]
  · rw [if_neg hlong, if_neg hlong]
    cases factory.auth with
    | nil => rfl
    | cons a rest => rfl

/-- With memory, and a size that does not: the table has no entries. -/
theorem hedRpcCreate_allOnes (hmax : factory.maxId = BitVec.allOnes 32) (rpc : GalvRpcConn) :
  hedRpcCreate assertIntern true factory rpc
    = if factory.auth = [] then .ok ⟨-EPERM.code, none⟩
      else .error (if assertIntern = true then .assertion else .outOfBounds)
  := by
  have hsize : (factory.maxId + 1).toNat = 0 := by
    rw [hmax]
    rfl
  rw [hedRpcCreate, hsize]
  cases hauth : factory.auth with
  | nil => rfl
  | cons a rest =>
      cases assertIntern with
      | true => rfl
      | false => rfl

end Create

end Hed
