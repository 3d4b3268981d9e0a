import Hed.Rpc.Factory

/-!
# Authorisation by group

Which methods a peer may call is to depend on the groups it is a member of: `ByGroup` says
so.  `hed_rpc_create` does not look at the groups, so it hands out every method of the list.
`byGroup_iff` says for which lists and peers that makes no difference.
-/

namespace Hed

variable {μ : Type} {factory : HedRpcFactory μ} {rpc : GalvRpcConn}

/-- An authorisation is for a group of the peer. -/
def HedRpcAuth.For (a : HedRpcAuth μ) (rpc : GalvRpcConn) : Prop := a.gid ∈ rpc.groups

/-- What authorisation by group asks of `hed_rpc_create`: every method it hands out is that of
an authorisation for a group of the peer, under the id of that authorisation, and a peer
without any is refused. -/
structure ByGroup (factory : HedRpcFactory μ) (rpc : GalvRpcConn)
    (o : Except Crash (Created μ)) : Prop where
  defined : o ≠ .error .outOfBounds
  entries : ∀ ret fn, o = .ok ⟨ret, some fn⟩ → ∀ (i : ℕ) m, fn[i]? = some (some m) →
    ∃ a ∈ factory.auth, a.id.toNat = i ∧ a.For rpc ∧ a.meth = some m
  refused : (∀ a ∈ factory.auth, ¬ a.For rpc) → o = .ok ⟨-EPERM.code, none⟩

/-- The last authorisation of each id, if it has a method, has one that some authorisation of
that id for a group of the peer has, too. -/
def LastsFor (factory : HedRpcFactory μ) (rpc : GalvRpcConn) : Prop :=
  ∀ i a m, lastAuth factory.auth i = some a → a.meth = some m →
    ∃ b ∈ factory.auth, b.id.toNat = i ∧ b.For rpc ∧ b.meth = some m

/-- What is not a refusal has to be for a peer with an authorisation. -/
theorem refused_iff {o : Except Crash (Created μ)} (ho : o ≠ .ok ⟨-EPERM.code, none⟩) :
  ((∀ a ∈ factory.auth, ¬ a.For rpc) → o = .ok ⟨-EPERM.code, none⟩)
    ↔ ∃ a ∈ factory.auth, a.For rpc
  := by
  constructor
  · intro h
    by_contra hnone
    apply ho
    apply h
    intro a ha hfor
    apply hnone ⟨a, ha, hfor⟩
  · rintro ⟨a, ha, hfor⟩ h
    apply (h a ha hfor).elim

/-- What hands out no table, and is not a refusal. -/
theorem byGroup_iff_of_no_table {o : Except Crash (Created μ)}
    (ho : o ≠ .ok ⟨-EPERM.code, none⟩) (hdefined : o ≠ .error .outOfBounds)
    (hnone : ∀ ret fn, o ≠ .ok ⟨ret, some fn⟩) :
  ByGroup factory rpc o ↔ ∃ a ∈ factory.auth, a.For rpc
  := by
  rw [← refused_iff ho]
  constructor
  · intro h
    apply h.refused
  · intro h
    constructor
    · apply hdefined
    · intro ret fn hok
      apply (hnone ret fn hok).elim
    · apply h

/-- The table that the loop makes. -/
theorem byGroup_iff_of_table (factory : HedRpcFactory μ) (rpc : GalvRpcConn) (ret : ℤ) :
  ByGroup factory rpc
      (.ok ⟨ret, some (fill (List.replicate (factory.maxId.toNat + 1) none) factory.auth)⟩)
    ↔ (∃ a ∈ factory.auth, a.For rpc) ∧ LastsFor factory rpc
  := by
  have htable : (Except.ok ⟨ret, some (fill (List.replicate (factory.maxId.toNat + 1) none)
      factory.auth)⟩ : Except Crash (Created μ)) ≠ .ok ⟨-EPERM.code, none⟩ := by simp
  rw [← refused_iff htable]
  constructor
  · intro h
    use h.refused
    intro i a m hlast hmeth
    apply h.entries _ _ rfl i m
    obtain ⟨ha, rfl⟩ := mem_of_lastAuth hlast
    rw [getElem?_fill, hlast, List.length_replicate]
    simp only [id_lt_size factory a ha, if_true, hmeth]
  · rintro ⟨hrefused, hlasts⟩
    constructor
    · simp
    · intro ret' fn hok i m hentry
      obtain ⟨-, hfn⟩ := Created.mk.inj (Except.ok.inj hok)
      rw [← Option.some.inj hfn, getElem?_fill, List.length_replicate] at hentry
      cases hlast : lastAuth factory.auth i with
      | none =>
          rw [hlast] at hentry
          simp [List.getElem?_replicate] at hentry
      | some a =>
          rw [hlast] at hentry
          simp only at hentry
          split_ifs at hentry with hi
          apply hlasts i a m hlast (Option.some.inj hentry)
    · apply hrefused

/-- `hed_rpc_create` authorises by group exactly if some authorisation is for a group of the
peer, or there is none at all, and the last authorisations of all ids are for the peer, or it
hands out no table.  In memory there must be room for the table, or an authorisation for the
peer; and ids that are too many for the size to fit 32 bits must not be used. -/
theorem byGroup_iff (assertIntern memory : Bool) (factory : HedRpcFactory μ)
    (rpc : GalvRpcConn) :
  ByGroup factory rpc (hedRpcCreate assertIntern memory factory rpc)
    ↔ ((∃ a ∈ factory.auth, a.For rpc) ∨ (factory.auth = [] ∧ memory = true))
      ∧ (memory = false ∨ factory.auth = []
        ∨ (assertIntern = true ∧ (factory.maxId + 1).toNat < factory.auth.length)
        ∨ (factory.maxId ≠ BitVec.allOnes 32 ∧ LastsFor factory rpc))
  := by
  cases memory with
  | false =>
      have hcreate : hedRpcCreate assertIntern false factory rpc = .ok ⟨-ENOMEM.code, none⟩ := rfl
      rw [hcreate, byGroup_iff_of_no_table]
      · simp
      · simp [ENOMEM, EPERM]
      · simp
      · simp
  | true =>
      by_cases hnil : factory.auth = []
      · have hcreate : hedRpcCreate assertIntern true factory rpc = .ok ⟨-EPERM.code, none⟩ := by
          by_cases hmax : factory.maxId = BitVec.allOnes 32
          · rw [hedRpcCreate_allOnes hmax, if_pos hnil]
          · rw [hedRpcCreate_eq hmax, if_neg (by simp [hnil]), if_pos hnil]
        have hgroup : ByGroup factory rpc (.ok ⟨-EPERM.code, none⟩) := by
          constructor
          · simp
          · rintro ret fn ⟨⟩
          · intro _
            rfl
        rw [hcreate]
        simp [hnil, hgroup]
      · have hlength : 0 < factory.auth.length := List.length_pos_of_ne_nil hnil
        by_cases hmax : factory.maxId = BitVec.allOnes 32
        · have hsize : (factory.maxId + 1).toNat = 0 := by
            rw [hmax]
            rfl
          rw [hedRpcCreate_allOnes hmax, if_neg hnil, hsize]
          cases assertIntern with
          | true =>
              rw [if_pos rfl, byGroup_iff_of_no_table]
              · simp [hnil, hlength]
              · simp
              · simp
              · simp
          | false =>
              apply iff_of_false
              · intro h
                apply h.defined rfl
              · simp [hnil, hmax]
        · rw [hedRpcCreate_eq hmax, if_neg hnil, size_eq hmax]
          split_ifs with hlong
          · rw [byGroup_iff_of_no_table]
            · simp [hnil, hlong]
            · simp
            · simp
            · simp
          · rw [byGroup_iff_of_table]
            simp only [hnil, hlong, hmax, ne_eq, not_false_eq_true, true_and, false_or, false_and,
              or_false]

/-- A factory with one method, for the group 0. -/
def rootFactory : HedRpcFactory Unit where
  maxId := 0
  auth := [⟨0, 0, some ()⟩]
  id_le := by decide

/-- A peer that is a member of another group only. -/
def userConn : GalvRpcConn := ⟨[1000]⟩

/-- That peer is handed the method all the same. -/
theorem method_for_every_group :
  ¬ ∀ (factory : HedRpcFactory Unit) (rpc : GalvRpcConn),
      ByGroup factory rpc (hedRpcCreate false true factory rpc)
  := by
  intro hgroup
  have hcreate : hedRpcCreate false true rootFactory userConn = .ok ⟨1, some [some ()]⟩ := by
    decide
  obtain ⟨a, ha, -, hfor, -⟩ := (hgroup rootFactory userConn).entries _ _ hcreate 0 () rfl
  have hgid : a.gid = 0 := by
    rw [List.mem_singleton.mp ha]
  rw [HedRpcAuth.For, hgid] at hfor
  revert hfor
  decide

end Hed
