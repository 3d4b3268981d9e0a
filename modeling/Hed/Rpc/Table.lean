import Hed.Rpc.Factory

/-!
# The size of the table

The table of methods is to have an entry for every id up to the largest.  Its size is computed
in 32 bits, and the assertion of the loop is about the index of the authorisation, not about its
id: `builds_table_iff` says for which factories neither does any harm.
-/

namespace Hed

variable {μ : Type} {factory : HedRpcFactory μ}

/-- What is asked of the table: its assertion holds and its entries are written within its
bounds; and if it is handed out, it has an entry for every id up to the largest, which is the
method of the last authorisation of that id. -/
structure BuildsTable (factory : HedRpcFactory μ) (o : Except Crash (Created μ)) : Prop where
  runs : ∃ created, o = .ok created
  size : ∀ created, o = .ok created → 0 ≤ created.ret → created.ret = factory.maxId.toNat + 1
  entries : ∀ created, o = .ok created → 0 ≤ created.ret →
    ∃ fn, created.meth = some fn ∧ fn.length = factory.maxId.toNat + 1 ∧
      ∀ i ≤ factory.maxId.toNat, fn[i]? = some ((lastAuth factory.auth i).bind (fun a => a.meth))

/-- What hands out no table asks nothing of it. -/
theorem buildsTable_of_code {ret : ℤ} {meth : Option (List (Option μ))} (hret : ret < 0) :
  BuildsTable factory (.ok ⟨ret, meth⟩)
  := by
  have hcode : ∀ created, (Except.ok ⟨ret, meth⟩ : Except Crash (Created μ)) = .ok created →
      ¬ 0 ≤ created.ret := by
    intro created hok
    rw [← Except.ok.inj hok]
    exact not_le.mpr hret
  constructor
  · use ⟨ret, meth⟩
  · intro created hok hpos
    exact absurd hpos (hcode created hok)
  · intro created hok hpos
    exact absurd hpos (hcode created hok)

theorem not_buildsTable_of_crash (e : Crash) :
  ¬ BuildsTable factory (.error e)
  := by
  intro h
  obtain ⟨created, hok⟩ := h.runs
  cases hok

theorem length_fill (fn : List (Option μ)) (auth : List (HedRpcAuth μ)) :
  (fill fn auth).length = fn.length
  := by
  induction auth generalizing fn with
  | nil => rfl
  | cons a rest ih =>
      rw [fill, List.foldl_cons, ← fill, ih, List.length_set]

/-- An entry of an empty table, once it is filled. -/
theorem getElem?_fill_replicate (auth : List (HedRpcAuth μ)) {nr i : ℕ} (hi : i < nr) :
  (fill (List.replicate nr none) auth)[i]? = some ((lastAuth auth i).bind (fun a => a.meth))
  := by
  rw [getElem?_fill, List.length_replicate, List.getElem?_replicate, if_pos hi]
  cases lastAuth auth i with
  | none => rfl
  | some a => exact if_pos hi

/-- The table that the loop makes is as it should be. -/
theorem buildsTable_fill (factory : HedRpcFactory μ) :
  BuildsTable factory (.ok ⟨(factory.maxId.toNat + 1 : ℕ),
    some (fill (List.replicate (factory.maxId.toNat + 1) none) factory.auth)⟩)
  := by
  constructor
  · exact ⟨_, rfl⟩
  · rintro _ ⟨⟩ _
    rfl
  · rintro _ ⟨⟩ _
    refine ⟨_, rfl, ?_, ?_⟩
    · rw [length_fill, List.length_replicate]
    · intro i hi
      apply getElem?_fill_replicate
      exact Nat.lt_succ_of_le hi

/-- The table is as it should be unless `calloc` finds memory, there are authorisations, and the
largest id is the largest number of 32 bits, or the assertion is compiled in and there are more
authorisations than ids. -/
theorem builds_table_iff (assertIntern memory : Bool) (factory : HedRpcFactory μ)
    (rpc : GalvRpcConn) :
  BuildsTable factory (hedRpcCreate assertIntern memory factory rpc)
    ↔ memory = false ∨ factory.auth = []
      ∨ (factory.maxId ≠ BitVec.allOnes 32
        ∧ (assertIntern = true → factory.auth.length ≤ factory.maxId.toNat + 1))
  := by
  have hrefused : BuildsTable factory (.ok ⟨-EPERM.code, none⟩) :=
    buildsTable_of_code (by decide)
  cases memory with
  | false =>
      have hcreate : hedRpcCreate assertIntern false factory rpc = .ok ⟨-ENOMEM.code, none⟩ := rfl
      rw [hcreate]
      exact iff_of_true (buildsTable_of_code (by decide)) (Or.inl rfl)
  | true =>
      by_cases hmax : factory.maxId = BitVec.allOnes 32
      · rw [hedRpcCreate_allOnes hmax]
        by_cases hnil : factory.auth = []
        · rw [if_pos hnil]
          exact iff_of_true hrefused (Or.inr (Or.inl hnil))
        · rw [if_neg hnil]
          apply iff_of_false (not_buildsTable_of_crash _)
          simp [hnil, hmax]
      · rw [hedRpcCreate_eq hmax]
        split_ifs with hlong hnil
        · apply iff_of_false (not_buildsTable_of_crash _)
          have hne : factory.auth ≠ [] := by
            apply List.ne_nil_of_length_pos
            omega
          simp [hne, hlong]
        · exact iff_of_true hrefused (Or.inr (Or.inl hnil))
        · apply iff_of_true (buildsTable_fill factory)
          right
          right
          use hmax
          intro hassert
          by_contra hlt
          exact hlong ⟨hassert, not_le.mp hlt⟩

/-- A factory with one method for two groups, and one that allows all ids. -/
def twoGroups : HedRpcFactory Unit where
  maxId := 0
  auth := [⟨0, 0, some ()⟩, ⟨0, 1000, some ()⟩]
  id_le := by decide

def allIds : HedRpcFactory Unit where
  maxId := BitVec.allOnes 32
  auth := [⟨0, 0, some ()⟩]
  id_le := by decide

/-- For the one the assertion fails, for the other the first method is written outside of the
table. -/
theorem table_too_small :
  ¬ BuildsTable twoGroups (hedRpcCreate true true twoGroups ⟨[]⟩)
    ∧ ¬ BuildsTable allIds (hedRpcCreate false true allIds ⟨[]⟩)
  := by
  have hassertion : hedRpcCreate true true twoGroups ⟨[]⟩ = .error .assertion := by decide
  have hbounds : hedRpcCreate false true allIds ⟨[]⟩ = .error .outOfBounds := by decide
  rw [hassertion, hbounds]
  exact ⟨not_buildsTable_of_crash _, not_buildsTable_of_crash _⟩

end Hed
