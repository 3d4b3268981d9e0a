import Mathlib.Logic.Function.Basic
import Hed.Json.Addresses
import Hed.Prelude.Program

/-!
# Who owns the objects

An object of json-c is owned by whoever made it, until it is added to another object, which owns
it then, or is released.  Here the decoders to JSON of `inet-json.c` and `inet-impl.c` make,
add and release objects by reference, and each of these calls may fail.  Their objects are those
of the decoders that do not know of references.  When they fail they own nothing that they made,
but for an object that could not be added.
-/

namespace Hed

open Program

/-! ### The calls -/

/-- The calls of json-c that make objects, add one to another and release one. -/
inductive JsonCall where
  | newObject
  | newString (s : Text)
  | newInt (n : ℤ)
  | objectAdd (object : ℕ) (key : Text) (obj : ℕ)
  | put (object : ℕ)

/-- What each of them replies. -/
def JsonCall.Reply : JsonCall → Type
  | .newObject | .newString _ | .newInt _ => Option ℕ
  | .objectAdd _ _ _ => ℤ
  | .put _ => Unit

abbrev jsonCalls : Signature where
  Call := JsonCall
  Reply := JsonCall.Reply

/-- A function that makes these calls. -/
abbrev Json (α : Type) := Program jsonCalls α

def jsonObjectNewObject : Json (Option ℕ) := ask (S := jsonCalls) .newObject
def jsonObjectNewString (s : Text) : Json (Option ℕ) := ask (S := jsonCalls) (.newString s)
def jsonObjectNewInt (n : ℤ) : Json (Option ℕ) := ask (S := jsonCalls) (.newInt n)
def jsonObjectObjectAdd (object : ℕ) (key : Text) (obj : ℕ) : Json ℤ :=
  ask (S := jsonCalls) (.objectAdd object key obj)
def jsonObjectPut (object : ℕ) : Json Unit := ask (S := jsonCalls) (.put object)

/-! ### The objects in memory -/

/-- The objects that were made, by their references, as long as the code owns them, and whether it
used a reference to an object that it did not own. -/
structure JsonHeap where
  cells : List (Option JsonObject)
  misused : Bool

namespace JsonHeap

/-- The object that the code owns by a reference. -/
def owned (heap : JsonHeap) (ref : ℕ) : Option JsonObject := heap.cells.getD ref none

/-- Make an object. -/
def alloc (heap : JsonHeap) (obj : JsonObject) : JsonHeap :=
  ⟨heap.cells ++ [some obj], heap.misused⟩

/-- Release an object, with all those that it owns. -/
def put (heap : JsonHeap) (object : ℕ) : JsonHeap :=
  match heap.owned object with
  | none => { heap with misused := true }
  | some _ => { heap with cells := heap.cells.set object none }

/-- Add an object to another one, which owns it then, unless that fails. -/
def add (heap : JsonHeap) (ok : Bool) (object : ℕ) (key : Text) (obj : ℕ) : ℤ × JsonHeap :=
  match heap.owned object, heap.owned obj with
  | some parent, some child =>
      match jsonC.objectAdd parent key child with
      | (ret, parent) =>
          if ok = true ∧ ret = 0 then
            (0, { heap with cells := (heap.cells.set obj none).set object (some parent) })
          else (-1, heap)
  | _, _ => (-1, { heap with misused := true })

variable (heap : JsonHeap)

theorem owned_length :
  heap.owned heap.cells.length = none
  := by
  simp [owned]

theorem owned_alloc (obj : JsonObject) :
  (heap.alloc obj).owned = Function.update heap.owned heap.cells.length (some obj)
  := by
  funext ref
  rw [Function.update_apply, owned, alloc, List.getD_eq_getElem?_getD, List.getElem?_append]
  rcases lt_trichotomy ref heap.cells.length with hlt | rfl | hlt
  · rw [if_pos hlt, if_neg hlt.ne, owned, List.getD_eq_getElem?_getD]
  · simp
  · have hpast : ref - heap.cells.length ≠ 0 := by omega
    simp [owned, hlt.not_gt, hlt.ne', hpast]

variable {heap}

theorem lt_of_owned {ref : ℕ} (h : heap.owned ref ≠ none) :
  ref < heap.cells.length
  := by
  by_contra hle
  apply h
  simp [owned, not_lt.mp hle]

/-- Replacing an object that is owned. -/
theorem owned_set {ref : ℕ} (h : heap.owned ref ≠ none) (obj : Option JsonObject)
    (misused : Bool) :
  owned ⟨heap.cells.set ref obj, misused⟩ = Function.update heap.owned ref obj
  := by
  funext ref'
  rw [Function.update_apply, owned, List.getD_eq_getElem?_getD, List.getElem?_set]
  rcases eq_or_ne ref ref' with rfl | hne
  · rw [if_pos rfl, if_pos rfl, if_pos (lt_of_owned h), Option.getD_some]
  · rw [if_neg hne, if_neg hne.symm, owned, List.getD_eq_getElem?_getD]

/-- Releasing an object that is owned. -/
theorem owned_put {ref : ℕ} (h : heap.owned ref ≠ none) :
  (heap.put ref).owned = Function.update heap.owned ref none
    ∧ (heap.put ref).misused = heap.misused
  := by
  obtain ⟨obj, hobj⟩ := Option.ne_none_iff_exists'.mp h
  rw [put, hobj]
  use owned_set h none heap.misused

/-- Adding an object to another one, when that does not fail. -/
theorem add_true {object obj : ℕ} {key : Text} {fields : List (Text × JsonObject)}
    {child : JsonObject} (hobject : heap.owned object = some (.object fields))
    (hobj : heap.owned obj = some child) (hkey : ∀ field ∈ fields, field.1 ≠ key)
    (hne : object ≠ obj) :
  (heap.add true object key obj).1 = 0 ∧ (heap.add true object key obj).2.misused = heap.misused
    ∧ (heap.add true object key obj).2.owned = Function.update
      (Function.update heap.owned obj none) object (some (.object (fields ++ [(key, child)])))
  := by
  have hadd : heap.add true object key obj = (0, ⟨(heap.cells.set obj none).set object
      (some (.object (fields ++ [(key, child)]))), heap.misused⟩) := by
    simp [add, hobject, hobj, jsonC_allocates.objectAdd fields key child hkey]
  have hmoved : owned ⟨heap.cells.set obj none, heap.misused⟩
      = Function.update heap.owned obj none := by
    apply owned_set
    rw [hobj]
    simp
  have hparent : owned ⟨heap.cells.set obj none, heap.misused⟩ object ≠ none := by
    rw [hmoved, Function.update_of_ne hne, hobject]
    simp
  rw [hadd]
  use rfl, rfl
  rw [← hmoved]
  apply owned_set hparent

/-- Adding an object to another one, when that fails. -/
theorem add_false {object obj : ℕ} {key : Text} (hobject : heap.owned object ≠ none)
    (hobj : heap.owned obj ≠ none) :
  heap.add false object key obj = (-1, heap)
  := by
  obtain ⟨parent, hparent⟩ := Option.ne_none_iff_exists'.mp hobject
  obtain ⟨child, hchild⟩ := Option.ne_none_iff_exists'.mp hobj
  simp [add, hparent, hchild]

end JsonHeap

/-- What the calls do.  Those that make an object or add one may fail. -/
def jsonStep : Handler jsonCalls Bool JsonHeap := fun ok c heap =>
  match c with
  | .newObject =>
      if ok = true then (some heap.cells.length, heap.alloc (.object [])) else (none, heap)
  | .newString s =>
      if ok = true then (some heap.cells.length, heap.alloc (.string s)) else (none, heap)
  | .newInt n =>
      if ok = true then (some heap.cells.length, heap.alloc (.int n)) else (none, heap)
  | .objectAdd object key obj => heap.add ok object key obj
  | .put object => ((), heap.put object)

section Calls

variable {heap : JsonHeap}

theorem wp_jsonObjectNewObject {Q : List (Event jsonCalls Bool) → Option ℕ → JsonHeap → Prop}
    (h : Q [⟨.newObject, true⟩] (some heap.cells.length) (heap.alloc (.object [])))
    (h' : Q [⟨.newObject, false⟩] none heap) :
  wp jsonStep jsonObjectNewObject Q heap
  := by
  intro ok
  cases ok with
  | true => apply h
  | false => apply h'

theorem wp_jsonObjectNewString {s : Text}
    {Q : List (Event jsonCalls Bool) → Option ℕ → JsonHeap → Prop}
    (h : Q [⟨.newString s, true⟩] (some heap.cells.length) (heap.alloc (.string s)))
    (h' : Q [⟨.newString s, false⟩] none heap) :
  wp jsonStep (jsonObjectNewString s) Q heap
  := by
  intro ok
  cases ok with
  | true => apply h
  | false => apply h'

theorem wp_jsonObjectNewInt {n : ℤ}
    {Q : List (Event jsonCalls Bool) → Option ℕ → JsonHeap → Prop}
    (h : Q [⟨.newInt n, true⟩] (some heap.cells.length) (heap.alloc (.int n)))
    (h' : Q [⟨.newInt n, false⟩] none heap) :
  wp jsonStep (jsonObjectNewInt n) Q heap
  := by
  intro ok
  cases ok with
  | true => apply h
  | false => apply h'

theorem wp_jsonObjectObjectAdd {object obj : ℕ} {key : Text}
    {Q : List (Event jsonCalls Bool) → ℤ → JsonHeap → Prop}
    (h : ∀ ok, Q [⟨.objectAdd object key obj, ok⟩] (heap.add ok object key obj).1
      (heap.add ok object key obj).2) :
  wp jsonStep (jsonObjectObjectAdd object key obj) Q heap
  := h

theorem wp_jsonObjectPut {object : ℕ}
    {Q : List (Event jsonCalls Bool) → Unit → JsonHeap → Prop}
    (h : ∀ ok, Q [⟨.put object, ok⟩] () (heap.put object)) :
  wp jsonStep (jsonObjectPut object) Q heap
  := h

end Calls

/-! ### The functions -/

/-- A function that decodes to JSON: the reference of the object, or the `errno` that it sets, if it
sets one. -/
abbrev ToJsonRef := Decoder → Json (Except (Option ℤ) ℕ × Decoder)

section Functions

variable {α : Type}

/-- The reference that a call returned, or no `errno` of the function's own. -/
def returned (obj : Option ℕ) : Except (Option ℤ) ℕ :=
  match obj with
  | none => .error none
  | some obj => .ok obj

/-- The family `hed_dec_*_to_json` of the scalars, with references. -/
def decScalarToJsonRef (chk : α → ℤ) (decode : Decoding α) (toInt : α → ℤ) : ToJsonRef :=
  fun decoder =>
  match decode decoder with
  | ((ret, value), decoder) =>
      if ret ≠ 0 then pure (.error (some (-ret)), decoder)
      else if chk value ≠ 0 then pure (.error (some (-chk value)), decoder)
      else do
        let obj ← jsonObjectNewInt (toInt value)
        pure (returned obj, decoder)

/-- The family `hed_decode_*_to_json` of the addresses, with references. -/
def decodeAddrToJsonRef (inet : Presentation α) (check : α → ℤ) (decode : Decoding α) :
    ToJsonRef := fun decoder =>
  match decode decoder with
  | ((ret, addr), decoder) =>
      if ret ≠ 0 then pure (.error (some (-ret)), decoder)
      else if check addr ≠ 0 then pure (.error (some (-check addr)), decoder)
      else
        match inet.inetNtop addr with
        | .error e => pure (.error (some e.code), decoder)
        | .ok buf => do
            let obj ← jsonObjectNewString buf
            pure (returned obj, decoder)

/-- The label `error` of the decoders of structures to JSON. -/
def jsonError (object : ℕ) (e : Option ℤ) (decoder : Decoder) :
    Json (Except (Option ℤ) ℕ × Decoder) := do
  jsonObjectPut object
  pure (.error e, decoder)

/-- Decode a field, and add it to an object. -/
def addField (fieldToJson : ToJsonRef) (object : ℕ) (key : Text) (decoder : Decoder) :
    Json (Except (Option ℤ) Unit × Decoder) := do
  let (obj, decoder) ← fieldToJson decoder
  match obj with
  | .error e => pure (.error e, decoder)
  | .ok obj => do
      let ret ← jsonObjectObjectAdd object key obj
      if ret ≠ 0 then pure (.error none, decoder) else pure (.ok (), decoder)

/-- Decode a field of an object, and go on once it has been added to it. -/
def withField (fieldToJson : ToJsonRef) (object : ℕ) (key : Text) (next : ToJsonRef) : ToJsonRef :=
  fun decoder => do
  let (field, decoder) ← addField fieldToJson object key decoder
  match field with
  | .error e => jsonError object e decoder
  | .ok () => next decoder

/-- The family `hed_dec_*_to_json` of the structures, with references. -/
def decStructToJsonRef (dpack : DpackLib) (addrToJson : ToJsonRef) (key : Text)
    (extraToJson : ToJsonRef) : ToJsonRef := fun decoder => do
  let object ← jsonObjectNewObject
  match object with
  | none => pure (.error none, decoder)
  | some object =>
      match dpack.arrayDecodeCountEqu decoder 2 with
      | (ret, decoder) =>
          if ret ≠ 0 then jsonError object none decoder
          else
            withField addrToJson object addrKey
              (withField extraToJson object key fun decoder => pure (.ok object, decoder)) decoder

variable (dpack : DpackLib) (inet : Presentation InAddr) (inet6 : Presentation In6Addr)

def hedDecInPfxToJsonRef : ToJsonRef :=
  decScalarToJsonRef hedChkInPfx dpack.decodeUint8 (fun value => value.val)

def hedDecIn6PfxToJsonRef : ToJsonRef :=
  decScalarToJsonRef hedChkIn6Pfx dpack.decodeUint8 (fun value => value.val)

def hedDecPortToJsonRef : ToJsonRef :=
  decScalarToJsonRef hedChkPort dpack.decodeUint16 (fun value => value.toNat)

def hedDecodeInAddrToJsonRef : ToJsonRef :=
  decodeAddrToJsonRef inet hedCheckInAddr (hedDecodeInAddr dpack)

def hedDecodeIn6AddrToJsonRef : ToJsonRef :=
  decodeAddrToJsonRef inet6 hedCheckIn6Addr (hedDecodeIn6Addr dpack)

def hedDecInSvcToJsonRef : ToJsonRef :=
  decStructToJsonRef dpack (hedDecodeInAddrToJsonRef dpack inet) portKey (hedDecPortToJsonRef dpack)

def hedDecIn6SvcToJsonRef : ToJsonRef :=
  decStructToJsonRef dpack (hedDecodeIn6AddrToJsonRef dpack inet6) portKey
    (hedDecPortToJsonRef dpack)

def hedDecInNetToJsonRef : ToJsonRef :=
  decStructToJsonRef dpack (hedDecodeInAddrToJsonRef dpack inet) prefixKey
    (hedDecInPfxToJsonRef dpack)

def hedDecIn6NetToJsonRef : ToJsonRef :=
  decStructToJsonRef dpack (hedDecodeIn6AddrToJsonRef dpack inet6) prefixKey
    (hedDecIn6PfxToJsonRef dpack)

end Functions

/-! ### What is owned -/

/-- Adding an object to another one fails. -/
def AddFails (e : Event jsonCalls Bool) : Prop :=
  e.fate = false ∧ ∃ object key obj, e.call = .objectAdd object key obj

theorem notAddFails_singleton {c : JsonCall} (hc : ∀ object key obj, c ≠ .objectAdd object key obj)
    (ok : Bool) :
  ∀ e ∈ [(⟨c, ok⟩ : Event jsonCalls Bool)], ¬ AddFails e
  := by
  rintro e he ⟨_, object, key, ref, hcall⟩
  rw [List.mem_singleton.mp he] at hcall
  exact hc object key ref hcall

/-- What a function leaves that decodes to JSON, where the decoder that does not know of references
has some result.  No reference is misused.  If the function succeeds, then every object could be
added, the object is that of the result, and what is owned is what was `Made` of it.  If it fails,
nothing is owned that was not owned before, but for one object if adding an object failed.  And if
no call fails, the function fails exactly if the decoder does, in the same way. -/
structure Owning {β : Type} (Made : β → JsonObject → (ℕ → Option JsonObject) → Prop)
    (heap : JsonHeap) (result : Except (Option ℤ) JsonObject × Decoder)
    (t : List (Event jsonCalls Bool)) (r : Except (Option ℤ) β × Decoder) (heap' : JsonHeap) :
    Prop where
  misused : heap'.misused = heap.misused
  ok : ∀ b rest, r = (.ok b, rest) → ∃ obj, result = (.ok obj, rest) ∧ Made b obj heap'.owned
  adds : ∀ b rest, r = (.ok b, rest) → ∀ e ∈ t, ¬ AddFails e
  error : ∀ e rest, r = (.error e, rest) → (∀ e ∈ t, ¬ AddFails e) → heap'.owned = heap.owned
  lost : ∀ e rest, r = (.error e, rest) → (∃ e ∈ t, AddFails e) →
    ∃ ref obj, heap.owned ref = none ∧ heap'.owned = Function.update heap.owned ref (some obj)
  agrees : (∀ e ∈ t, e.fate = true) → r.2 = result.2 ∧ ∀ e, r.1 = .error e ↔ result.1 = .error e

/-- What is owned of an object that is made: a new reference to it. -/
def MadeNew (heap : JsonHeap) (ref : ℕ) (obj : JsonObject) (owned : ℕ → Option JsonObject) : Prop :=
  heap.owned ref = none ∧ owned = Function.update heap.owned ref (some obj)

/-- A function with references owns what it should of the objects of a decoder to JSON. -/
def Owns (p : ToJsonRef) (q : ToJson) : Prop :=
  ∀ heap decoder, wp jsonStep (p decoder) (Owning (MadeNew heap) heap (q decoder)) heap

/-- The same for a function that adds no objects. -/
def OwnsField (p : ToJsonRef) (q : ToJson) : Prop :=
  ∀ heap decoder, wp jsonStep (p decoder) (fun t r heap' =>
    Owning (MadeNew heap) heap (q decoder) t r heap' ∧ ∀ e ∈ t, ¬ AddFails e) heap

section Fields

variable {α β : Type} {heap : JsonHeap} {rest : Decoder} {e : Option ℤ} {obj : JsonObject}

/-- A function that fails before it makes an object. -/
theorem owning_error {Made : β → JsonObject → (ℕ → Option JsonObject) → Prop} :
  Owning Made heap (.error e, rest) [] (.error e, rest) heap
  := by
  constructor
  · rfl
  · rintro b rest ⟨⟩
  · rintro b rest ⟨⟩
  · intros
    rfl
  · rintro _ _ _ ⟨_, ⟨⟩, _⟩
  · intro _
    use rfl
    intro e'
    simp

theorem wp_error :
  wp jsonStep (pure (.error e, rest)) (fun t r heap' =>
    Owning (MadeNew heap) heap (.error e, rest) t r heap' ∧ ∀ e ∈ t, ¬ AddFails e) heap
  := by
  use owning_error
  rintro e ⟨⟩

/-- A function that made an object. -/
theorem owning_ok {heap' : JsonHeap} {t : List (Event jsonCalls Bool)} {ref : ℕ}
    (hmisused : heap'.misused = heap.misused) (hmade : MadeNew heap ref obj heap'.owned)
    (hadds : ∀ e ∈ t, ¬ AddFails e) :
  Owning (MadeNew heap) heap (.ok obj, rest) t (.ok ref, rest) heap'
  := by
  constructor
  · apply hmisused
  · rintro ref rest ⟨⟩
    use obj, rfl, hmade.1, hmade.2
  · intro _ _ _
    apply hadds
  · rintro e rest ⟨⟩
  · rintro e rest ⟨⟩
  · intro _
    use rfl
    intro e
    simp

/-- A function that could not make an object. -/
theorem owning_failed {result : Except (Option ℤ) JsonObject × Decoder}
    {t : List (Event jsonCalls Bool)} (hadds : ∀ e ∈ t, ¬ AddFails e)
    (hfails : ∃ e ∈ t, e.fate = false) :
  Owning (MadeNew heap) heap result t (.error e, rest) heap
  := by
  constructor
  · rfl
  · rintro ref rest ⟨⟩
  · rintro ref rest ⟨⟩
  · intros
    rfl
  · rintro _ _ _ ⟨e', he', hlost⟩
    exact absurd hlost (hadds e' he')
  · intro hall
    obtain ⟨e', he', hfate⟩ := hfails
    cases hfate.symm.trans (hall e' he')

/-- The end of a function that makes an object, in a call that may fail. -/
theorem wp_returned {make : Json (Option ℕ)} {c : JsonCall}
    (hc : ∀ object key obj, c ≠ .objectAdd object key obj)
    (hmake : ∀ Q, Q [⟨c, true⟩] (some heap.cells.length) (heap.alloc obj) →
      Q [⟨c, false⟩] none heap → wp jsonStep make Q heap) :
  wp jsonStep (make >>= fun ref => pure (returned ref, rest)) (fun t r heap' =>
    Owning (MadeNew heap) heap (.ok obj, rest) t r heap' ∧ ∀ e ∈ t, ¬ AddFails e) heap
  := by
  rw [wp_bind]
  apply hmake
  · use owning_ok rfl ⟨heap.owned_length, heap.owned_alloc obj⟩ (notAddFails_singleton hc true)
    apply notAddFails_singleton hc
  · use owning_failed (notAddFails_singleton hc false) ⟨_, List.mem_singleton_self _, rfl⟩
    apply notAddFails_singleton hc

theorem ownsField_scalar (chk : α → ℤ) (decode : Decoding α) (toInt : α → ℤ) :
  OwnsField (decScalarToJsonRef chk decode toInt) (decScalarToJson jsonC chk decode toInt)
  := by
  intro heap decoder
  rcases hdecode : decode decoder with ⟨⟨ret, value⟩, rest⟩
  rw [decScalarToJsonRef, decScalarToJson, hdecode]
  simp only
  split_ifs with hret hchk
  · apply wp_error
  · apply wp_error
  · apply wp_returned (c := .newInt (toInt value))
    · rintro _ _ _ ⟨⟩
    · intro Q
      apply wp_jsonObjectNewInt

theorem ownsField_addr (inet : Presentation α) (check : α → ℤ) (decode : Decoding α) :
  OwnsField (decodeAddrToJsonRef inet check decode) (decodeAddrToJson jsonC inet check decode)
  := by
  intro heap decoder
  rcases hdecode : decode decoder with ⟨⟨ret, addr⟩, rest⟩
  rw [decodeAddrToJsonRef, decodeAddrToJson, hdecode]
  simp only
  split_ifs with hret hchk
  · apply wp_error
  · apply wp_error
  · rcases inet.inetNtop addr with e | buf
    · apply wp_error
    · apply wp_returned (c := .newString buf)
      · rintro _ _ _ ⟨⟩
      · intro Q
        apply wp_jsonObjectNewString

end Fields

/-! ### Adding fields -/

section Structures

variable {heap : JsonHeap} {object : ℕ} {fields : List (Text × JsonObject)} {key : Text}

/-- What is owned when an object has one more field. -/
def MadeField (heap : JsonHeap) (object : ℕ) (fields : List (Text × JsonObject)) (key : Text)
    (_ : Unit) (obj : JsonObject) (owned : ℕ → Option JsonObject) : Prop :=
  owned = Function.update heap.owned object (some (.object (fields ++ [(key, obj)])))

theorem wp_addField {p : ToJsonRef} {q : ToJson} (hfield : OwnsField p q)
    (hobject : heap.owned object = some (.object fields))
    (hkey : ∀ field ∈ fields, field.1 ≠ key) (decoder : Decoder) :
  wp jsonStep (addField p object key decoder)
    (Owning (MadeField heap object fields key) heap (q decoder)) heap
  := by
  rw [addField]
  apply wp_bind_of _ (hfield heap decoder)
  rintro t ⟨e | ref, rest⟩ heap' ⟨howning, hadds⟩
  · rw [wp_pure, List.append_nil]
    constructor
    · apply howning.misused
    · rintro b rest ⟨⟩
    · rintro b rest ⟨⟩
    · rintro e rest ⟨⟩ _
      apply howning.error _ _ rfl hadds
    · rintro e rest _ ⟨e', he', hfails⟩
      exact absurd hfails (hadds e' he')
    · intro hall
      obtain ⟨hrest, herror⟩ := howning.agrees hall
      use hrest
      intro e'
      rw [← herror e', Except.error.injEq, Except.error.injEq]
  · obtain ⟨obj, hresult, hnone, howned⟩ := howning.ok ref rest rfl
    have hne : object ≠ ref := by
      rintro rfl
      cases hobject.symm.trans hnone
    have hobject' : heap'.owned object = some (.object fields) := by
      rw [howned, Function.update_of_ne hne, hobject]
    have hobj : heap'.owned ref = some obj := by
      rw [howned, Function.update_self]
    rw [hresult] at howning ⊢
    simp only
    rw [wp_bind]
    apply wp_jsonObjectObjectAdd
    intro ok
    cases ok with
    | false =>
        have hadd : heap'.add false object key ref = (-1, heap') := by
          apply JsonHeap.add_false
          · simp [hobject']
          · simp [hobj]
        have hret : (-1 : ℤ) ≠ 0 := by decide
        rw [hadd, if_pos hret, wp_pure]
        constructor
        · apply howning.misused
        · rintro b rest ⟨⟩
        · rintro b rest ⟨⟩
        · intro e rest _ hno
          apply (hno ⟨.objectAdd object key ref, false⟩ (by simp) _).elim
          use rfl, object, key, ref
        · intro e rest _ _
          use ref, obj
        · intro hall
          cases hall ⟨.objectAdd object key ref, false⟩ (by simp)
    | true =>
        obtain ⟨hret, hmisused, howned'⟩ := JsonHeap.add_true hobject' hobj hkey hne
        have hrestored : Function.update heap'.owned ref none = heap.owned := by
          rw [howned, Function.update_idem]
          apply Function.update_eq_self_iff.mpr hnone.symm
        rw [hret, if_neg (not_not.mpr rfl), wp_pure]
        constructor
        · rw [hmisused, howning.misused]
        · rintro b rest ⟨⟩
          use obj, rfl
          rw [MadeField, howned', hrestored]
        · intro b rest _ e he
          rcases List.mem_append.mp he with he | he
          · apply hadds e he
          · rintro ⟨hfate, _⟩
            rw [List.append_nil] at he
            rw [List.mem_singleton.mp he] at hfate
            cases hfate
        · rintro e rest ⟨⟩
        · rintro e rest ⟨⟩
        · intro hall
          use rfl
          intro e
          simp

/-- What the code does after a field could not be added: it releases the object, of which nothing
else is owned. -/
theorem wp_jsonError {Made : Unit → JsonObject → (ℕ → Option JsonObject) → Prop}
    {heap₁ heap₂ : JsonHeap} {parent : JsonObject} {before t : List (Event jsonCalls Bool)}
    {field result : Except (Option ℤ) JsonObject × Decoder} {e : Option ℤ} {rest : Decoder}
    (hnone : heap.owned object = none) (hmisused : heap₁.misused = heap.misused)
    (howned : heap₁.owned = Function.update heap.owned object (some parent))
    (hbefore : ∀ e ∈ before, ¬ AddFails e)
    (howning : Owning Made heap₁ field t (.error e, rest) heap₂)
    (hresult : field = (.error e, rest) → result = (.error e, rest)) :
  wp jsonStep (jsonError object e rest)
    (fun t' => Owning (MadeNew heap) heap result (before ++ (t ++ t'))) heap₂
  := by
  have hreleased : Function.update heap₁.owned object none = heap.owned := by
    rw [howned, Function.update_idem]
    apply Function.update_eq_self_iff.mpr hnone.symm
  have hput (ok : Bool) : ¬ AddFails ⟨.put object, ok⟩ := by
    rintro ⟨_, _, _, _, ⟨⟩⟩
  have hparent : heap₁.owned object = some parent := by
    rw [howned, Function.update_self]
  have hlost (hfails : ∃ e ∈ t, AddFails e) : ∃ ref obj, ref ≠ object ∧ heap.owned ref = none
      ∧ heap₂.owned = Function.update heap₁.owned ref (some obj) := by
    obtain ⟨ref, obj, hnew, howned'⟩ := howning.lost e rest rfl hfails
    have hne : ref ≠ object := by
      rintro rfl
      cases hnew.symm.trans hparent
    rw [howned, Function.update_of_ne hne] at hnew
    use ref, obj, hne, hnew
  have hobject : heap₂.owned object ≠ none := by
    by_cases hfails : ∃ e ∈ t, AddFails e
    · obtain ⟨ref, obj, hne, _, howned'⟩ := hlost hfails
      rw [howned', Function.update_of_ne hne.symm, hparent]
      simp
    · have hno : ∀ e ∈ t, ¬ AddFails e := fun e he h => hfails ⟨e, he, h⟩
      rw [howning.error e rest rfl hno, hparent]
      simp
  obtain ⟨hputs, hunmisused⟩ := JsonHeap.owned_put hobject
  rw [jsonError, wp_bind]
  apply wp_jsonObjectPut
  intro ok
  rw [wp_pure]
  constructor
  · rw [hunmisused, howning.misused, hmisused]
  · rintro b rest ⟨⟩
  · rintro b rest ⟨⟩
  · rintro e rest ⟨⟩ hno
    have hno' : ∀ e ∈ t, ¬ AddFails e := fun e he => hno e (by simp [he])
    rw [hputs, howning.error _ _ rfl hno', hreleased]
  · rintro e rest ⟨⟩ ⟨e', he', hfails⟩
    have he : e' ∈ t := by
      rcases List.mem_append.mp he' with he' | he'
      · exact absurd hfails (hbefore e' he')
      · rcases List.mem_append.mp he' with he' | he'
        · apply he'
        · rw [List.append_nil] at he'
          rw [List.mem_singleton.mp he'] at hfails
          exact absurd hfails (hput ok)
    obtain ⟨ref, obj, hne, hnew, howned'⟩ := hlost ⟨e', he, hfails⟩
    use ref, obj, hnew
    rw [hputs, howned', Function.update_comm hne, hreleased]
  · intro hall
    obtain ⟨hrest, herror⟩ := howning.agrees (fun e he => hall e (by simp [he]))
    have hfield : field = (.error e, rest) := Prod.ext ((herror e).mp rfl) hrest.symm
    rw [hresult hfield]
    use rfl
    intro e'
    rw [Except.error.injEq, Except.error.injEq]

theorem wp_withField {heap₁ : JsonHeap} {p next : ToJsonRef} {q : ToJson}
    {result : Except (Option ℤ) JsonObject × Decoder}
    {before : List (Event jsonCalls Bool)} {decoder : Decoder}
    (hnone : heap.owned object = none) (hmisused : heap₁.misused = heap.misused)
    (howned : heap₁.owned = Function.update heap.owned object (some (.object fields)))
    (hbefore : ∀ e ∈ before, ¬ AddFails e) (hfield : OwnsField p q)
    (hkey : ∀ field ∈ fields, field.1 ≠ key)
    (herror : ∀ e rest, q decoder = (.error e, rest) → result = (.error e, rest))
    (hok : ∀ obj rest heap₂ before', q decoder = (.ok obj, rest) →
      heap₂.misused = heap.misused →
      heap₂.owned = Function.update heap.owned object (some (.object (fields ++ [(key, obj)]))) →
      (∀ e ∈ before', ¬ AddFails e) →
      wp jsonStep (next rest) (fun t => Owning (MadeNew heap) heap result (before' ++ t)) heap₂) :
  wp jsonStep (withField p object key next decoder)
    (fun t => Owning (MadeNew heap) heap result (before ++ t)) heap₁
  := by
  have hobject : heap₁.owned object = some (.object fields) := by
    rw [howned, Function.update_self]
  apply wp_bind_of _ (wp_addField hfield hobject hkey decoder)
  rintro t ⟨e | ⟨⟩, rest⟩ heap₂ howning
  · apply wp_jsonError hnone hmisused howned hbefore howning (herror e rest)
  · obtain ⟨obj, hq, hmade⟩ := howning.ok () rest rfl
    have hadds : ∀ e ∈ before ++ t, ¬ AddFails e := by
      intro e he
      rcases List.mem_append.mp he with he | he
      · apply hbefore e he
      · apply howning.adds () rest rfl e he
    simp only [← List.append_assoc]
    apply hok obj rest heap₂ (before ++ t) hq
    · rw [howning.misused, hmisused]
    · rw [hmade, howned, Function.update_idem]
    · apply hadds

/-- What the decoder of a structure to JSON does when no call of json-c fails. -/
theorem decStructToJson_jsonC {dpack : DpackLib} {q q' : ToJson} (hkey : addrKey ≠ key)
    (decoder : Decoder) :
  decStructToJson dpack jsonC q key q' decoder
    = match dpack.arrayDecodeCountEqu decoder 2 with
      | (ret, decoder) =>
          if ret ≠ 0 then (.error none, decoder)
          else
            match q decoder with
            | (.error e, decoder) => (.error e, decoder)
            | (.ok o, decoder) =>
                match q' decoder with
                | (.error e, decoder) => (.error e, decoder)
                | (.ok o', decoder) => (.ok (.object [(addrKey, o), (key, o')]), decoder)
  := by
  have hfirst (o : JsonObject) : jsonC.objectAdd (.object []) addrKey o
      = (0, .object [(addrKey, o)]) := by
    apply jsonC_allocates.objectAdd
    simp
  have hsecond (o o' : JsonObject) : jsonC.objectAdd (.object [(addrKey, o)]) key o'
      = (0, .object [(addrKey, o), (key, o')]) := by
    apply jsonC_allocates.objectAdd
    simpa using hkey
  rw [decStructToJson, jsonC_allocates.newObject]
  rcases dpack.arrayDecodeCountEqu decoder 2 with ⟨ret, d⟩
  rcases eq_or_ne ret 0 with rfl | hret
  · rcases haddr : q d with ⟨e | o, d'⟩
    · simp [haddr]
    · rcases hextra : q' d' with ⟨e | o', d''⟩
      · simp [haddr, hfirst, hextra]
      · simp [haddr, hfirst, hextra, hsecond]
  · simp [hret]

theorem owns_struct {dpack : DpackLib} {p p' : ToJsonRef} {q q' : ToJson} (hkey : addrKey ≠ key)
    (haddr : OwnsField p q) (hextra : OwnsField p' q') :
  Owns (decStructToJsonRef dpack p key p') (decStructToJson dpack jsonC q key q')
  := by
  intro heap decoder
  have hnew : ∀ ok, ∀ e ∈ [(⟨.newObject, ok⟩ : Event jsonCalls Bool)], ¬ AddFails e := by
    apply notAddFails_singleton
    rintro _ _ _ ⟨⟩
  rw [decStructToJsonRef, decStructToJson_jsonC hkey, wp_bind]
  apply wp_jsonObjectNewObject
  · have hnone := heap.owned_length
    have hmade := heap.owned_alloc (.object [])
    have hunmisused : (heap.alloc (.object [])).misused = heap.misused := rfl
    rcases dpack.arrayDecodeCountEqu decoder 2 with ⟨ret, d⟩
    simp only
    split_ifs with hret
    · have howning : Owning (MadeField heap heap.cells.length [] key)
          (heap.alloc (.object [])) (.error none, d) [] (.error none, d)
          (heap.alloc (.object [])) := owning_error
      exact wp_jsonError hnone hunmisused hmade (hnew true) howning id
    · apply wp_withField hnone hunmisused hmade (hnew true) haddr
      · rintro field ⟨⟩
      · intro e rest hq
        rw [hq]
      · intro o rest heap₂ before hq hmisused howned hbefore
        rw [hq]
        apply wp_withField hnone hmisused howned hbefore hextra
        · intro field hfield
          rw [List.mem_singleton.mp hfield]
          apply hkey
        · intro e rest' hq'
          simp only [hq']
        · intro o' rest' heap₃ before' hq' hmisused' howned' hbefore'
          simp only [hq']
          rw [wp_pure, List.append_nil]
          apply owning_ok hmisused' _ hbefore'
          use hnone, howned'
  · rw [wp_pure, List.append_nil]
    apply owning_failed (hnew false)
    use ⟨.newObject, false⟩, List.mem_singleton_self _

end Structures

/-- The decoders of services and networks to JSON, whichever of their calls fail. -/
theorem structures_own (dpack : DpackLib) (inet : Presentation InAddr)
    (inet6 : Presentation In6Addr) :
  Owns (hedDecInSvcToJsonRef dpack inet) (hedDecInSvcToJson dpack jsonC inet)
    ∧ Owns (hedDecIn6SvcToJsonRef dpack inet6) (hedDecIn6SvcToJson dpack jsonC inet6)
    ∧ Owns (hedDecInNetToJsonRef dpack inet) (hedDecInNetToJson dpack jsonC inet)
    ∧ Owns (hedDecIn6NetToJsonRef dpack inet6) (hedDecIn6NetToJson dpack jsonC inet6)
  := by
  have hport : addrKey ≠ portKey := by decide
  have hprefix : addrKey ≠ prefixKey := by decide
  have haddr := ownsField_addr inet hedCheckInAddr (hedDecodeInAddr dpack)
  have haddr6 := ownsField_addr inet6 hedCheckIn6Addr (hedDecodeIn6Addr dpack)
  refine ⟨?_, ?_, ?_, ?_⟩
  · apply owns_struct hport haddr
    apply ownsField_scalar
  · apply owns_struct hport haddr6
    apply ownsField_scalar
  · apply owns_struct hprefix haddr
    apply ownsField_scalar
  · apply owns_struct hprefix haddr6
    apply ownsField_scalar

end Hed
