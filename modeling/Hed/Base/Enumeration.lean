import Mathlib.Data.Char
import Mathlib.Data.List.Lex
import Mathlib.Data.List.Pairwise
import Hed.Base.Message
import Hed.Prelude.Bisect

/-!
# Enumerations and their names

The enumerations of `base.yml` and `inet.yml`.  For each of them `troer` generates a table of
names and values, sorted by names, and functions that convert between them.  A value is looked up
from the first entry on, and a name by bisection.
-/

namespace Hed

/-! ### Comparing strings -/

/-- `strcmp`, of strings without their terminating zeros. -/
def strcmp : Text → Text → ℤ
  | [], [] => 0
  | [], _ :: _ => -1
  | _ :: _, [] => 1
  | c :: s, d :: t => if c < d then -1 else if d < c then 1 else strcmp s t

theorem strcmp_neg_iff {s t : Text} :
  strcmp s t < 0 ↔ s < t
  := by
  induction s, t using strcmp.induct with
  | case1 => simp [strcmp]
  | case2 => simp [strcmp]
  | case3 => simp [strcmp]
  | case4 c s d t hlt => simp [strcmp, List.cons_lt_cons_iff, hlt]
  | case5 c s d t hlt hgt => simp [strcmp, List.cons_lt_cons_iff, hlt, hgt, hgt.ne']
  | case6 c s d t hlt hgt ih =>
      obtain rfl := le_antisymm (not_lt.mp hgt) (not_lt.mp hlt)
      simp [strcmp, ih]

/-- The comparison the other way has the other sign. -/
theorem strcmp_swap (s t : Text) :
  strcmp t s = -strcmp s t
  := by
  induction s, t using strcmp.induct with
  | case1 => rfl
  | case2 => rfl
  | case3 => rfl
  | case4 c s d t hlt => simp [strcmp, hlt, hlt.not_gt]
  | case5 c s d t hlt hgt => simp [strcmp, hlt, hgt]
  | case6 c s d t hlt hgt ih => simp [strcmp, hlt, hgt, ih]

theorem strcmp_pos_iff {s t : Text} :
  0 < strcmp s t ↔ t < s
  := by
  rw [← strcmp_neg_iff, strcmp_swap s t, neg_lt_zero]

theorem strcmp_nonneg_iff {s t : Text} :
  0 ≤ strcmp s t ↔ t ≤ s
  := by
  rw [← not_lt, strcmp_neg_iff, not_lt]

theorem strcmp_eq_zero_iff {s t : Text} :
  strcmp s t = 0 ↔ s = t
  := by
  constructor
  · intro h
    apply le_antisymm
    · apply strcmp_nonneg_iff.mp
      rw [strcmp_swap, h, neg_zero]
    · apply strcmp_nonneg_iff.mp h.ge
  · rintro rfl
    have h := strcmp_swap s s
    omega

/-! ### Tables -/

/-- An entry of a table: a name and a value. -/
structure BisectEntry where
  str : Text
  value : Int32
  deriving DecidableEq

/-- A table of an enumeration.  It is sorted by the names, which are strings of C, and has no value
twice. -/
structure BisectArray where
  entries : List BisectEntry
  sorted : entries.Pairwise (fun a b => a.str < b.str)
  distinct : entries.Pairwise (fun a b => a.value ≠ b.value)
  isCString : ∀ entry ∈ entries, cString entry.str = entry.str

/-- The functions of an enumeration compare a key with the name of an entry. -/
def bisectCmp (k : Text) (entry : BisectEntry) : ℤ := strcmp k entry.str

section Family

variable (bisectSearch : (BisectEntry → ℤ) → List BisectEntry → Option BisectEntry)
  (array : BisectArray)

/-- The family `hed_*_to_str` of the enumerations. -/
def enumToStr (value : Int32) : Option Text :=
  (array.entries.find? (fun entry => entry.value = value)).map BisectEntry.str

/-- The family `hed_*_from_str` of the enumerations: the value that it stores, or the code. -/
def enumFromStr (str : Text) : Except ℤ Int32 :=
  match bisectSearch (bisectCmp str) array.entries with
  | none => .error (-EINVAL.code)
  | some entry => .ok entry.value

/-- The family `hed_*_dump_str` of the enumerations: what is in the buffer afterwards, and how many
names were added.  None when the buffer is too small. -/
def enumDumpStr (nb : ℕ) (buf : List (Option Text)) : Option (ℕ × List (Option Text)) :=
  if buf.length < nb then none
  else some (nb, array.entries.map (fun entry => some entry.str) ++ buf.drop array.entries.length)

/-- The family `hed_chk_*` of the enumerations. -/
def chkEnum (value : Int32) : ℤ := if enumToStr array value = none then -EINVAL.code else 0

end Family

/-! ### The enumerations -/

def HED_B9600 : Int32 := 9600
def HED_B19200 : Int32 := 19200
def HED_B38400 : Int32 := 38400
def HED_B57600 : Int32 := 57600
def HED_B115200 : Int32 := 115200

def HED_DISABLE : Int32 := 0
def HED_ENABLE : Int32 := 1

def HED_ON : Int32 := 1
def HED_OFF : Int32 := 0

def HED_DOWN : Int32 := 0
def HED_UP : Int32 := 1
def HED_DETECTED : Int32 := 2

/-- `AF_INET` and `AF_INET6`, as Linux numbers them. -/
def HED_IPV4 : Int32 := 2
def HED_IPV6 : Int32 := 10

def HED_BAUDS_NB : ℕ := 5
def HED_TOGGLE_NB : ℕ := 2
def HED_POWER_NB : ℕ := 2
def HED_LINK_STATE_NB : ℕ := 3
def HED_IP_TYPE_NB : ℕ := 2

def hedBaudsBisectArray : BisectArray where
  entries := [⟨['1', '1', '5', '2', '0', '0'], HED_B115200⟩,
    ⟨['1', '9', '2', '0', '0'], HED_B19200⟩,
    ⟨['3', '8', '4', '0', '0'], HED_B38400⟩,
    ⟨['5', '7', '6', '0', '0'], HED_B57600⟩,
    ⟨['9', '6', '0', '0'], HED_B9600⟩]
  sorted := by decide
  distinct := by decide
  isCString := by decide

def hedToggleBisectArray : BisectArray where
  entries := [⟨['d', 'i', 's', 'a', 'b', 'l', 'e'], HED_DISABLE⟩,
    ⟨['e', 'n', 'a', 'b', 'l', 'e'], HED_ENABLE⟩]
  sorted := by decide
  distinct := by decide
  isCString := by decide

def hedPowerBisectArray : BisectArray where
  entries := [⟨['o', 'f', 'f'], HED_OFF⟩, ⟨['o', 'n'], HED_ON⟩]
  sorted := by decide
  distinct := by decide
  isCString := by decide

def hedLinkStateBisectArray : BisectArray where
  entries := [⟨['d', 'e', 't', 'e', 'c', 't', 'e', 'd'], HED_DETECTED⟩,
    ⟨['d', 'o', 'w', 'n'], HED_DOWN⟩,
    ⟨['u', 'p'], HED_UP⟩]
  sorted := by decide
  distinct := by decide
  isCString := by decide

def hedIpTypeBisectArray : BisectArray where
  entries := [⟨['I', 'P', 'v', '4'], HED_IPV4⟩, ⟨['I', 'P', 'v', '6'], HED_IPV6⟩]
  sorted := by decide
  distinct := by decide
  isCString := by decide

section Members

variable (bisectSearch : (BisectEntry → ℤ) → List BisectEntry → Option BisectEntry)

def hedBaudsToStr : Int32 → Option Text := enumToStr hedBaudsBisectArray

def hedBaudsFromStr : Text → Except ℤ Int32 := enumFromStr bisectSearch hedBaudsBisectArray

def hedBaudsDumpStr : List (Option Text) → Option (ℕ × List (Option Text)) :=
  enumDumpStr hedBaudsBisectArray HED_BAUDS_NB

def hedChkBauds : Int32 → ℤ := chkEnum hedBaudsBisectArray

def hedToggleToStr : Int32 → Option Text := enumToStr hedToggleBisectArray

def hedToggleFromStr : Text → Except ℤ Int32 := enumFromStr bisectSearch hedToggleBisectArray

def hedToggleDumpStr : List (Option Text) → Option (ℕ × List (Option Text)) :=
  enumDumpStr hedToggleBisectArray HED_TOGGLE_NB

def hedChkToggle : Int32 → ℤ := chkEnum hedToggleBisectArray

def hedPowerToStr : Int32 → Option Text := enumToStr hedPowerBisectArray

def hedPowerFromStr : Text → Except ℤ Int32 := enumFromStr bisectSearch hedPowerBisectArray

def hedPowerDumpStr : List (Option Text) → Option (ℕ × List (Option Text)) :=
  enumDumpStr hedPowerBisectArray HED_POWER_NB

def hedChkPower : Int32 → ℤ := chkEnum hedPowerBisectArray

def hedLinkStateToStr : Int32 → Option Text := enumToStr hedLinkStateBisectArray

def hedLinkStateFromStr : Text → Except ℤ Int32 :=
  enumFromStr bisectSearch hedLinkStateBisectArray

def hedLinkStateDumpStr : List (Option Text) → Option (ℕ × List (Option Text)) :=
  enumDumpStr hedLinkStateBisectArray HED_LINK_STATE_NB

def hedChkLinkState : Int32 → ℤ := chkEnum hedLinkStateBisectArray

def hedIpTypeToStr : Int32 → Option Text := enumToStr hedIpTypeBisectArray

def hedIpTypeFromStr : Text → Except ℤ Int32 := enumFromStr bisectSearch hedIpTypeBisectArray

def hedIpTypeDumpStr : List (Option Text) → Option (ℕ × List (Option Text)) :=
  enumDumpStr hedIpTypeBisectArray HED_IP_TYPE_NB

def hedChkIpType : Int32 → ℤ := chkEnum hedIpTypeBisectArray

end Members

/-! ### Names and values -/

section Names

variable {bisectSearch : (BisectEntry → ℤ) → List BisectEntry → Option BisectEntry}
  {array : BisectArray}

/-- Entries of one value are the same. -/
theorem BisectArray.eq_of_value (array : BisectArray) {a b : BisectEntry} (ha : a ∈ array.entries)
    (hb : b ∈ array.entries) (h : a.value = b.value) :
  a = b
  := by
  by_contra hne
  have hsymm : Std.Symm (fun a b : BisectEntry => a.value ≠ b.value) := ⟨fun _ _ h => h.symm⟩
  apply array.distinct.forall ha hb hne h

/-- The name of a value is that of its entry. -/
theorem enumToStr_eq_some_iff {value : Int32} {str : Text} :
  enumToStr array value = some str ↔ ⟨str, value⟩ ∈ array.entries
  := by
  rw [enumToStr, Option.map_eq_some_iff]
  constructor
  · rintro ⟨⟨str', value'⟩, hfind, rfl⟩
    obtain rfl : value' = value := by simpa using List.find?_some hfind
    apply List.mem_of_find?_eq_some hfind
  · intro hmem
    have hsome : (array.entries.find? (fun entry => entry.value = value)).isSome = true := by
      apply List.find?_isSome.mpr
      use ⟨str, value⟩, hmem
      simp
    obtain ⟨entry, hfind⟩ := Option.isSome_iff_exists.mp hsome
    use entry, hfind
    have hvalue : entry.value = value := by simpa using List.find?_some hfind
    rw [array.eq_of_value (List.mem_of_find?_eq_some hfind) hmem hvalue]

/-- The keys of a table are compared in descending order. -/
theorem descends_bisectCmp (array : BisectArray) (str : Text) :
  Bisect.Descends (bisectCmp str) array.entries
  := by
  apply Bisect.descends_of_sorted (k := str) array.sorted
  · intro entry
    apply strcmp_nonneg_iff
  · intro entry
    apply strcmp_pos_iff

/-- The value of a name is that of its entry. -/
theorem enumFromStr_eq_ok_iff (hsearch : Bisect.Searches bisectSearch) {value : Int32}
    {str : Text} :
  enumFromStr bisectSearch array str = .ok value ↔ ⟨str, value⟩ ∈ array.entries
  := by
  have hfinds := hsearch _ _ (descends_bisectCmp array str)
  rw [enumFromStr]
  constructor
  · intro h
    split at h
    · cases h
    · rename_i entry hfound
      cases h
      obtain ⟨hmem, hcmp⟩ := (hfinds entry).mp hfound
      rw [strcmp_eq_zero_iff.mp hcmp]
      apply hmem
  · intro hmem
    have hfound := (hfinds ⟨str, value⟩).mpr ⟨hmem, strcmp_eq_zero_iff.mpr rfl⟩
    rw [hfound]

/-- What is no name is refused. -/
theorem enumFromStr_cases (str : Text) :
  (∃ value, enumFromStr bisectSearch array str = .ok value)
    ∨ enumFromStr bisectSearch array str = .error (-EINVAL.code)
  := by
  rw [enumFromStr]
  split
  · right
    rfl
  · rename_i entry _
    left
    use entry.value

theorem chkEnum_eq_zero_iff {value : Int32} :
  chkEnum array value = 0 ↔ ∃ str, enumToStr array value = some str
  := by
  rw [chkEnum, ite_eq_right_iff, Option.ne_none_iff_exists'.symm]
  constructor
  · intro h hnone
    exact absurd (h hnone) (by decide)
  · intro hsome hnone
    contradiction

/-- The functions on names of an enumeration agree with each other: a value has a name exactly if
the name has the value, what is no name is refused with `EINVAL`, and the names that are dumped are
those that values have, each of them once. -/
structure Named (toStr : Int32 → Option Text) (fromStr : Text → Except ℤ Int32)
    (dumpStr : List (Option Text) → Option (ℕ × List (Option Text))) (nb : ℕ) : Prop where
  inverse : ∀ value str, toStr value = some str ↔ fromStr str = .ok value
  refuses : ∀ str, (∀ value, toStr value ≠ some str) → fromStr str = .error (-EINVAL.code)
  dumps : ∀ buf, nb ≤ buf.length → ∃ strs : List Text, strs.length = nb ∧ strs.Nodup
    ∧ (∀ str, str ∈ strs ↔ ∃ value, toStr value = some str)
    ∧ dumpStr buf = some (nb, strs.map some ++ buf.drop nb)

theorem named (hsearch : Bisect.Searches bisectSearch) {nb : ℕ}
    (hnb : array.entries.length = nb) :
  Named (enumToStr array) (enumFromStr bisectSearch array) (enumDumpStr array nb) nb
  := by
  constructor
  · intro value str
    rw [enumToStr_eq_some_iff, enumFromStr_eq_ok_iff hsearch]
  · intro str h
    rcases enumFromStr_cases str with ⟨value, hok⟩ | herror
    · exact absurd (enumToStr_eq_some_iff.mpr ((enumFromStr_eq_ok_iff hsearch).mp hok)) (h value)
    · apply herror
  · intro buf hbuf
    use array.entries.map BisectEntry.str
    constructor
    · rw [List.length_map, hnb]
    constructor
    · apply List.pairwise_map.mpr
      apply array.sorted.imp
      intro a b hlt
      apply hlt.ne
    constructor
    · intro str
      rw [List.mem_map]
      constructor
      · rintro ⟨entry, hmem, rfl⟩
        use entry.value
        apply enumToStr_eq_some_iff.mpr hmem
      · rintro ⟨value, hvalue⟩
        use ⟨str, value⟩, enumToStr_eq_some_iff.mp hvalue
    · rw [enumDumpStr, if_neg (not_lt.mpr hbuf), hnb, List.map_map]
      rfl

end Names

/-- The names of the enumerations can be looked up both ways: the tables are sorted in the order in
which bisection compares. -/
theorem enumerations_named
    (bisectSearch : (BisectEntry → ℤ) → List BisectEntry → Option BisectEntry)
    (hsearch : Bisect.Searches bisectSearch) :
  Named hedBaudsToStr (hedBaudsFromStr bisectSearch) hedBaudsDumpStr HED_BAUDS_NB
    ∧ Named hedToggleToStr (hedToggleFromStr bisectSearch) hedToggleDumpStr HED_TOGGLE_NB
    ∧ Named hedPowerToStr (hedPowerFromStr bisectSearch) hedPowerDumpStr HED_POWER_NB
    ∧ Named hedLinkStateToStr (hedLinkStateFromStr bisectSearch) hedLinkStateDumpStr
      HED_LINK_STATE_NB
    ∧ Named hedIpTypeToStr (hedIpTypeFromStr bisectSearch) hedIpTypeDumpStr HED_IP_TYPE_NB
  := by
  refine ⟨?_, ?_, ?_, ?_, ?_⟩
  · apply named hsearch rfl
  · apply named hsearch rfl
  · apply named hsearch rfl
  · apply named hsearch rfl
  · apply named hsearch rfl

theorem enumerations_named_bisect :
  Named hedBaudsToStr (hedBaudsFromStr Bisect.bisect) hedBaudsDumpStr HED_BAUDS_NB
  := (enumerations_named Bisect.bisect Bisect.searches_bisect).1

end Hed
