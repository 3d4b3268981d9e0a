import Mathlib.Data.List.Basic
import Mathlib.Tactic.Common

/-!
# Extended regular expressions

The part of the regular expressions of POSIX that has anchors, sets of characters, sequences and
stars, and matching a text with or without its ends counting as those of a line.  An expression
whose parts all are in front of each other matches nothing where the anchor it begins with does
not.
-/

/-- A regular expression. -/
inductive Regex where
  | bol
  | eol
  | set (p : Char → Bool)
  | cat (r s : Regex)
  | star (r : Regex)

namespace Regex

/-- `REG_NOTBOL` and `REG_NOTEOL`: whether the beginning of a text is none of a line, and its
end. -/
structure Flags where
  notbol : Bool
  noteol : Bool

/-- A place in a text: whether it is the beginning, and the characters after it. -/
structure Place where
  first : Bool
  rest : List Char

/-- The places that are reached by going on any number of times. -/
def repeats (f : Place → List Place) : ℕ → Place → List Place
  | 0, place => [place]
  | n + 1, place => place :: (f place).flatMap (repeats f n)

variable (flags : Flags)

/-- Where matching an expression can end that begins at some place.  A star goes on as often as
there are characters left: going on without one leads nowhere else. -/
def ends : Regex → Place → List Place
  | bol, place => if place.first = true ∧ flags.notbol = false then [place] else []
  | eol, place => if place.rest = [] ∧ flags.noteol = false then [place] else []
  | set p, place =>
      match place.rest with
      | [] => []
      | c :: rest => if p c = true then [⟨false, rest⟩] else []
  | cat r s, place => (r.ends place).flatMap s.ends
  | star r, place => repeats r.ends place.rest.length place

/-- The places of a text. -/
def places (s : List Char) : List Place :=
  ⟨true, s⟩ :: s.tails.tail.map (fun rest => ⟨false, rest⟩)

/-- The expression matches somewhere in a text. -/
def Matches (r : Regex) (s : List Char) : Prop := ∃ place ∈ places s, r.ends flags place ≠ []

instance (r : Regex) (s : List Char) : Decidable (r.Matches flags s) :=
  inferInstanceAs (Decidable (∃ place ∈ places s, r.ends flags place ≠ []))

variable {flags}

/-- The expression matches where it begins with an anchor only if the beginning is one of a
line. -/
theorem matches_bol_iff {r : Regex} {s : List Char} :
  (cat bol r).Matches flags s ↔ flags.notbol = false ∧ r.ends flags ⟨true, s⟩ ≠ []
  := by
  constructor
  · rintro ⟨place, hplace, hends⟩
    rw [ends, ends] at hends
    split_ifs at hends with h
    · obtain ⟨hfirst, hnotbol⟩ := h
      use hnotbol
      rcases List.mem_cons.mp hplace with rfl | hplace
      · simpa using hends
      · obtain ⟨rest, _, rfl⟩ := List.mem_map.mp hplace
        cases hfirst
    · simp at hends
  · rintro ⟨hnotbol, hends⟩
    use ⟨true, s⟩, List.mem_cons_self
    simpa [ends, hnotbol] using hends

/-- A set matches the character that comes next. -/
theorem ends_set_ne_nil_iff {p : Char → Bool} {r : Regex} {first : Bool} {s : List Char} :
  (cat (set p) r).ends flags ⟨first, s⟩ ≠ []
    ↔ ∃ c rest, s = c :: rest ∧ p c = true ∧ r.ends flags ⟨false, rest⟩ ≠ []
  := by
  cases s with
  | nil => simp [ends]
  | cons c rest =>
      cases hc : p c with
      | true => simp [ends, hc]
      | false => simp [ends, hc]

/-- The stars of a set reach the end of a text if all its characters are in the set. -/
theorem mem_repeats_iff {p : Char → Bool} {first : Bool} {s : List Char} {n : ℕ}
    (hn : s.length ≤ n) :
  (∃ last, ⟨last, []⟩ ∈ repeats ((set p).ends flags) n ⟨first, s⟩) ↔ ∀ c ∈ s, p c = true
  := by
  induction s generalizing n first with
  | nil =>
      cases n with
      | zero => simp [repeats]
      | succ n => simp [repeats, ends]
  | cons c s ih =>
      cases n with
      | zero => cases hn
      | succ n =>
          have hgoes : (∃ last, ⟨last, []⟩ ∈ repeats ((set p).ends flags) n ⟨false, s⟩)
              ↔ ∀ c ∈ s, p c = true := ih (Nat.le_of_succ_le_succ hn)
          rw [List.forall_mem_cons, ← hgoes]
          cases hc : p c with
          | true => simp [repeats, ends, hc]
          | false => simp [repeats, ends, hc]

/-- Matching the rest of a line with characters of a set. -/
theorem ends_star_eol_ne_nil_iff {p : Char → Bool} {first : Bool} {s : List Char} :
  (cat (star (set p)) eol).ends flags ⟨first, s⟩ ≠ []
    ↔ flags.noteol = false ∧ ∀ c ∈ s, p c = true
  := by
  have hstar : (∃ last, ⟨last, []⟩ ∈ repeats ((set p).ends flags) s.length ⟨first, s⟩)
      ↔ ∀ c ∈ s, p c = true := mem_repeats_iff (Nat.le_refl s.length)
  rw [← hstar, ends, ends]
  constructor
  · intro h
    obtain ⟨place, hplace⟩ := List.exists_mem_of_ne_nil _ h
    obtain ⟨⟨last, rest⟩, hrepeats, hend⟩ := List.mem_flatMap.mp hplace
    rw [ends] at hend
    split_ifs at hend with heol
    · obtain ⟨rfl, hnoteol⟩ := heol
      use hnoteol, last
    · cases hend
  · rintro ⟨hnoteol, last, hlast⟩
    apply List.ne_nil_of_mem
    apply List.mem_flatMap.mpr
    use ⟨last, []⟩, hlast
    rw [ends, if_pos ⟨rfl, hnoteol⟩]
    apply List.mem_singleton_self

end Regex
