import Mathlib.Data.Nat.ModEq
import Mathlib.Logic.Function.Basic

/-! A list kept in an array that is written and read round and round. Neither index
says how many entries there are: `head` and `tail` are equal when the array is full
and when it is empty. -/

namespace Ring

variable {α : Type}

/-- The entries of `l`, oldest first, stand in the cells from `tail` up to `head`. -/
structure Holds (a : Nat → α) (capacity tail head : Nat) (l : List α) : Prop where
  fits : l.length ≤ capacity
  ends : head % capacity = (tail + l.length) % capacity
  cells : ∀ i (inside : i < l.length), a ((tail + i) % capacity) = l[i]

variable {a : Nat → α} {capacity tail head : Nat} {l : List α}

theorem Holds.empty (a : Nat → α) (capacity tail : Nat) : Holds a capacity tail tail [] :=
  ⟨Nat.zero_le _, rfl, fun _ inside => absurd inside (Nat.not_lt_zero _)⟩

/-- The indices matter up to whole rounds. -/
theorem Holds.congr {tail' head' : Nat} (holds : Holds a capacity tail head l)
    (tails : tail' % capacity = tail % capacity) (heads : head' % capacity = head % capacity) :
    Holds a capacity tail' head' l := by
  have shifted : ∀ i, (tail' + i) % capacity = (tail + i) % capacity := fun i =>
    Nat.ModEq.add_right i tails
  exact ⟨holds.fits, by rw [heads, holds.ends, shifted], fun i inside => by
    rw [shifted]
    exact holds.cells i inside⟩

/-- Two cells less than a round apart are different. -/
theorem apart {i j : Nat} (less : i < j) (near : j < i + capacity) :
    (tail + i) % capacity ≠ (tail + j) % capacity := by
  intro same
  have := (Nat.modEq_iff_dvd' (by omega)).mp same
  have := Nat.le_of_dvd (by omega) this
  omega

/-- A write behind the last entry of a ring that is not full. -/
theorem Holds.push (holds : Holds a capacity tail head l) (room : l.length < capacity) (x : α) :
    Holds (Function.update a (head % capacity) x) capacity tail (head + 1) (l ++ [x]) := by
  refine ⟨by simpa using Nat.succ_le_of_lt room, ?_, fun i inside => ?_⟩
  · rw [List.length_append, List.length_singleton, ← Nat.add_assoc]
    exact Nat.ModEq.add_right 1 holds.ends
  · rw [List.length_append, List.length_singleton] at inside
    rw [holds.ends]
    by_cases new : i = l.length
    · subst new
      simp
    · have old : i < l.length := by omega
      rw [Function.update_of_ne (apart old (by omega)), holds.cells i old,
        List.getElem_append_left old]

/-- The oldest entry is given up. -/
theorem Holds.pop {x : α} (holds : Holds a capacity tail head (x :: l)) :
    a (tail % capacity) = x ∧ Holds a capacity (tail + 1) head l := by
  refine ⟨holds.cells 0 (Nat.zero_lt_succ _), ?_, ?_, fun i inside => ?_⟩
  · exact Nat.le_of_succ_le holds.fits
  · rw [holds.ends, List.length_cons]
    congr 1
    omega
  · have := holds.cells (i + 1) (Nat.succ_lt_succ inside)
    rw [show tail + 1 + i = tail + (i + 1) by omega, this]
    rfl

/-- A write that both indices move past. It gives up the oldest entry, which is the one
written over exactly when the ring is full. -/
theorem Holds.rotate (holds : Holds a capacity tail head l) (x : α) :
    Holds (Function.update a (head % capacity) x) capacity (tail + 1) (head + 1)
      (l ++ [x]).tail := by
  cases l with
  | nil =>
    apply (Holds.empty _ capacity (tail + 1)).congr rfl
    exact Nat.ModEq.add_right 1 holds.ends
  | cons y l =>
    have rest := holds.pop.2
    exact rest.push (Nat.lt_of_succ_le holds.fits) x

theorem Holds.full (holds : Holds a capacity tail head l) :
    head % capacity = tail % capacity ↔ l.length = 0 ∨ l.length = capacity := by
  have fits := holds.fits
  rw [holds.ends]
  constructor
  · intro same
    by_contra other
    exact apart (show 0 < l.length by omega) (by omega) same.symm
  · rintro (empty | full)
    · rw [empty]
      rfl
    · rw [full, Nat.add_mod_right]

end Ring
