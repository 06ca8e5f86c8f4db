import Mathlib.Data.Nat.ModEq
import Mathlib.Tactic.Ring

/-! Distances on a ring of `n` slots, counted forwards. -/

namespace Cyclic

/-- How far `x` is ahead of `start` on the ring. -/
def offset (start n x : Nat) : Nat := (x + n - start % n) % n

theorem offset_lt (start : Nat) {n : Nat} (x : Nat) (pos : 0 < n) : offset start n x < n :=
  Nat.mod_lt _ pos

theorem add_offset (start : Nat) {n x : Nat} (hx : x < n) : (start + offset start n x) % n = x := by
  have le : start % n ≤ x + n := (Nat.mod_lt start (by omega)).le.trans (by omega)
  calc (start + (x + n - start % n) % n) % n
      = (start % n + (x + n - start % n)) % n := by simp [Nat.add_mod]
    _ = (x + n) % n := by rw [Nat.add_sub_cancel' le]
    _ = x := by simp [Nat.mod_eq_of_lt hx]

/-- The offset is the only distance below `n` that leads to its slot. -/
theorem offset_unique {start n i : Nat} (hi : i < n) : offset start n ((start + i) % n) = i := by
  have pos : 0 < n := by omega
  have reach := add_offset start (Nat.mod_lt (start + i) pos)
  have same : offset start n ((start + i) % n) ≡ i [MOD n] := Nat.ModEq.add_left_cancel' start reach
  exact Nat.ModEq.eq_of_lt_of_lt same (offset_lt start _ pos) hi

theorem offset_inj {start n x y : Nat} (hx : x < n) (hy : y < n)
    (same : offset start n x = offset start n y) : x = y := by
  rw [← add_offset start hx, same, add_offset start hy]

/-- Seen from one slot past `x`, whatever lay beyond `x` is nearer by the way to `x`. -/
theorem offset_past {start n x y : Nat} (hx : x < n) (hy : y < n)
    (beyond : offset start n x < offset start n y) :
    offset (x + 1) n y + offset start n x + 1 = offset start n y := by
  have bound := offset_lt start y (by omega : 0 < n)
  obtain ⟨d, hd⟩ := Nat.exists_eq_add_of_lt beyond
  have reach : (x + 1 + d) % n = y := by
    calc (x + 1 + d) % n
        = ((start + offset start n x) % n + (1 + d)) % n := by rw [add_offset start hx, Nat.add_assoc]
      _ = (start + offset start n y) % n := by
        rw [Nat.mod_add_mod, hd]
        congr 1
        omega
      _ = y := add_offset start hy
  have step : offset (x + 1) n y = d := by
    rw [← reach]
    exact offset_unique (by omega)
  omega

/-- Whatever lay before `x`, and `x` itself, is now a round away less the way to `x`. -/
theorem offset_behind {start n x y : Nat} (hx : x < n) (hy : y < n)
    (behind : offset start n y ≤ offset start n x) :
    offset (x + 1) n y + offset start n x + 1 = offset start n y + n := by
  have bound := offset_lt start x (by omega : 0 < n)
  obtain ⟨d, hd⟩ := Nat.exists_eq_add_of_le behind
  have reach : (x + 1 + (n - 1 - d)) % n = y := by
    calc (x + 1 + (n - 1 - d)) % n
        = ((start + offset start n x) % n + (n - d)) % n := by
          rw [add_offset start hx]
          congr 1
          omega
      _ = (start + offset start n y + n) % n := by
        rw [Nat.mod_add_mod, hd]
        congr 1
        omega
      _ = y := by rw [Nat.add_mod_right, add_offset start hy]
  have step : offset (x + 1) n y = n - 1 - d := by
    rw [← reach]
    exact offset_unique (by omega)
  omega

section
variable {α : Type} {slot : α → Nat} {start n : Nat} {x : α} {l : List α}

/-- Who stands in a list in the order of the ring has the same order seen from one slot past
the first of them, who is now the last. -/
theorem next_round (inside : ∀ y ∈ x :: l, slot y < n)
    (rises : (x :: l).Pairwise fun y z => offset start n (slot y) < offset start n (slot z)) :
    (l ++ [x]).Pairwise fun y z =>
      offset (slot x + 1) n (slot y) < offset (slot x + 1) n (slot z) := by
  obtain ⟨nearest, rest⟩ := List.pairwise_cons.mp rises
  have here := inside x List.mem_cons_self
  have ahead : ∀ y ∈ l, offset (slot x + 1) n (slot y) + offset start n (slot x) + 1 =
      offset start n (slot y) := by
    intro y there
    exact offset_past here (inside y (List.mem_cons_of_mem _ there)) (nearest y there)
  apply List.pairwise_append.mpr
  refine ⟨?_, List.pairwise_singleton _ x, ?_⟩
  · apply rest.imp_of_mem
    intro y z hy hz less
    have first := ahead y hy
    have second := ahead z hz
    omega
  · intro y hy z hz
    obtain rfl := List.mem_singleton.mp hz
    have first := ahead y hy
    have last : offset (slot z + 1) n (slot z) + offset start n (slot z) + 1 =
        offset start n (slot z) + n := offset_behind here here le_rfl
    have bound := offset_lt start (slot y) (Nat.zero_lt_of_lt here)
    omega

end
end Cyclic
