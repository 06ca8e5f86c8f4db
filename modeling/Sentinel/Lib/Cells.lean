import Mathlib.Data.List.MinMax
import Mathlib.Data.List.Nodup
import Mathlib.Logic.Function.Basic

/-! A list kept in the first cells of an array: removal by shifting the rest
down one cell, and the scan for the first greatest element. The two loops are
written with the number of iterations left as their argument. -/

namespace Cells

variable {α : Type}

/-- The first `n` cells. What lies past them is stale. -/
def contents (a : Nat → α) (n : Nat) : List α := (List.range n).map a

@[simp] theorem contents_length (a : Nat → α) (n : Nat) : (contents a n).length = n := by
  simp [contents]

@[simp] theorem contents_zero (a : Nat → α) : contents a 0 = [] := rfl

theorem contents_add (a : Nat → α) (m n : Nat) :
    contents a (m + n) = contents a m ++ contents (fun k => a (m + k)) n := by
  simp [contents, List.range_add, Function.comp_def]

theorem contents_succ (a : Nat → α) (n : Nat) :
    contents a (n + 1) = contents a n ++ [a n] := by
  simp [contents, List.range_succ]

theorem contents_congr {a b : Nat → α} {n : Nat} (same : ∀ k, k < n → a k = b k) :
    contents a n = contents b n :=
  List.map_congr_left fun k hk => same k (List.mem_range.mp hk)

/-- Writing the first free cell appends. -/
theorem contents_push [DecidableEq α] (a : Nat → α) (n : Nat) (x : α) :
    contents (Function.update a n x) (n + 1) = contents a n ++ [x] := by
  rw [contents_succ, Function.update_self]
  congr 1
  exact contents_congr fun k hk => Function.update_of_ne (by omega) _ _

theorem contents_getElem? {a : Nat → α} {n k : Nat} (hk : k < n) :
    (contents a n)[k]? = some (a k) := by
  simp [contents, hk]

/-- The cell behind the first part of a split. -/
theorem cell_of_split {a : Nat → α} {n : Nat} {A B : List α} {x : α}
    (split : contents a n = A ++ x :: B) : a A.length = x := by
  have inside : A.length < n := by
    have := congrArg List.length split
    simp only [contents_length, List.length_append, List.length_cons] at this
    omega
  have found : (contents a n)[A.length]? = some (a A.length) := contents_getElem? inside
  rw [split, List.getElem?_append_right le_rfl] at found
  simpa using found.symm

theorem cell_mem_of_split {a : Nat → α} {n k : Nat} {A B : List α}
    (split : contents a n = A ++ B) (hk : k < A.length) : a k ∈ A := by
  have inside : k < n := by
    have := congrArg List.length split
    simp only [contents_length, List.length_append] at this
    omega
  have found : (contents a n)[k]? = some (a k) := contents_getElem? inside
  rw [split, List.getElem?_append_left hk] at found
  exact List.mem_of_getElem? found

theorem contents_set [DecidableEq α] (a : Nat → α) (n k : Nat) (x : α) :
    contents (Function.update a k x) n = (contents a n).set k x := by
  apply List.ext_getElem (by simp)
  intro i hi hi'
  rw [List.getElem_set]
  by_cases here : k = i
  · subst here
    simp [contents]
  · simp [contents, Ne.symm here, here]

theorem contents_pred {a : Nat → α} {n : Nat} {A : List α} {x : α}
    (split : contents a n = A ++ [x]) : contents a (n - 1) = A := by
  cases n with
  | zero => simp at split
  | succ n =>
    rw [contents_succ] at split
    exact (List.append_inj' split rfl).1

/-- `n` moves `a[j] = a[j + 1]` from `j = i` on. -/
def shiftDown (a : Nat → α) (i : Nat) : Nat → (Nat → α)
  | 0 => a
  | n + 1 => shiftDown (Function.update a i (a (i + 1))) (i + 1) n

theorem shiftDown_apply (a : Nat → α) (i n k : Nat) :
    shiftDown a i n k = if i ≤ k ∧ k < i + n then a (k + 1) else a k := by
  induction n generalizing a i with
  | zero =>
    rw [if_neg (by omega)]
    rfl
  | succ n ih =>
    rw [shiftDown, ih]
    by_cases here : k = i
    · subst here
      rw [if_neg (by omega), if_pos (by omega), Function.update_self]
    · by_cases moved : i + 1 ≤ k ∧ k < i + 1 + n
      · rw [if_pos moved, if_pos (by omega), Function.update_of_ne (by omega)]
      · rw [if_neg moved, if_neg (by omega), Function.update_of_ne here]

/-- The search for `x` from cell `i`, with `n` cells left: the first match is
closed up by a shift and the count goes down by one. -/
def removeFirst [DecidableEq α] (x : α) (a : Nat → α) (count : Nat) :
    Nat → Nat → (Nat → α) × Nat
  | _, 0 => (a, count)
  | i, n + 1 =>
    if a i = x then (shiftDown a i n, count - 1) else removeFirst x a count (i + 1) n

/-- No cell from the last one on is written. -/
theorem removeFirst_beyond [DecidableEq α] (x : α) (a : Nat → α) (count i n : Nat) {k : Nat}
    (beyond : i + n ≤ k + 1) : (removeFirst x a count i n).1 k = a k := by
  induction n generalizing i with
  | zero => rfl
  | succ n ih =>
    rw [removeFirst]
    split
    · exact (shiftDown_apply a i n k).trans (if_neg (by omega))
    · exact ih (i + 1) (by omega)

theorem contents_shiftDown (a : Nat → α) (i n : Nat) :
    contents (shiftDown a i n) (i + n) =
      contents a i ++ contents (fun k => a (i + 1 + k)) n := by
  rw [contents_add]
  congr 1
  · exact contents_congr fun k hk => by rw [shiftDown_apply, if_neg (by omega)]
  · apply contents_congr
    intro k hk
    rw [shiftDown_apply, if_pos (by omega)]
    congr 1
    omega

theorem contents_removeFirst_from [DecidableEq α] (x : α) (a : Nat → α) (i n : Nat)
    (before : x ∉ contents a i) :
    contents (removeFirst x a (i + n) i n).1 (removeFirst x a (i + n) i n).2 =
      (contents a (i + n)).erase x := by
  induction n generalizing i with
  | zero => simp [removeFirst, List.erase_of_not_mem before]
  | succ n ih =>
    rw [removeFirst]
    split
    · rename_i found
      have whole : contents a (i + (n + 1)) =
          contents a i ++ x :: contents (fun k => a (i + 1 + k)) n := by
        rw [show i + (n + 1) = (i + 1) + n by omega, contents_add, contents_succ, found]
        simp
      rw [whole, List.erase_append_right _ before, List.erase_cons_head,
        ← contents_shiftDown a i n]
      rfl
    · rename_i other
      have past : x ∉ contents a (i + 1) := by
        rw [contents_succ]
        simp only [List.mem_append, List.mem_singleton, not_or]
        exact ⟨before, fun same => other same.symm⟩
      rw [show i + (n + 1) = (i + 1) + n by omega]
      exact ih (i + 1) past

/-- The whole loop takes out the first occurrence and keeps the others in order. -/
theorem contents_removeFirst [DecidableEq α] (x : α) (a : Nat → α) (n : Nat) :
    contents (removeFirst x a n 0 n).1 (removeFirst x a n 0 n).2 = (contents a n).erase x := by
  simpa using contents_removeFirst_from x a 0 n (by simp)

/-- One round of the scan for a greatest key: a later element wins only when it
is strictly greater. -/
def better (key : α → Nat) (best : Option α) (x : α) : Option α :=
  match best with
  | none => some x
  | some b => if key x > key b then some x else some b

/-- The scan finds the first of the greatest elements. -/
theorem foldl_better (key : α → Nat) (l : List α) :
    l.foldl (better key) none = l.argmax key := by
  have same : better key = List.argAux (fun b c => key c < key b) := by
    funext best x
    cases best <;> simp [better, List.argAux]
  rw [same]
  rfl

/-- In a list that rises along `pos`, the scan settles ties by the least `pos`. -/
theorem argmax_nearest {key pos : α → Nat} {l : List α} {b : α}
    (rises : l.Pairwise fun x y => pos x < pos y) (found : l.argmax key = some b) :
    b ∈ l ∧ ∀ x ∈ l, key x ≤ key b ∧ (key x = key b → pos b ≤ pos x) := by
  classical
  have hb : b ∈ l.argmax key := found
  refine ⟨List.argmax_mem hb, fun x hx => ⟨List.le_of_mem_argmax hx hb, fun tie => ?_⟩⟩
  have first : l.idxOf b ≤ l.idxOf x := List.index_of_argmax hb hx tie.ge
  have inside := List.idxOf_lt_length_iff.mpr hx
  rcases first.eq_or_lt with same | before
  · rw [List.idxOf_inj (List.argmax_mem hb) |>.mp same]
  · have := List.pairwise_iff_getElem.mp rises _ _ (before.trans inside) inside before
    simpa only [List.getElem_idxOf] using this.le

end Cells
