import Mathlib.Algebra.Ring.Nat
import Mathlib.Data.List.Induction
import Mathlib.Logic.Function.Basic

/-! Words in a byte-addressed memory: arrays of words, stores and loads of several
consecutive words, and stacks that grow downwards. -/

namespace Words

/-- The address of word `i` of an array. -/
def slot (a : UInt32) (i : Nat) : UInt32 := a + 4 * UInt32.ofNat i

/-- Consecutive words, the first one at `a`. -/
def store (m : UInt32 → UInt32) (a : UInt32) : List UInt32 → UInt32 → UInt32
  | [] => m
  | w :: ws => store (Function.update m a w) (a + 4) ws

def load (m : UInt32 → UInt32) (a : UInt32) (n : Nat) : List UInt32 :=
  (List.range n).map fun i => m (slot a i)

/-- A word pushed on a full descending stack, given by its memory and pointer. -/
def push (s : (UInt32 → UInt32) × UInt32) (w : UInt32) : (UInt32 → UInt32) × UInt32 :=
  (Function.update s.1 (s.2 - 4) w, s.2 - 4)

variable {m m' : UInt32 → UInt32} {a b : UInt32} {i j n : Nat} {ws vs : List UInt32}

@[simp] theorem slot_zero (a : UInt32) : slot a 0 = a := by
  simp [slot]

theorem toNat_slot (inside : a.toNat + 4 * i < 2 ^ 32) : (slot a i).toNat = a.toNat + 4 * i := by
  simp only [slot, UInt32.toNat_add, UInt32.toNat_mul, UInt32.toNat_ofNat', UInt32.reduceToNat]
  omega

theorem slot_slot (a : UInt32) (i j : Nat) : slot (slot a i) j = slot a (i + j) := by
  simp only [slot, UInt32.ofNat_add]
  grind

theorem slot_succ (a : UInt32) (i : Nat) : slot (a + 4) i = slot a (i + 1) := by
  simp only [slot, UInt32.ofNat_add]
  grind

theorem slot_back (a : UInt32) (h : n ≤ i) : slot a i - 4 * UInt32.ofNat n = slot a (i - n) := by
  obtain ⟨k, rfl⟩ := Nat.exists_eq_add_of_le h
  simp only [slot, UInt32.ofNat_add, Nat.add_sub_cancel_left]
  grind

/-- Slots of one array that fits the address space are distinct. -/
theorem slot_inj (hi : i < 2 ^ 30) (hj : j < 2 ^ 30) (same : slot a i = slot a j) : i = j := by
  have scaled : 4 * UInt32.ofNat i = 4 * UInt32.ofNat j := by
    simp only [slot] at same
    grind
  have same := congrArg UInt32.toNat scaled
  simp only [UInt32.toNat_mul, UInt32.toNat_ofNat, UInt32.toNat_ofNat'] at same
  omega

theorem store_apart (apart : ∀ i < ws.length, b ≠ slot a i) : store m a ws b = m b := by
  induction ws generalizing m a with
  | nil => rfl
  | cons w ws ih =>
    have first : b ≠ a := by simpa using apart 0 (by simp)
    rw [store, ih, Function.update_of_ne first]
    intro i hi
    rw [slot_succ]
    exact apart (i + 1) (by simpa using hi)

theorem load_congr (same : ∀ i < n, m (slot a i) = m' (slot a i)) : load m a n = load m' a n :=
  List.map_congr_left fun i hi => same i (List.mem_range.mp hi)

theorem load_add (m : UInt32 → UInt32) (a : UInt32) (n k : Nat) :
    load m a (n + k) = load m a n ++ load m (slot a n) k := by
  simp only [load, List.range_add, List.map_append, List.map_map, Function.comp_def, slot_slot]

theorem load_getElem? (m : UInt32 → UInt32) (a : UInt32) (h : i < n) :
    (load m a n)[i]? = some (m (slot a i)) := by
  simp [load, h]

theorem load_succ (m : UInt32 → UInt32) (a : UInt32) (n : Nat) :
    load m a (n + 1) = m a :: load m (a + 4) n := by
  simp only [load, List.range_succ_eq_map, List.map_cons, List.map_map, Function.comp_def,
    slot_zero, slot_succ]

theorem load_store (m : UInt32 → UInt32) (a : UInt32) (ws : List UInt32)
    (fits : ws.length ≤ 2 ^ 30) : load (store m a ws) a ws.length = ws := by
  induction ws generalizing m a with
  | nil => rfl
  | cons w ws ih =>
    rw [List.length_cons] at fits
    have first : store (Function.update m a w) (a + 4) ws a = w := by
      rw [store_apart, Function.update_self]
      intro i hi same
      rw [slot_succ] at same
      have : 0 = i + 1 := slot_inj (by omega) (by omega) ((slot_zero a).trans same)
      omega
    rw [List.length_cons, load_succ, store, first, ih _ _ (by omega)]

/-- A load sees nothing of a store elsewhere. -/
theorem load_store_apart (apart : ∀ i < n, ∀ j < ws.length, slot a i ≠ slot b j) :
    load (store m b ws) a n = load m a n :=
  load_congr fun i hi => store_apart fun j hj => apart i hi j hj

theorem store_update (apart : ∀ i < ws.length, b ≠ slot a i) (w : UInt32) :
    store (Function.update m b w) a ws = Function.update (store m a ws) b w := by
  induction ws generalizing m a with
  | nil => rfl
  | cons v ws ih =>
    have first : b ≠ a := by simpa using apart 0 (by simp)
    rw [store, store, Function.update_comm first, ih]
    intro i hi
    rw [slot_succ]
    exact apart (i + 1) (by simpa using hi)

/-- Pushing word after word leaves them in memory with the last one lowest. -/
theorem foldl_push (m : UInt32 → UInt32) (a : UInt32) (ws : List UInt32)
    (fits : ws.length ≤ 2 ^ 30) :
    ws.foldl push (m, a) =
      (store m (a - 4 * UInt32.ofNat ws.length) ws.reverse, a - 4 * UInt32.ofNat ws.length) := by
  induction ws using List.reverseRecOn with
  | nil => simp [store]
  | append_singleton ws w ih =>
    rw [List.length_append, List.length_singleton] at fits
    rw [List.foldl_append, ih (by omega)]
    have lower : a - 4 * UInt32.ofNat (ws.length + 1) + 4 = a - 4 * UInt32.ofNat ws.length := by
      simp only [UInt32.ofNat_add]
      grind
    have pointer : a - 4 * UInt32.ofNat ws.length - 4 = a - 4 * UInt32.ofNat (ws.length + 1) := by
      simp only [UInt32.ofNat_add]
      grind
    simp only [List.foldl_cons, List.foldl_nil, push, List.reverse_append, List.reverse_singleton,
      List.singleton_append, List.length_append, List.length_singleton, store, lower, pointer]
    rw [store_update]
    intro i hi same
    rw [List.length_reverse] at hi
    rw [← lower, slot_succ] at same
    have : 0 = i + 1 := slot_inj (by omega) (by omega) ((slot_zero _).trans same)
    omega

/-- Two lists stored one after the other are both there. -/
theorem load_store_append (m : UInt32 → UInt32) (a : UInt32) (vs ws : List UInt32)
    (fits : (vs ++ ws).length ≤ 2 ^ 30) :
    load (store m a (vs ++ ws)) a vs.length = vs ∧
      load (store m a (vs ++ ws)) (slot a vs.length) ws.length = ws := by
  have both := load_store m a (vs ++ ws) fits
  rw [List.length_append, load_add] at both
  exact List.append_inj both (by simp [load])

/-- An address rounded down to a multiple of 8. -/
theorem toNat_alignDown (a : UInt32) : (a &&& ~~~7).toNat = a.toNat / 8 * 8 := by
  have mask : ∀ i < 32, Nat.testBit 4294967288 i = decide (3 ≤ i) := by decide
  have word := a.toNat_lt
  apply Nat.eq_of_testBit_eq
  intro i
  rw [show a.toNat / 8 * 8 = a.toNat >>> 3 <<< 3 by
    rw [Nat.shiftLeft_eq, Nat.shiftRight_eq_div_pow], Nat.testBit_shiftLeft]
  rw [UInt32.toNat_and, Nat.testBit_and, show (~~~7 : UInt32).toNat = 4294967288 from rfl]
  by_cases inside : i < 32
  · rw [mask i inside, Bool.and_comm]
    by_cases low : 3 ≤ i
    · simp [low, Nat.testBit_shiftRight]
    · simp [low]
  · have above : a.toNat.testBit i = false :=
      Nat.testBit_lt_two_pow (Nat.lt_of_lt_of_le word (Nat.pow_le_pow_right (by decide) (by omega)))
    simp [above, Nat.testBit_shiftRight, show 3 + (i - 3) = i by omega]

end Words
