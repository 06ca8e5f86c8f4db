import Mathlib.Data.List.Flatten
import Mathlib.Data.UInt
import Mathlib.Logic.Function.Basic

/-! Registers that are written in part. A setting gives some bits of a word their values and
leaves the others alone. A program of settings sets every register as one setting would. Programs
that agree where they meet can be run in any order, and more than once. -/

namespace BitFields

/-- Bit `i` of a word. -/
def bit (x : UInt32) (i : Nat) : Bool := x.toBitVec.getLsbD i

theorem word_ext {x y : UInt32} (same : ∀ i < 32, bit x i = bit y i) : x = y :=
  UInt32.toBitVec_inj.mp (BitVec.eq_of_getLsbD_eq same)

section
variable (x y : UInt32) (i : Nat)

@[simp] theorem bit_and : bit (x &&& y) i = (bit x i && bit y i) := by
  simp [bit]

@[simp] theorem bit_or : bit (x ||| y) i = (bit x i || bit y i) := by
  simp [bit]

@[simp] theorem bit_xor : bit (x ^^^ y) i = (bit x i ^^ bit y i) := by
  simp [bit]

@[simp] theorem bit_not : bit (~~~x) i = (decide (i < 32) && !bit x i) := by
  simp [bit]

@[simp] theorem bit_zero : bit 0 i = false := by
  simp [bit]

variable {i} {s : Nat}

theorem bit_shiftRight (small : s < 32) : bit (x >>> UInt32.ofNat s) i = bit x (s + i) := by
  simp [bit, Nat.mod_eq_of_lt small]

theorem bit_shiftLeft (small : s < 32) (inside : i < 32) :
    bit (x <<< UInt32.ofNat s) i = (decide (s ≤ i) && bit x (i - s)) := by
  by_cases low : s ≤ i
  · have below : i - s < 32 := by omega
    simp [bit, Nat.mod_eq_of_lt small, inside, low, BitVec.getLsbD_eq_getElem below]
  · simp [bit, Nat.mod_eq_of_lt small, inside, low, Nat.lt_of_not_le low]

end

/-! ### Settings -/

/-- The bits of `mask` are set to those of `value`. -/
structure Setting where
  mask : UInt32
  value : UInt32
  within : value &&& ~~~mask = 0

namespace Setting

/-- `x |= m`. -/
def orIn (m : UInt32) : Setting := ⟨m, m, word_ext (by simp)⟩

/-- `x &= ~m`. -/
def andNot (m : UInt32) : Setting := ⟨m, 0, UInt32.zero_and⟩

/-- `x = v`. -/
def assign (v : UInt32) : Setting := ⟨~~~0, v, word_ext (by simp)⟩

def none : Setting := ⟨0, 0, UInt32.zero_and⟩

def apply (s : Setting) (x : UInt32) : UInt32 := (x &&& ~~~s.mask) ||| s.value

/-- The bits have their values. -/
def Met (s : Setting) (x : UInt32) : Prop := x &&& s.mask = s.value

/-- Where both give a value, it is the same. -/
def Agree (s t : Setting) : Prop := s.mask &&& t.mask &&& (s.value ^^^ t.value) = 0

instance (s : Setting) (x : UInt32) : Decidable (s.Met x) := inferInstanceAs (Decidable (_ = _))
instance (s t : Setting) : Decidable (s.Agree t) := inferInstanceAs (Decidable (_ = _))

variable {s t u : Setting} {x m : UInt32} {i : Nat}

/-! Bit by bit -/

theorem bit_within (s : Setting) (i : Nat) (set : bit s.value i = true) :
    bit s.mask i = true := by
  have small : i < 32 := by
    by_contra large
    have none : bit s.value i = false := BitVec.getLsbD_of_ge _ _ (by omega)
    cases none.symm.trans set
  have inside := congrArg (bit · i) s.within
  simpa [small, set] using inside

theorem bit_apply (s : Setting) (x : UInt32) (small : i < 32) :
    bit (s.apply x) i = if bit s.mask i then bit s.value i else bit x i := by
  have within := s.bit_within i
  simp only [apply, bit_or, bit_and, bit_not, small]
  grind

theorem met_iff : s.Met x ↔ ∀ i < 32, bit s.mask i = true → bit x i = bit s.value i := by
  constructor
  · intro met i _ inside
    have same := congrArg (bit · i) met
    simpa [inside] using same
  · intro met
    apply word_ext
    intro i small
    have same := met i small
    have within := s.bit_within i
    rw [bit_and]
    grind

theorem agree_iff : s.Agree t ↔ ∀ i < 32, bit s.mask i = true → bit t.mask i = true →
    bit s.value i = bit t.value i := by
  constructor
  · intro agree i _ first second
    have same := congrArg (bit · i) agree
    simpa [first, second] using same
  · intro agree
    apply word_ext
    intro i small
    have same := agree i small
    simp only [bit_and, bit_xor, bit_zero]
    grind

/-! The rules -/

theorem met_apply (s : Setting) (x : UInt32) : s.Met (s.apply x) := by
  apply met_iff.mpr
  intro i small inside
  rw [bit_apply s x small, if_pos inside]

/-- A setting that is met changes nothing. -/
theorem apply_of_met (met : s.Met x) : s.apply x = x := by
  apply word_ext
  intro i small
  rw [bit_apply s x small]
  have same := met_iff.mp met i small
  grind

theorem Agree.symm (agree : s.Agree t) : t.Agree s := by
  rw [agree_iff] at agree ⊢
  intro i small first second
  exact (agree i small second first).symm

theorem Agree.refl (s : Setting) : s.Agree s := agree_iff.mpr fun _ _ _ _ => rfl

theorem none_agree (s : Setting) : none.Agree s := by
  apply agree_iff.mpr
  intro i _ inside
  simp [none] at inside

/-- A setting stays met exactly under those that agree with it. -/
theorem met_apply_iff (met : s.Met x) : s.Met (t.apply x) ↔ s.Agree t := by
  rw [met_iff] at met ⊢
  rw [agree_iff]
  constructor
  · intro after i small first second
    rw [← after i small first, bit_apply t x small, if_pos second]
  · intro agree i small first
    rw [bit_apply t x small]
    split
    · rename_i second
      exact (agree i small first second).symm
    · exact met i small first

theorem Agree.comm (agree : s.Agree t) (x : UInt32) : s.apply (t.apply x) = t.apply (s.apply x) := by
  apply word_ext
  intro i small
  have same := agree_iff.mp agree i small
  simp only [bit_apply _ _ small]
  grind

/-- The setting `t`, after `s`. -/
def andThen (s t : Setting) : Setting where
  mask := s.mask ||| t.mask
  value := t.apply s.value
  within := by
    apply word_ext
    intro i small
    have first := s.bit_within i
    have second := t.bit_within i
    simp only [bit_and, bit_or, bit_not, bit_zero, bit_apply _ _ small]
    grind

theorem andThen_apply (s t : Setting) (x : UInt32) :
    (s.andThen t).apply x = t.apply (s.apply x) := by
  apply word_ext
  intro i small
  have mask : bit (s.andThen t).mask i = (bit s.mask i || bit t.mask i) := bit_or _ _ _
  have value : bit (s.andThen t).value i = bit (t.apply s.value) i := rfl
  simp only [bit_apply _ _ small, mask, value]
  grind

theorem Agree.andThen (first : s.Agree t) (second : s.Agree u) : s.Agree (t.andThen u) := by
  rw [agree_iff] at *
  intro i small inside meets
  have one := first i small inside
  have two := second i small inside
  have mask : bit (t.andThen u).mask i = (bit t.mask i || bit u.mask i) := bit_or _ _ _
  have value : bit (t.andThen u).value i = bit (u.apply t.value) i := rfl
  rw [mask] at meets
  rw [value, bit_apply _ _ small]
  grind

@[simp] theorem andThen_none (s : Setting) : s.andThen .none = s := by
  cases s
  simp [andThen, none, apply]

/-- Bits that a setting does not give a value keep theirs. -/
theorem apply_outside (outside : m &&& s.mask = 0) : s.apply x &&& m = x &&& m := by
  apply word_ext
  intro i small
  have apart := congrArg (bit · i) outside
  simp only [bit_and, bit_zero] at apart
  rw [bit_and, bit_and, bit_apply _ _ small]
  grind

end Setting

/-! ### Fields -/

/-- `n` positions up. -/
def up (x : UInt32) (n : Nat) : UInt32 := x <<< UInt32.ofNat n

/-- The bits of `k` from position `n` on. -/
def field (x k : UInt32) (n : Nat) : UInt32 := (x >>> UInt32.ofNat n) &&& k

/-- The field has a place in the word. -/
def Fits (k : UInt32) (n : Nat) : Prop := n < 32 ∧ ∀ i < 32, bit k i = true → n + i < 32

/-- The setting gives the field the value `v`. -/
structure Setting.Sets (s : Setting) (k : UInt32) (n : Nat) (v : UInt32) : Prop where
  fits : Fits k n
  within : v &&& ~~~k = 0
  mask : s.mask = up k n
  value : s.value = up v n

instance (k : UInt32) (n : Nat) : Decidable (Fits k n) := inferInstanceAs (Decidable (_ ∧ _))

section
variable {s : Setting} {x k k' v : UInt32} {n n' : Nat}

theorem Setting.Sets.orIn (fits : Fits k n) : (Setting.orIn (up k n)).Sets k n k :=
  ⟨fits, word_ext (by simp), rfl, rfl⟩

theorem Setting.Sets.andNot (fits : Fits k n) : (Setting.andNot (up k n)).Sets k n 0 :=
  ⟨fits, UInt32.zero_and, rfl, UInt32.zero_shiftLeft.symm⟩

/-- A field is cleared and then written. -/
theorem Setting.Sets.write (fits : Fits k n) (within : v &&& ~~~k = 0) :
    ((Setting.andNot (up k n)).andThen (Setting.orIn (up v n))).Sets k n v := by
  have part : ∀ i < 32, bit (up v n) i = true → bit (up k n) i = true := by
    intro i inside set
    have here := congrArg (bit · (i - n)) within
    rw [up, bit_shiftLeft v fits.1 inside] at set
    rw [up, bit_shiftLeft k fits.1 inside]
    have small : i - n < 32 := by omega
    simp only [bit_and, bit_not, bit_zero, small] at here
    grind
  refine ⟨fits, within, ?_, ?_⟩
  · apply word_ext
    intro i inside
    have within := part i inside
    have mask : bit ((Setting.andNot (up k n)).andThen (Setting.orIn (up v n))).mask i =
        (bit (up k n) i || bit (up v n) i) := bit_or _ _ _
    rw [mask]
    grind
  · apply word_ext
    intro i inside
    have value : bit ((Setting.andNot (up k n)).andThen (Setting.orIn (up v n))).value i =
        bit ((Setting.orIn (up v n)).apply 0) i := rfl
    rw [value, bit_apply _ _ inside]
    simp [Setting.orIn]

theorem Setting.Sets.own (sets : s.Sets k n v) (x : UInt32) : field (s.apply x) k n = v := by
  apply word_ext
  intro i inside
  have within := congrArg (bit · i) sets.within
  simp only [bit_and, bit_not, bit_zero, inside] at within
  rw [field, bit_and, bit_shiftRight _ sets.fits.1]
  by_cases there : bit k i = true
  · have small := sets.fits.2 i inside there
    rw [bit_apply _ _ small, sets.mask, sets.value, up, up, bit_shiftLeft _ sets.fits.1 small,
      bit_shiftLeft _ sets.fits.1 small]
    simp [there]
  · grind

/-- Fields that lie apart are left alone. -/
theorem Setting.Sets.other (sets : s.Sets k n v) (apart : up k' n' &&& up k n = 0)
    (fits : Fits k' n') (x : UInt32) : field (s.apply x) k' n' = field x k' n' := by
  apply word_ext
  intro i inside
  rw [field, field, bit_and, bit_and, bit_shiftRight _ fits.1, bit_shiftRight _ fits.1]
  by_cases there : bit k' i = true
  · have small := fits.2 i inside there
    have outside := congrArg (bit · (n' + i)) apart
    simp only [bit_and, bit_zero] at outside
    rw [← sets.mask, up, bit_shiftLeft _ fits.1 small, Nat.add_sub_cancel_left, there] at outside
    have free : bit s.mask (n' + i) = false := by simpa using outside
    rw [bit_apply _ _ small, free]
    rfl
  · simp [there]

end

/-! ### Programs -/

/-- A write to a part of a register. -/
structure Write (ρ : Type) where
  register : ρ
  setting : Setting

section
variable {ρ : Type} [DecidableEq ρ]

def Write.run (w : Write ρ) (m : ρ → UInt32) : ρ → UInt32 :=
  Function.update m w.register (w.setting.apply (m w.register))

def run (p : List (Write ρ)) (m : ρ → UInt32) : ρ → UInt32 := p.foldl (fun m w => w.run m) m

/-- What a program does to one register. -/
def net : List (Write ρ) → ρ → Setting
  | [], _ => .none
  | w :: p, r => if w.register = r then w.setting.andThen (net p r) else net p r

/-- Everything that the program sets is as it sets it. -/
def Met (p : List (Write ρ)) (m : ρ → UInt32) : Prop := ∀ r, (net p r).Met (m r)

def Agree (p q : List (Write ρ)) : Prop := ∀ r, (net p r).Agree (net q r)

variable {p q : List (Write ρ)} {m : ρ → UInt32} {r : ρ}

theorem run_append (p q : List (Write ρ)) (m : ρ → UInt32) : run (p ++ q) m = run q (run p m) :=
  List.foldl_append

/-- A program sets every register as one setting does. -/
theorem run_net (p : List (Write ρ)) (m : ρ → UInt32) (r : ρ) :
    run p m r = (net p r).apply (m r) := by
  induction p generalizing m with
  | nil => simp [run, net, Setting.none, Setting.apply]
  | cons w p ih =>
    have first : run (w :: p) m = run p (w.run m) := rfl
    rw [first, ih, net]
    by_cases here : w.register = r
    · subst here
      rw [if_pos rfl, Setting.andThen_apply, Write.run, Function.update_self]
    · rw [if_neg here, Write.run, Function.update_of_ne (Ne.symm here)]

theorem met_run (p : List (Write ρ)) (m : ρ → UInt32) : Met p (run p m) := by
  intro r
  rw [run_net]
  exact Setting.met_apply _ _

theorem run_of_met (met : Met p m) : run p m = m := by
  funext r
  rw [run_net]
  exact Setting.apply_of_met (met r)

theorem met_run_iff (met : Met p m) : Met p (run q m) ↔ Agree p q := by
  constructor
  · intro after r
    have kept := after r
    rw [run_net] at kept
    exact (Setting.met_apply_iff (met r)).mp kept
  · intro agree r
    rw [run_net]
    exact (Setting.met_apply_iff (met r)).mpr (agree r)

theorem Agree.symm (agree : Agree p q) : Agree q p := fun r => (agree r).symm

instance : Std.Symm (Agree : List (Write ρ) → List (Write ρ) → Prop) := ⟨fun _ _ => Agree.symm⟩

theorem Agree.refl (p : List (Write ρ)) : Agree p p := fun r => .refl (net p r)

theorem Agree.comm (agree : Agree p q) (m : ρ → UInt32) : run p (run q m) = run q (run p m) := by
  funext r
  simp only [run_net]
  exact (agree r).comm (m r)

/-- A register that a program does not write to is left as it is. -/
theorem net_elsewhere (elsewhere : ∀ w ∈ p, w.register ≠ r) : net p r = .none := by
  induction p with
  | nil => rfl
  | cons w p ih =>
    rw [net, if_neg (elsewhere w List.mem_cons_self)]
    exact ih fun w there => elsewhere w (List.mem_cons_of_mem _ there)

/-- A write to another register does not count. -/
theorem net_skip {w : Write ρ} (other : w.register ≠ r) : net (p ++ w :: q) r = net (p ++ q) r := by
  induction p with
  | nil => rw [List.nil_append, List.nil_append, net, if_neg other]
  | cons first p ih => simp only [List.cons_append, net, ih]

theorem agree_of_registers (agree : ∀ w ∈ p, (net p w.register).Agree (net q w.register)) :
    Agree p q := by
  intro r
  by_cases there : ∃ w ∈ p, w.register = r
  · obtain ⟨w, there, rfl⟩ := there
    exact agree w there
  · rw [net_elsewhere fun w inside same => there ⟨w, inside, same⟩]
    exact Setting.none_agree _

instance (p q : List (Write ρ)) : Decidable (Agree p q) :=
  decidable_of_iff (∀ w ∈ p, (net p w.register).Agree (net q w.register))
    ⟨agree_of_registers, fun agree w _ => agree w.register⟩

/-- Registers that the second program does not write to are set by the first. -/
theorem net_append_left (elsewhere : ∀ w ∈ q, w.register ≠ r) : net (p ++ q) r = net p r := by
  induction p with
  | nil => exact net_elsewhere elsewhere
  | cons w p ih => simp only [List.cons_append, net, ih]

theorem Agree.append {q' : List (Write ρ)} (first : Agree p q) (second : Agree p q') :
    Agree p (q ++ q') := by
  have met := met_run p fun _ => 0
  have between := (met_run_iff met).mpr first
  have after := (met_run_iff between).mpr second
  rw [← run_append] at after
  exact (met_run_iff met).mp after

/-- A field that a program sets, where the program is met. -/
theorem Met.field (met : Met p m) {k : UInt32} {n : Nat} (fits : Fits k n)
    (covers : up k n &&& ~~~(net p r).mask = 0) : field (m r) k n = field (net p r).value k n := by
  apply word_ext
  intro i inside
  rw [BitFields.field, BitFields.field, bit_and, bit_and, bit_shiftRight _ fits.1,
    bit_shiftRight _ fits.1]
  by_cases there : bit k i = true
  · have small := fits.2 i inside there
    have covered := congrArg (bit · (n + i)) covers
    rw [up, bit_and, bit_shiftLeft _ fits.1 small, Nat.add_sub_cancel_left, there] at covered
    have set : bit (net p r).mask (n + i) = true := by simpa [small] using covered
    rw [Setting.met_iff.mp (met r) _ small set]
  · simp [there]

/-! ### Programs one after the other -/

variable {ι : Type} {prog : ι → List (Write ρ)} {l l' : List ι}

theorem Met.keep (met : Met p m) (agree : ∀ j ∈ l, Agree p (prog j)) :
    Met p (run (l.flatMap prog) m) := by
  induction l generalizing m with
  | nil => exact met
  | cons i l ih =>
    rw [List.flatMap_cons, run_append]
    apply ih
    · exact (met_run_iff met).mpr (agree i List.mem_cons_self)
    · exact fun j there => agree j (List.mem_cons_of_mem _ there)

/-- **What is set stays set.** When the programs agree with each other, each is met at the end. -/
theorem met_of_mem (agree : ∀ i ∈ l, ∀ j ∈ l, Agree (prog i) (prog j)) {i : ι} (there : i ∈ l) :
    Met (prog i) (run (l.flatMap prog) m) := by
  induction l generalizing m with
  | nil => cases there
  | cons first l ih =>
    rw [List.flatMap_cons, run_append]
    rcases List.mem_cons.mp there with rfl | there
    · apply (met_run _ m).keep
      intro j later
      exact agree i List.mem_cons_self j (List.mem_cons_of_mem _ later)
    · apply ih _ there
      intro i before j later
      exact agree i (List.mem_cons_of_mem _ before) j (List.mem_cons_of_mem _ later)

theorem run_of_met_all (met : ∀ i ∈ l, Met (prog i) m) : run (l.flatMap prog) m = m := by
  induction l with
  | nil => rfl
  | cons i l ih =>
    rw [List.flatMap_cons, run_append, run_of_met (met i List.mem_cons_self)]
    exact ih fun j there => met j (List.mem_cons_of_mem _ there)

theorem Agree.flatMap (agree : ∀ j ∈ l, Agree p (prog j)) : Agree p (l.flatMap prog) := by
  have met := met_run p fun _ => 0
  exact (met_run_iff met).mp (met.keep agree)

/-- **The order does not matter.** Programs that agree with each other leave the same registers
behind in any order, and however often they are run. -/
theorem run_of_members (agree : ∀ i ∈ l, ∀ j ∈ l, Agree (prog i) (prog j))
    (same : ∀ i, i ∈ l ↔ i ∈ l') : run (l.flatMap prog) m = run (l'.flatMap prog) m := by
  have agree' : ∀ i ∈ l', ∀ j ∈ l', Agree (prog i) (prog j) := by
    intro i first j second
    exact agree i ((same i).mpr first) j ((same j).mpr second)
  have across : Agree (l.flatMap prog) (l'.flatMap prog) := by
    apply Agree.flatMap
    intro j second
    apply Agree.symm
    apply Agree.flatMap
    intro i first
    exact agree j ((same j).mpr second) i first
  calc run (l.flatMap prog) m
      _ = run (l'.flatMap prog) (run (l.flatMap prog) m) :=
        (run_of_met_all fun j there => met_of_mem agree ((same j).mpr there)).symm
      _ = run (l.flatMap prog) (run (l'.flatMap prog) m) := (across.comm m).symm
      _ = run (l'.flatMap prog) m :=
        run_of_met_all fun i there => met_of_mem agree' ((same i).mp there)

end
end BitFields
