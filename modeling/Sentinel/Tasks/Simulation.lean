import Sentinel.Tasks.Firmware

/-! Long runs that can be computed. The machine is left to itself: a pending pass is taken, the task
that runs goes on, and when only the idle task is left the ticks up to the next timeout pass at
once. -/

namespace Sentinel

open Runs (Run)

/-- `n` ticks for a task, none of which is its timeout. -/
def Tcb.rest (n : Nat) (x : Tcb) : Tcb :=
  if x.sleepTime = 0 then x else { x with sleepTime := x.sleepTime - UInt32.ofNat n }

/-- More than `n` ticks go by before its timeout, if there is one. -/
def Tcb.Rests (n : Nat) (x : Tcb) : Prop := x.sleepTime = 0 ∨ n < x.sleepTime.toNat

instance (n : Nat) (x : Tcb) : Decidable (x.Rests n) := inferInstanceAs (Decidable (_ ∨ _))

namespace Tcb

variable {x : Tcb} {n : Nat}

theorem rest_zero : x.rest 0 = x := by
  simp [rest]

theorem Rests.timer (rests : x.Rests (n + 1)) (timer : x.sleepTime ≠ 0) :
    (x.sleepTime - 1).toNat = x.sleepTime.toNat - 1 ∧ n + 1 < x.sleepTime.toNat := by
  have far := rests.resolve_left timer
  have one : (1 : UInt32) ≤ x.sleepTime := UInt32.le_iff_toNat_le.mpr (by simp; omega)
  exact ⟨UInt32.toNat_sub_of_le _ _ one, far⟩

theorem Rests.more (rests : x.Rests (n + 1)) (timer : x.sleepTime ≠ 0) : x.sleepTime - 1 ≠ 0 := by
  obtain ⟨down, far⟩ := rests.timer timer
  intro none
  rw [none, UInt32.toNat_zero] at down
  omega

theorem Rests.next (rests : x.Rests (n + 1)) : (x.rest 1).Rests n := by
  by_cases zero : x.sleepTime = 0
  · exact .inl (by simp [rest, zero])
  · obtain ⟨down, far⟩ := rests.timer zero
    refine .inr ?_
    simp only [rest, zero, if_false]
    change n < (x.sleepTime - 1).toNat
    omega

theorem rest_succ (rests : x.Rests (n + 1)) : (x.rest 1).rest n = x.rest (n + 1) := by
  by_cases zero : x.sleepTime = 0
  · simp [rest, zero]
  · have more := rests.more zero
    have less : x.sleepTime - 1 - UInt32.ofNat n = x.sleepTime - UInt32.ofNat (n + 1) := by
      rw [UInt32.ofNat_add]
      grind
    simp [rest, zero, more, less]

end Tcb

namespace Kernel

/-- `n` ticks in which no task has its timeout. -/
def rest (n : Nat) (k : Kernel) : Kernel :=
  { k with
    osTicks := k.osTicks + UInt32.ofNat n
    pendSv := k.pendSv || 0 < n
    osTasks := fun t => if k.Live t then (k.osTasks t).rest n else k.osTasks t }

def Rests (n : Nat) (k : Kernel) : Prop := ∀ t, k.Live t → (k.osTasks t).Rests n

instance (n : Nat) (k : Kernel) : Decidable (k.Rests n) := inferInstanceAs (Decidable (∀ _, _ → _))

variable {k : Kernel} {n : Nat}

@[simp] theorem rest_live {t : TaskId} : (k.rest n).Live t ↔ k.Live t := Iff.rfl

@[simp] theorem rest_osTasks (t : TaskId) : (k.rest n).osTasks t =
    if k.Live t then (k.osTasks t).rest n else k.osTasks t := rfl

theorem rest_zero : k.rest 0 = k := by
  simp [rest, Tcb.rest_zero]

theorem tickTask_early {t : TaskId} (early : (k.osTasks t).Rests 1) :
    k.tickTask t =
      { k with osTasks := Function.update k.osTasks t ((k.osTasks t).rest 1) } := by
  by_cases zero : (k.osTasks t).sleepTime = 0
  · simp [tickTask, Tcb.rest, zero]
  · simp [tickTask, Tcb.rest, zero, early.more zero, setTcb]

theorem foldl_tickTask_early {l : List TaskId} (distinct : l.Nodup)
    (early : ∀ t ∈ l, (k.osTasks t).Rests 1) :
    l.foldl tickTask k =
      { k with osTasks := fun t => if t ∈ l then (k.osTasks t).rest 1 else k.osTasks t } := by
  induction l generalizing k with
  | nil => simp
  | cons t l ih =>
    obtain ⟨fresh, distinct⟩ := List.nodup_cons.mp distinct
    obtain ⟨now, later⟩ := List.forall_mem_cons.mp early
    rw [List.foldl_cons, tickTask_early now, ih distinct]
    · refine congrArg (fun tasks => { k with osTasks := tasks }) (funext fun u => ?_)
      by_cases self : u = t
      · subst self
        simp [fresh]
      · simp [self]
    · intro u there
      have other : u ≠ t := fun same => fresh (same ▸ there)
      simpa [other] using later u there

theorem sysTickHandler_early (rests : k.Rests 1) : k.sysTickHandler = k.rest 1 := by
  have swept := foldl_tickTask_early (k := { k with osTicks := k.osTicks + 1 }) k.slots_nodup
    fun t there => rests t (mem_slots.mp there)
  refine (congrArg osYield swept).trans ?_
  simp [osYield, rest, mem_slots]

theorem Rests.one (rests : k.Rests (n + 1)) : k.Rests 1 := by
  intro t live
  exact (rests t live).imp_right fun far => by omega

theorem Rests.next (rests : k.Rests (n + 1)) : (k.rest 1).Rests n := by
  intro t live
  rw [rest_live] at live
  rw [rest_osTasks, if_pos live]
  exact (rests t live).next

theorem rest_succ (rests : k.Rests (n + 1)) : (k.rest 1).rest n = k.rest (n + 1) := by
  have ticks : k.osTicks + 1 + UInt32.ofNat n = k.osTicks + UInt32.ofNat (n + 1) := by
    rw [UInt32.ofNat_add, UInt32.add_assoc, UInt32.add_comm 1]
    rfl
  have tasks : ((k.rest 1).rest n).osTasks = (k.rest (n + 1)).osTasks := by
    funext t
    simp only [rest_osTasks, rest_live]
    split
    · rename_i live
      exact Tcb.rest_succ (rests t live)
    · rfl
  change ({ (k.rest 1).rest n with osTasks := ((k.rest 1).rest n).osTasks } : Kernel) = _
  rw [tasks]
  simp [rest, ticks]

/-- How many ticks go by before the next timeout. -/
def quiet (k : Kernel) : Nat :=
  ((k.slots.map fun t => (k.osTasks t).sleepTime.toNat).filter (0 < ·)).min?.getD 0 - 1

end Kernel

namespace Firmware

variable {δ ρ ι : Type} (fw : Firmware δ ρ ι) (idle : TaskId)

/-- Some moves lead there. -/
def Reaches (s t : Execution δ ρ) : Prop := ∃ past, Run (· = s) (fw.Step idle) past t

/-- What comes next without an interrupt, until the idle task runs. -/
def proceed (s : Execution δ ρ) : Option (Execution δ ρ) :=
  if s.system.kernel.pendSv then fw.act idle s (.kernel .pass)
  else
    match s.system.kernel.currentTcb with
    | none => none
    | some t =>
      if t = idle then none
      else
        match s.system.inside t with
        | some c => fw.act idle s (.kernel (.resume t c (c.result (s.system.kernel.osTasks t))))
        | none =>
          match fw.code (s.place t) with
          | .access _ => fw.act idle s (.access t)
          | .call c _ =>
            (c.exec s.system.kernel).bind fun out => fw.act idle s (.kernel (.call t c out.1))

def settle : Nat → Execution δ ρ → Execution δ ρ
  | 0, s => s
  | fuel + 1, s =>
    match fw.proceed idle s with
    | some t => settle fuel t
    | none => s

/-- The ticks up to the next timeout, and the one that brings it. -/
def expire (s : Execution δ ρ) : Execution δ ρ :=
  if s.system.kernel.Rests s.system.kernel.quiet then
    { s with system.kernel := (s.system.kernel.rest s.system.kernel.quiet).sysTickHandler }
  else s

/-- The tasks do what they can, and the next timeout comes, so many times. -/
def rounds : Nat → Nat → Execution δ ρ → Execution δ ρ
  | 0, _, s => s
  | n + 1, fuel, s => rounds n fuel (expire (fw.settle idle fuel s))

/-- An interrupt. -/
def strike (i : ι) (s : Execution δ ρ) : Execution δ ρ :=
  ⟨post (fw.interrupt i s.shared).2 s.system, (fw.interrupt i s.shared).1, s.place⟩

variable {fw idle} {s t u : Execution δ ρ}

theorem Reaches.refl : fw.Reaches idle s s := ⟨[], .start rfl⟩

theorem Reaches.trans (first : fw.Reaches idle s t) (second : fw.Reaches idle t u) :
    fw.Reaches idle s u := by
  obtain ⟨early, first⟩ := first
  obtain ⟨late, second⟩ := second
  exact ⟨late ++ early, first.append second⟩

theorem Reaches.step {a : Move ι} (step : fw.Step idle s a t) : fw.Reaches idle s t :=
  ⟨_, .next (.start rfl) step⟩

theorem Reaches.run {start : Execution δ ρ → Prop} (reaches : fw.Reaches idle s t)
    (starts : start s) : ∃ past, Run start (fw.Step idle) past t := by
  obtain ⟨past, run⟩ := reaches
  exact ⟨past, run.weaken (fun _ same => same ▸ starts) fun _ _ _ step => step⟩

theorem proceed_reaches (done : fw.proceed idle s = some t) : fw.Reaches idle s t := by
  unfold proceed at done
  split at done
  · exact .step (act_step done)
  · split at done
    · cases done
    · split at done
      · cases done
      · split at done
        · exact .step (act_step done)
        · split at done
          · exact .step (act_step done)
          · obtain ⟨_, _, done⟩ := Option.bind_eq_some_iff.mp done
            exact .step (act_step done)

theorem settle_reaches (fuel : Nat) (s : Execution δ ρ) : fw.Reaches idle s (fw.settle idle fuel s) := by
  induction fuel generalizing s with
  | zero => exact .refl
  | succ fuel ih =>
    rw [settle]
    split
    · rename_i t next
      exact (proceed_reaches next).trans (ih t)
    · exact .refl

theorem rest_reaches {n : Nat} (rests : s.system.kernel.Rests n) :
    fw.Reaches idle s { s with system.kernel := s.system.kernel.rest n } := by
  induction n generalizing s with
  | zero =>
    rw [Kernel.rest_zero]
    exact .refl
  | succ n ih =>
    have one : s.system.kernel.sysTickHandler = s.system.kernel.rest 1 :=
      Kernel.sysTickHandler_early rests.one
    have tick : fw.Reaches idle s { s with system.kernel := s.system.kernel.rest 1 } :=
      one ▸ .step (.kernel .tick rfl)
    have later := ih (s := { s with system.kernel := s.system.kernel.rest 1 }) rests.next
    rw [Kernel.rest_succ rests] at later
    exact tick.trans later

theorem expire_reaches (s : Execution δ ρ) : fw.Reaches idle s (expire s) := by
  unfold expire
  split
  · rename_i rests
    exact (rest_reaches rests).trans (.step (.kernel .tick rfl))
  · exact .refl

theorem rounds_reaches (n fuel : Nat) (s : Execution δ ρ) :
    fw.Reaches idle s (fw.rounds idle n fuel s) := by
  induction n generalizing s with
  | zero => exact .refl
  | succ n ih => exact ((settle_reaches fuel s).trans (expire_reaches _)).trans (ih _)

theorem strike_reaches (i : ι) (s : Execution δ ρ) : fw.Reaches idle s (fw.strike i s) :=
  .step (.interrupt i)

end Firmware
end Sentinel
