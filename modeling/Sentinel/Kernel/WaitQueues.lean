import Sentinel.Kernel.Boot

/-! The wait queues and the task control blocks describe the same thing, in every
state that any order of calls, ticks, posts and passes leads to. -/

namespace Sentinel

open Runs (Run)

/-- The length of the array `wait_queue` of an object. -/
def Waitable.room : Waitable → Nat
  | .mutex _ => maxWaitingTasks
  | .semaphore _ => maxTasks

structure WaitQueuesSound (k : Kernel) : Prop where
  distinct : ∀ o, (k.waiters o).Nodup
  parked : ∀ o, ∀ t ∈ k.waiters o, k.Live t ∧ (k.osTasks t).state = .blocked ∧
    (k.osTasks t).waitQueue = some o ∧ (k.osTasks t).waitCount = some o
  once : ∀ t o, k.Live t → (k.osTasks t).waitQueue = some o →
    (k.waiters o).count t = 1 ∧ ∀ p, p ≠ o → t ∉ k.waiters p
  asleep : ∀ t, k.Live t → 0 < (k.osTasks t).sleepTime → (k.osTasks t).state = .blocked
  blocked : ∀ t, k.Live t → ((k.osTasks t).state = .blocked ↔
    0 < (k.osTasks t).sleepTime ∨ (k.osTasks t).waitQueue ≠ none)
  fits : ∀ o, (k.queues o).waitCount ≤ o.room

namespace Board.Sound

variable {idle : TaskId} {b : Board}

/-- The owner of a mutex is not among its waiters, so one array cell fewer than
there are tasks is enough. -/
theorem waiters_mutex (sound : b.Sound idle) (m : Nat) :
    (b.waiters (.mutex m)).length ≤ maxWaitingTasks := by
  cases held : (b.mutexes m).owner with
  | none => simp [sound.ownerless m held]
  | some owner =>
    have nodup : (owner :: b.waiters (.mutex m)).Nodup :=
      List.nodup_cons.mpr ⟨(sound.owner m owner held).2, sound.distinct _⟩
    have := nodup.length_le_card
    simp only [List.length_cons, Fintype.card_fin, maxTasks] at this
    simp only [maxWaitingTasks]
    omega

theorem waiters_fit (sound : b.Sound idle) (o : Waitable) : (b.waiters o).length ≤ o.room := by
  cases o with
  | mutex m => exact sound.waiters_mutex m
  | semaphore x => simpa [Waitable.room] using (sound.distinct (.semaphore x)).length_le_card

end Board.Sound

/-- What the invariant of the board says about the arrays and pointers of the kernel. -/
theorem Board.Sound.wait_queues {idle : TaskId} {s : System} (sound : s.board.Sound idle) :
    WaitQueuesSound s.kernel where
  distinct := sound.distinct
  parked o t queued := by
    obtain ⟨live, on⟩ := sound.queued o t queued
    exact ⟨live, (sound.blocked t live).mpr (.inr (by simp [on])), on,
      (sound.pointers t live).trans on⟩
  once t o live on := by
    refine ⟨List.count_eq_one_of_mem (sound.distinct o) (sound.parked o t live on), ?_⟩
    intro p other queued
    have there := (sound.queued p t queued).2
    exact other (Option.some.inj (there.symm.trans on))
  asleep t live timer :=
    (sound.blocked t live).mpr (.inl (UInt32.pos_iff_ne_zero.mp timer))
  blocked t live := by
    rw [UInt32.pos_iff_ne_zero]
    exact sound.blocked t live
  fits o := by
    have fits := sound.waiters_fit o
    simpa [System.board, Kernel.board, Kernel.waiters] using fits

/-- **The wait queues are sound in every reachable state.** -/
theorem wait_queues_sound {idle : TaskId} {past : History} {s : System} (run : Trace idle past s) :
    WaitQueuesSound s.kernel := run.sound.wait_queues

/-- Task 2 takes a mutex and sleeps, task 1 queues up for it, and a tick passes. -/
theorem wait_queues_sound_queued : ∃ past s, Trace 0 past s ∧
    s.kernel.waiters (.mutex 0) = [1] ∧ WaitQueuesSound s.kernel := by
  obtain ⟨past, s, run, queued⟩ := rehearse_run
    (show rehearse 0 (fun _ => ⟨0, 1⟩) [0, 1, 2] (fun _ _ => true)
      (fun _ s => s.kernel.waiters (.mutex 0) = [1])
      [.call 2 (.mutexAcquire 0 0) (.returned .success), .call 2 (.delay 3) .parked, .pass,
        .call 1 (.mutexAcquire 0 5) .parked, .pass, .tick] by decide +kernel)
  have trace : Trace 0 past s := run.weaken (fun _ h => h.launched) fun _ _ _ h => h.1
  exact ⟨past, s, trace, of_decide_eq_true queued, wait_queues_sound trace⟩

end Sentinel
