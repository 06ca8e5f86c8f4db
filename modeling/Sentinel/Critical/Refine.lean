import Sentinel.Critical.Program

/-! The statements of a call, one after the other, do what the function of the kernel model does
in one go: when nobody comes in between, both give the same answer and leave the same state. -/

namespace Sentinel

open Programs

/-- The code that an acquire hands back in the end, when it has left `k` behind. -/
def Outcome.code (out : Outcome) (k : Kernel) : Code :=
  match out, k.currentTcb with
  | .returned code, _ => code
  | _, some t => (k.osTasks t).waitResult
  | _, none => .fail

/-- Alone, the program takes the kernel from `k` to `k'` and hands back `x`. -/
def Acts {α : Type} (p : Routine α) (k : Kernel) (x : α) (k' : Kernel) : Prop :=
  ∀ queue waiting pin, p.Ends ⟨k, queue, waiting, pin⟩ x ⟨k', queue, waiting, pin⟩

namespace Routine

variable {α : Type} {d : Device}

theorem ends_preempt : preempt.Ends d () d := by
  apply Program.Ends.bind .look
  cases d.kernel.primask with
  | false => exact .no (by decide) .letIn
  | true => exact .yes rfl .pure

theorem ends_get {f : Device → α} : (get f).Ends d (f d) d := .bind ends_preempt .look

theorem ends_assign {target : Target} {f : Device → Device} : (assign target f).Ends d () (f d) :=
  .bind ends_preempt .write

end Routine

namespace Acts

open Routine

variable {α β : Type} {p p' : Routine α} {f : α → Routine β} {k k₁ k₂ k' : Kernel} {x : α} {y : β}
  {t task : TaskId} {o c : Waitable} {m : Nat}

/-! ### Rules -/

theorem pure : Acts (pure x) k x k := fun _ _ _ => .pure

theorem bind (first : Acts p k x k₁) (rest : Acts (f x) k₁ y k₂) : Acts (p >>= f) k y k₂ :=
  fun queue waiting pin => .bind (first queue waiting pin) (rest queue waiting pin)

theorem of_eq (acts : Acts p k x k₁) (same : k₁ = k') : Acts p k x k' := same ▸ acts

theorem yes {q : Prop} [Decidable q] (holds : q) (acts : Acts p k x k') :
    Acts (if q then p else p') k x k' := fun queue waiting pin => .yes holds (acts queue waiting pin)

theorem no {q : Prop} [Decidable q] (fails : ¬ q) (acts : Acts p' k x k') :
    Acts (if q then p else p') k x k' := fun queue waiting pin => .no fails (acts queue waiting pin)

theorem read {g : Kernel → α} : Acts (read g) k (g k) k := fun _ _ _ => ends_get

theorem control {g : Kernel → Kernel} : Acts (control g) k () (g k) := fun _ _ _ => ends_assign

theorem assignTcb {g : Tcb → Tcb} : Acts (assignTcb t g) k () (k.setTcb t (g (k.osTasks t))) :=
  fun _ _ _ => ends_assign

theorem assignMutex {g : OsMutex → OsMutex} :
    Acts (assignMutex m g) k () (k.setMutex m (g (k.mutexes m))) := fun _ _ _ => ends_assign

theorem assignSemaphore {g : OsSemaphore → OsSemaphore} :
    Acts (assignSemaphore m g) k () (k.setSemaphore m (g (k.semaphores m))) :=
  fun _ _ _ => ends_assign

theorem assignQueue {g : WaitQueue → WaitQueue} :
    Acts (assignQueue o g) k () (k.setQueue o (g (k.queues o))) := fun _ _ _ => ends_assign

theorem osEnterCritical : Acts osEnterCritical k k.primask { k with primask := true } := by
  apply bind read
  exact bind control pure

theorem critical {rest : Bool → Routine β}
    (inside : Acts (rest k.primask) { k with primask := true } y k') :
    Acts (Routine.osEnterCritical >>= rest) k y k' := bind osEnterCritical inside

theorem osExitCritical {primask : Bool} :
    Acts (osExitCritical primask) k () (k.osExitCritical primask) := control

theorem osYield : Acts osYield k () k.osYield := bind control fun _ _ _ => .letIn

theorem current (here : k.currentTcb = some t) : Acts current k t k := by
  have follow : Acts (Program.deref k.currentTcb) k t k := by
    rw [here]
    exact pure
  exact bind read follow

/-! ### Wait queues -/

theorem shiftDown {j n : Nat} : Acts (shiftDown o j n) k ()
    (k.setQueue o { k.queues o with waitQueue := Cells.shiftDown (k.queues o).waitQueue j n }) := by
  induction n generalizing j k with
  | zero =>
    have same : k.setQueue o (k.queues o) = k := by simp [Kernel.setQueue]
    rw [Cells.shiftDown, same]
    exact pure
  | succ n ih =>
    apply bind read
    apply bind assignQueue
    exact ih.of_eq (by simp [Kernel.setQueue, Cells.shiftDown])

theorem removeFrom {i n : Nat} : Acts (removeFrom task o c i n) k ()
    (let out := Cells.removeFirst task (k.queues o).waitQueue (k.queues c).waitCount i n
     let k' := k.setQueue o { k.queues o with waitQueue := out.1 }
     k'.setQueue c { k'.queues c with waitCount := out.2 }) := by
  induction n generalizing i with
  | zero =>
    apply pure.of_eq
    by_cases same : c = o <;> simp [Cells.removeFirst, Kernel.setQueue, same]
  | succ n ih =>
    apply bind read
    by_cases found : (k.queues o).waitQueue i = task
    · apply yes found
      apply bind shiftDown
      apply assignQueue.of_eq
      by_cases same : c = o <;> simp [Cells.removeFirst, found, Kernel.setQueue, same]
    · apply no found
      exact ih.of_eq (by simp only [Cells.removeFirst, if_neg found])

theorem waitQueueRemove : Acts (waitQueueRemove task) k () (k.waitQueueRemove task) := by
  unfold Kernel.waitQueueRemove
  apply bind read
  cases queue : (k.osTasks task).waitQueue with
  | none => exact pure
  | some o =>
    cases count : (k.osTasks task).waitCount with
    | none => exact pure
    | some c =>
      apply bind read
      apply bind removeFrom
      apply bind assignTcb
      apply assignTcb.of_eq
      simp [Kernel.removeWaiter, Kernel.setTcb, Kernel.setQueue]

theorem wakeTask : Acts (wakeTask task) k () (k.wakeTask task) := by
  apply bind waitQueueRemove
  apply bind assignTcb
  apply bind assignTcb
  apply assignTcb.of_eq
  simp [Kernel.wakeTask, Kernel.setTcb]

theorem pickWaiter : Acts (pickWaiter o) k
    (k.pickWaiter (k.queues o).waitQueue (k.queues o).waitCount) k := read

/-- What `block_current` hands back, and the state it leaves. -/
theorem blockCurrent {max : Nat} {timeout : UInt32} (here : k.currentTcb = some t) :
    Acts (blockCurrent o max timeout) k (k.blockCurrent t o max timeout).isSome
      ((k.blockCurrent t o max timeout).getD k) := by
  unfold Kernel.blockCurrent
  apply bind read
  by_cases full : (k.queues o).waitCount ≥ max
  · apply yes full
    rw [if_pos full]
    exact pure
  · apply no full
    rw [if_neg full]
    apply bind (current here)
    apply bind assignQueue
    apply bind assignQueue
    apply bind assignTcb
    apply bind assignTcb
    apply bind assignTcb
    apply bind assignTcb
    apply bind assignTcb
    apply pure.of_eq
    simp [Kernel.setTcb, Kernel.setQueue]

/-! ### The calls of `os_kernel.c` -/

theorem resumed (here : k.currentTcb = some t) :
    Acts resumed k (k.osTasks t).waitResult k := bind (current here) read

section
variable {max : Nat} {timeout : UInt32} {primask : Bool}

theorem park_full (here : k.currentTcb = some t)
    (full : k.blockCurrent t o max timeout = none) :
    Acts (park o max timeout primask) k .fail (k.osExitCritical primask) := by
  have blocked := @blockCurrent k t o max timeout here
  rw [full] at blocked
  apply bind blocked
  exact yes (by decide) (bind osExitCritical pure)

theorem park_parks (here : k.currentTcb = some t)
    (parks : k.blockCurrent t o max timeout = some k₁) :
    Acts (park o max timeout primask) k (Outcome.parked.code (k₁.osExitCritical primask).osYield)
      (k₁.osExitCritical primask).osYield := by
  have still : k₁.currentTcb = some t := by
    unfold Kernel.blockCurrent at parks
    dsimp only at parks
    split at parks
    · cases parks
    · obtain rfl := Option.some.inj parks
      exact here
  have code : Outcome.parked.code (k₁.osExitCritical primask).osYield = (k₁.osTasks t).waitResult := by
    simp [Outcome.code, still]
  have blocked := @blockCurrent k t o max timeout here
  rw [parks] at blocked
  rw [code]
  apply bind blocked
  apply no (by simp)
  apply bind osExitCritical
  exact bind osYield (resumed still)

end

theorem osDelay {ms : UInt32} {out : Bool} (done : k.osDelay ms = some (out, k')) :
    Acts (osDelay ms) k () k' := by
  unfold Kernel.osDelay at done
  apply bind read
  split at done
  · rename_i stays
    obtain ⟨rfl, rfl⟩ := Prod.mk.inj (Option.some.inj done)
    exact yes (by simpa using stays) pure
  · rename_i parks
    obtain ⟨t, here, same⟩ := Option.map_eq_some_iff.mp done
    obtain ⟨rfl, rfl⟩ := Prod.mk.inj same
    apply no (by simpa using parks)
    apply critical
    apply bind (current here)
    apply bind assignTcb
    apply bind assignTcb
    apply bind assignTcb
    apply bind assignTcb
    apply bind osExitCritical
    apply osYield.of_eq
    simp [Kernel.setTcb, Kernel.osExitCritical, Kernel.osYield]

theorem donate {owner : TaskId} (here : k.currentTcb = some t)
    (held : (k.mutexes m).owner = some owner) : Acts (donate m) k () (k.donate owner t) := by
  unfold Kernel.donate
  have follow : Acts (Program.deref (k.mutexes m).owner) k owner k := by
    rw [held]
    exact pure
  apply bind (current here)
  apply bind read
  apply bind follow
  apply bind read
  apply bind read
  by_cases greater : (k.osTasks t).currentPriority > (k.osTasks owner).currentPriority
  · apply yes greater
    rw [if_pos greater]
    exact assignTcb
  · apply no greater
    rw [if_neg greater]
    exact pure

theorem osMutexAcquire {timeout : UInt32} {out : Outcome}
    (done : k.osMutexAcquire m timeout = some (out, k')) :
    Acts (osMutexAcquire m timeout) k (out.code k') k' := by
  unfold Kernel.osMutexAcquire at done
  dsimp only [Kernel.osEnterCritical] at done
  apply critical
  apply bind read
  by_cases unlocked : (k.mutexes m).lock = 0
  · rw [if_pos unlocked] at done
    obtain ⟨rfl, rfl⟩ := Prod.mk.inj (Option.some.inj done)
    apply yes unlocked
    apply bind assignMutex
    apply bind read
    apply bind assignMutex
    apply bind osExitCritical
    apply pure.of_eq
    simp [Kernel.setMutex, Kernel.osExitCritical]
  rw [if_neg unlocked] at done
  apply no unlocked
  apply bind read
  apply bind read
  by_cases own : (k.mutexes m).owner = k.currentTcb
  · rw [if_pos own] at done
    obtain ⟨rfl, rfl⟩ := Prod.mk.inj (Option.some.inj done)
    apply yes own
    exact bind osExitCritical pure
  rw [if_neg own] at done
  apply no own
  apply bind read
  by_cases polls : timeout = 0 ∨ ¬ k.kernelRunning
  · rw [if_pos polls] at done
    obtain ⟨rfl, rfl⟩ := Prod.mk.inj (Option.some.inj done)
    apply yes polls
    exact bind osExitCritical pure
  rw [if_neg polls] at done
  apply no polls
  split at done
  · rename_i t owner here held
    have still : (Kernel.donate owner t { k with primask := true }).currentTcb = some t := by
      unfold Kernel.donate
      split <;> exact here
    have lent : Acts (Routine.donate m) { k with primask := true } ()
        (Kernel.donate owner t { k with primask := true }) := donate here held
    apply bind lent
    split at done
    · rename_i noRoom
      obtain ⟨rfl, rfl⟩ := Prod.mk.inj (Option.some.inj done)
      exact park_full still noRoom
    · rename_i k₁ parks
      obtain ⟨rfl, rfl⟩ := Prod.mk.inj (Option.some.inj done)
      exact park_parks still parks
  · cases done

theorem dropDonation : Acts (dropDonation m) k () (k.dropDonation m) := by
  unfold Kernel.dropDonation
  apply bind read
  cases (k.mutexes m).owner with
  | none => exact pure
  | some owner => exact assignTcb

theorem osMutexRelease : Acts (osMutexRelease m) k () (k.osMutexRelease m) := by
  unfold Kernel.osMutexRelease
  dsimp only [Kernel.osEnterCritical]
  apply critical
  apply bind dropDonation
  apply bind pickWaiter
  generalize Kernel.pickWaiter _ _ _ = picked
  cases picked with
  | some next =>
    apply bind assignMutex
    apply bind wakeTask
    apply bind osExitCritical
    exact osYield
  | none =>
    apply bind assignMutex
    apply bind assignMutex
    apply osExitCritical.of_eq
    simp [Kernel.setMutex, Kernel.osExitCritical]

theorem osSemaphoreAcquire {x : Nat} {timeout : UInt32} {out : Outcome}
    (done : k.osSemaphoreAcquire x timeout = some (out, k')) :
    Acts (osSemaphoreAcquire x timeout) k (out.code k') k' := by
  unfold Kernel.osSemaphoreAcquire at done
  dsimp only [Kernel.osEnterCritical] at done
  apply critical
  apply bind read
  by_cases token : (k.semaphores x).count > 0
  · rw [if_pos token] at done
    obtain ⟨rfl, rfl⟩ := Prod.mk.inj (Option.some.inj done)
    apply yes token
    apply bind assignSemaphore
    exact bind osExitCritical pure
  rw [if_neg token] at done
  apply no token
  apply bind read
  by_cases polls : timeout = 0 ∨ ¬ k.kernelRunning
  · rw [if_pos polls] at done
    obtain ⟨rfl, rfl⟩ := Prod.mk.inj (Option.some.inj done)
    apply yes polls
    exact bind osExitCritical pure
  rw [if_neg polls] at done
  apply no polls
  obtain ⟨t, here, done⟩ := Option.map_eq_some_iff.mp done
  have still : { k with primask := true }.currentTcb = some t := here
  split at done
  · rename_i noRoom
    obtain ⟨rfl, rfl⟩ := Prod.mk.inj done
    exact park_full still noRoom
  · rename_i k₁ parks
    obtain ⟨rfl, rfl⟩ := Prod.mk.inj done
    exact park_parks still parks

theorem countUp {x : Nat} : Acts (countUp x) k ()
    (if (k.semaphores x).count < (k.semaphores x).maxCount then
      k.setSemaphore x { k.semaphores x with count := (k.semaphores x).count + 1 } else k) := by
  apply bind read
  by_cases room : (k.semaphores x).count < (k.semaphores x).maxCount
  · apply yes room
    rw [if_pos room]
    exact assignSemaphore
  · apply no room
    rw [if_neg room]
    exact pure

theorem osSemaphoreRelease {x : Nat} : Acts (osSemaphoreRelease x) k () (k.osSemaphoreRelease x) := by
  unfold Kernel.osSemaphoreRelease
  dsimp only [Kernel.osEnterCritical]
  apply critical
  apply bind pickWaiter
  generalize Kernel.pickWaiter _ _ _ = picked
  cases picked with
  | some next =>
    apply bind wakeTask
    apply bind osExitCritical
    exact osYield
  | none =>
    apply bind countUp
    exact osExitCritical

end Acts

/-- What a call hands back in the end, when it has left `k` behind. -/
def Call.answer (out : Outcome) (k : Kernel) : Call → Outcome
  | .mutexAcquire _ _ | .semaphoreAcquire _ _ => .returned (out.code k)
  | .mutexRelease _ | .semaphoreRelease _ | .delay _ => .finished

/-- **A call in one go is its statements one by one.** -/
theorem Call.routine_exec {c : Call} {k k' : Kernel} {out : Outcome}
    (done : c.exec k = some (out, k')) : Acts c.routine k (c.answer out k') k' := by
  cases c with
  | mutexAcquire m timeout => exact (Acts.osMutexAcquire done).bind .pure
  | mutexRelease m =>
    obtain ⟨rfl, rfl⟩ := Prod.mk.inj (Option.some.inj done)
    exact Acts.osMutexRelease.bind .pure
  | semaphoreAcquire x timeout => exact (Acts.osSemaphoreAcquire done).bind .pure
  | semaphoreRelease x =>
    obtain ⟨rfl, rfl⟩ := Prod.mk.inj (Option.some.inj done)
    exact Acts.osSemaphoreRelease.bind .pure
  | delay ms =>
    obtain ⟨⟨parks, j⟩, one, same⟩ := Option.map_eq_some_iff.mp done
    obtain ⟨rfl, rfl⟩ := Prod.mk.inj same
    exact (Acts.osDelay one).bind .pure

/-! ### Queue calls -/

section
variable {k k' : Kernel} {x m : Nat} {timeout : UInt32} {out : Outcome}

theorem Kernel.semaphoreAcquire_code (done : k.osSemaphoreAcquire x timeout = some (out, k'))
    (awake : out ≠ .parked) : ∃ code, out = .returned code := by
  unfold osSemaphoreAcquire at done
  dsimp only [osEnterCritical] at done
  by_cases token : (k.semaphores x).count > 0
  · rw [if_pos token] at done
    cases done
    exact ⟨_, rfl⟩
  rw [if_neg token] at done
  by_cases polls : timeout = 0 ∨ ¬ k.kernelRunning
  · rw [if_pos polls] at done
    cases done
    exact ⟨_, rfl⟩
  rw [if_neg polls] at done
  obtain ⟨t, _, done⟩ := Option.map_eq_some_iff.mp done
  split at done
  · cases done
    exact ⟨_, rfl⟩
  · cases done
    exact absurd rfl awake

theorem Kernel.mutexAcquire_code (done : k.osMutexAcquire m timeout = some (out, k'))
    (awake : out ≠ .parked) : ∃ code, out = .returned code := by
  unfold osMutexAcquire at done
  dsimp only [osEnterCritical] at done
  by_cases unlocked : (k.mutexes m).lock = 0
  · rw [if_pos unlocked] at done
    cases done
    exact ⟨_, rfl⟩
  rw [if_neg unlocked] at done
  by_cases own : (k.mutexes m).owner = k.currentTcb
  · rw [if_pos own] at done
    cases done
    exact ⟨_, rfl⟩
  rw [if_neg own] at done
  by_cases polls : timeout = 0 ∨ ¬ k.kernelRunning
  · rw [if_pos polls] at done
    cases done
    exact ⟨_, rfl⟩
  rw [if_neg polls] at done
  split at done
  · split at done
    · cases done
      exact ⟨_, rfl⟩
    · cases done
      exact absurd rfl awake
  · cases done

end

theorem Frame.call_of_finish {f : Frame} {q : OsMessageQueue} {k : Kernel} {c : Call} {fuel : Nat}
    {result : Reply × OsMessageQueue × Kernel} (calls : f.call q = some c)
    (done : f.finish (fuel + 1) q k = some result) :
    ∃ out k₁, c.exec k = some (out, k₁) ∧ out ≠ .parked ∧
      (f.proceed out).finish fuel q k₁ = some result := by
  have outside : f.access q = none := by
    cases f with
    | sendWrite | sendHead | sendTail | receiveRead | receiveTail => cases calls
    | _ => rfl
  cases exec : c.exec k with
  | none =>
    cases f with
    | returning => cases calls
    | _ => simp only [finish, outside, calls, exec, Option.bind_none, reduceCtorEq] at done
  | some next =>
    obtain ⟨out, k₁⟩ := next
    by_cases parks : out = .parked
    · cases f with
      | returning => cases calls
      | _ =>
        simp only [finish, outside, calls, exec, Option.bind_some, if_pos parks, reduceCtorEq] at done
    · exact ⟨out, k₁, rfl, parks, (Frame.finish_call calls exec parks).symm.trans done⟩

section
variable {d : Device} {q' : OsMessageQueue} {k' : Kernel} {reply : Reply}

theorem Acts.ends {α : Type} {p : Routine α} {x : α} (acts : Acts p d.kernel x k') :
    p.Ends d x { d with kernel := k' } := acts d.queue d.waitingForRising d.trigPin

open Routine Program

variable {message timeout : UInt32} {hadSlot : Bool}

theorem giveBack_ends : (giveBack hadSlot).Ends d ()
    (if hadSlot then { d with kernel := d.kernel.osSemaphoreRelease d.queue.emptySlots } else d) := by
  apply Ends.bind ends_get
  cases hadSlot with
  | true => exact .yes rfl Acts.osSemaphoreRelease.ends
  | false => exact .no (by decide) .pure

theorem postFilled_ends : (postFilled hadSlot).Ends d ()
    (if hadSlot then { d with kernel := d.kernel.osSemaphoreRelease d.queue.filledSlots } else d) := by
  apply Ends.bind ends_get
  cases hadSlot with
  | true => exact .yes rfl Acts.osSemaphoreRelease.ends
  | false => exact .no (by decide) .pure

theorem sendWrite_ends (done : (Frame.sendWrite message hadSlot).finish 5 d.queue d.kernel =
    some (reply, q', k')) :
    reply = .sent .success ∧
      (sendWrite message hadSlot).Ends d .success { d with queue := q', kernel := k' } := by
  rw [Frame.finish_access rfl, Frame.finish_access rfl] at done
  cases hadSlot with
  | true =>
    obtain ⟨out, k₁, unlock, awake, done⟩ := Frame.call_of_finish rfl done
    obtain ⟨out', k₂, post, awake', done⟩ := Frame.call_of_finish rfl done
    cases unlock
    cases post
    cases done
    refine ⟨rfl, ?_⟩
    apply Ends.bind ends_assign
    apply Ends.bind ends_assign
    apply Ends.bind (.no (by decide) .pure)
    apply Ends.bind ends_get
    apply Ends.bind Acts.osMutexRelease.ends
    exact Ends.bind postFilled_ends .pure
  | false =>
    rw [Frame.finish_access rfl] at done
    obtain ⟨out, k₁, unlock, awake, done⟩ := Frame.call_of_finish rfl done
    cases unlock
    cases done
    refine ⟨rfl, ?_⟩
    apply Ends.bind ends_assign
    apply Ends.bind ends_assign
    apply Ends.bind (.yes (by decide) ends_assign)
    apply Ends.bind ends_get
    apply Ends.bind Acts.osMutexRelease.ends
    exact Ends.bind postFilled_ends .pure

theorem sendLock_ends (done : (Frame.sendLock message hadSlot).finish 6 d.queue d.kernel =
    some (reply, q', k')) :
    ∃ code, reply = .sent code ∧
      (sendLock message hadSlot).Ends d code { d with queue := q', kernel := k' } := by
  obtain ⟨out, k₁, lock, awake, done⟩ := Frame.call_of_finish rfl done
  obtain ⟨locked, rfl⟩ := Kernel.mutexAcquire_code lock awake
  have locks : (osMutexAcquire d.queue.lock waitForever).Ends d locked { d with kernel := k₁ } :=
    (Acts.osMutexAcquire lock).ends
  by_cases success : locked = .success
  · subst success
    obtain ⟨rfl, writes⟩ := @sendWrite_ends { d with kernel := k₁ } _ _ _ _ _ done
    refine ⟨.success, rfl, ?_⟩
    apply Ends.bind ends_get
    apply Ends.bind locks
    exact .no (by decide) writes
  · cases hadSlot with
    | true =>
      have back : (Frame.sendLock message true).proceed (.returned locked) = .sendGiveBack := by
        simp [Frame.proceed, success]
      rw [back] at done
      obtain ⟨out, k₂, post, _, done⟩ := Frame.call_of_finish rfl done
      cases post
      cases done
      refine ⟨.fail, rfl, ?_⟩
      apply Ends.bind ends_get
      apply Ends.bind locks
      apply Ends.yes success
      exact Ends.bind giveBack_ends .pure
    | false =>
      have away : (Frame.sendLock message false).proceed (.returned locked) =
          .returning (.sent .fail) := by simp [Frame.proceed, success]
      rw [away] at done
      cases done
      refine ⟨.fail, rfl, ?_⟩
      apply Ends.bind ends_get
      apply Ends.bind locks
      apply Ends.yes success
      exact Ends.bind giveBack_ends .pure

theorem osQueueSend_ends (done : osQueueCall (.send message timeout) d.queue d.kernel =
    some (reply, q', k')) :
    ∃ code, reply = .sent code ∧
      (osQueueSend message timeout).Ends d code { d with queue := q', kernel := k' } := by
  obtain ⟨out, k₁, slot, awake, done⟩ := Frame.call_of_finish rfl done
  obtain ⟨had, rfl⟩ := Kernel.semaphoreAcquire_code slot awake
  have hadSlot : (Operation.send message timeout).start.proceed (.returned had) =
      .sendLock message (had = .success) := by simp [Operation.start, Frame.proceed]
  rw [hadSlot] at done
  obtain ⟨code, rfl, locks⟩ := @sendLock_ends { d with kernel := k₁ } _ _ _ _ _ done
  refine ⟨code, rfl, ?_⟩
  apply Ends.bind ends_get
  exact Ends.bind (Acts.osSemaphoreAcquire slot).ends locks

theorem receiveRead_ends (done : Frame.receiveRead.finish 5 d.queue d.kernel =
    some (reply, q', k')) :
    reply = .received (d.queue.buffer d.queue.tail) ∧
      receiveRead.Ends d (.success, some (d.queue.buffer d.queue.tail))
        { d with queue := q', kernel := k' } := by
  rw [Frame.finish_access rfl, Frame.finish_access rfl] at done
  obtain ⟨out, k₁, unlock, awake, done⟩ := Frame.call_of_finish rfl done
  obtain ⟨out', k₂, post, awake', done⟩ := Frame.call_of_finish rfl done
  cases unlock
  cases post
  cases done
  refine ⟨rfl, ?_⟩
  apply Ends.bind ends_get
  apply Ends.bind ends_assign
  apply Ends.bind ends_get
  apply Ends.bind Acts.osMutexRelease.ends
  apply Ends.bind ends_get
  exact Ends.bind Acts.osSemaphoreRelease.ends .pure

/-- What a receive has to show for itself, as a reply. -/
def asReply (out : Code × Option UInt32) : Reply :=
  match out.2 with
  | some message => .received message
  | none => .missed out.1

theorem receiveLock_ends (done : Frame.receiveLock.finish 6 d.queue d.kernel =
    some (reply, q', k')) :
    ∃ out, reply = asReply out ∧
      receiveLock.Ends d out { d with queue := q', kernel := k' } := by
  obtain ⟨out, k₁, lock, awake, done⟩ := Frame.call_of_finish rfl done
  obtain ⟨locked, rfl⟩ := Kernel.mutexAcquire_code lock awake
  have locks : (osMutexAcquire d.queue.lock waitForever).Ends d locked { d with kernel := k₁ } :=
    (Acts.osMutexAcquire lock).ends
  by_cases success : locked = .success
  · subst success
    obtain ⟨rfl, reads⟩ := @receiveRead_ends { d with kernel := k₁ } _ _ _ done
    refine ⟨(.success, some _), rfl, ?_⟩
    apply Ends.bind ends_get
    apply Ends.bind locks
    exact .no (by decide) reads
  · have back : Frame.receiveLock.proceed (.returned locked) = .receiveGiveBack := by
      simp [Frame.proceed, success]
    rw [back] at done
    obtain ⟨out, k₂, post, _, done⟩ := Frame.call_of_finish rfl done
    cases post
    cases done
    refine ⟨(.fail, none), rfl, ?_⟩
    apply Ends.bind ends_get
    apply Ends.bind locks
    apply Ends.yes success
    apply Ends.bind ends_get
    exact Ends.bind Acts.osSemaphoreRelease.ends .pure

theorem osQueueReceive_ends (done : osQueueCall (.receive timeout) d.queue d.kernel =
    some (reply, q', k')) :
    ∃ out, reply = asReply out ∧
      (osQueueReceive timeout).Ends d out { d with queue := q', kernel := k' } := by
  obtain ⟨out, k₁, item, awake, done⟩ := Frame.call_of_finish rfl done
  obtain ⟨got, rfl⟩ := Kernel.semaphoreAcquire_code item awake
  have takes : (osSemaphoreAcquire d.queue.filledSlots timeout).Ends d got { d with kernel := k₁ } :=
    (Acts.osSemaphoreAcquire item).ends
  by_cases success : got = .success
  · subst success
    obtain ⟨out, rfl, locks⟩ := @receiveLock_ends { d with kernel := k₁ } _ _ _ done
    refine ⟨out, rfl, ?_⟩
    apply Ends.bind ends_get
    apply Ends.bind takes
    exact .no (by decide) locks
  · have away : (Operation.receive timeout).start.proceed (.returned got) =
        .returning (.missed .timeout) := by simp [Operation.start, Frame.proceed, success]
    rw [away] at done
    cases done
    refine ⟨(.timeout, none), rfl, ?_⟩
    apply Ends.bind ends_get
    apply Ends.bind takes
    exact .yes success .pure

/-- **A queue call in one go is its statements one by one.** -/
theorem Operation.routine_finish {op : Operation}
    (done : osQueueCall op d.queue d.kernel = some (reply, q', k')) :
    op.routine.Ends d reply { d with queue := q', kernel := k' } := by
  cases op with
  | send message timeout =>
    obtain ⟨code, rfl, sends⟩ := osQueueSend_ends done
    exact Ends.bind sends .pure
  | receive timeout =>
    obtain ⟨out, rfl, receives⟩ := osQueueReceive_ends done
    apply Ends.bind receives
    obtain ⟨code, message⟩ := out
    cases message with
    | none => exact .pure
    | some message => exact .pure

/-! ### The trigger -/

theorem spin_ends {n : Nat} : (spin n).Ends d () d := by
  induction n with
  | zero => exact .pure
  | succ n ih => exact Ends.bind ends_preempt ih

/-- The trigger arms the capture, and its pulse is over when it returns. -/
theorem ultrasonicTrigger_ends :
    ultrasonicTrigger.Ends d () { d with waitingForRising := true, trigPin := false } := by
  apply Ends.bind Acts.osEnterCritical.ends
  apply Ends.bind ends_assign
  apply Ends.bind ends_assign
  apply Ends.bind ends_assign
  apply Ends.bind spin_ends
  exact ends_assign

end
end Sentinel
