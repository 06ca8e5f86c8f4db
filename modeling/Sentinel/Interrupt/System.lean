import Sentinel.Interrupt.Tokens

/-! Runs of the whole kernel in which every tick can be preempted. The queues and the control blocks
agree in all of them, as long as the posts within the ticks are harmless, so that no tick finds
anything else. -/

namespace Sentinel

open Runs (Transition Run)

namespace Board

/-- What the queues and the control blocks say of each other, whatever the timers hold. -/
structure Orderly (b : Board) : Prop where
  current : ∃ c, b.current = some c ∧ b.Live c
  distinct : ∀ o, (b.waiters o).Nodup
  queued : ∀ o, ∀ t ∈ b.waiters o, b.Live t ∧ (b.tcb t).state = .blocked ∧
    (b.tcb t).waitQueue = some o ∧ (b.tcb t).waitCount = some o
  parked : ∀ t o, b.Live t → (b.tcb t).waitQueue = some o → t ∈ b.waiters o

theorem Sound.orderly {idle : TaskId} {b : Board} (sound : b.Sound idle) : b.Orderly where
  current := sound.current
  distinct := sound.distinct
  queued o t there := by
    obtain ⟨live, on⟩ := sound.queued o t there
    exact ⟨live, (sound.blocked t live).mpr (.inr (by simp [on])), on, (sound.pointers t live).trans on⟩
  parked t o live on := sound.parked o t live on

theorem Runs.lend {b : Board} {t : TaskId} (runs : b.Runs t) (owner caller : TaskId) :
    (b.lend owner caller).Runs t := by
  refine ⟨runs.1, ?_⟩
  by_cases self : t = owner
  · subst self
    simpa [Board.lend] using runs.2
  · simpa [Board.lend, self] using runs.2

namespace Orderly

variable {b c : Board} {t : TaskId} {o : Waitable}

/-- A task that runs is on no queue. -/
theorem runs_apart (orderly : b.Orderly) (runs : b.Runs t) : b.Live t ∧ ∀ o, t ∉ b.waiters o := by
  obtain ⟨c, here, live⟩ := orderly.current
  obtain rfl : t = c := Option.some.inj (runs.1.symm.trans here)
  refine ⟨live, ?_⟩
  intro o there
  cases runs.2.symm.trans (orderly.queued o t there).2.1

/-- Of a control block only the state and the pointers count. -/
theorem congr (orderly : b.Orderly) (count : c.taskCount = b.taskCount)
    (current : c.current = b.current) (waiters : c.waiters = b.waiters)
    (same : ∀ t, (c.tcb t).state = (b.tcb t).state ∧ (c.tcb t).waitQueue = (b.tcb t).waitQueue ∧
      (c.tcb t).waitCount = (b.tcb t).waitCount) : c.Orderly := by
  constructor <;> simp only [Live, count, current, waiters, same]
  exacts [orderly.current, orderly.distinct, orderly.queued, orderly.parked]

/-- The mask, the counts, the owners and the calls that are open do not matter. -/
theorem of_eq (orderly : b.Orderly) (count : c.taskCount = b.taskCount)
    (current : c.current = b.current) (waiters : c.waiters = b.waiters) (tcb : c.tcb = b.tcb) :
    c.Orderly :=
  orderly.congr count current waiters (by simp [tcb])

theorem lend (orderly : b.Orderly) (owner caller : TaskId) : (b.lend owner caller).Orderly := by
  apply orderly.congr (c := b.lend owner caller) rfl rfl rfl
  intro t
  by_cases self : t = owner
  · subst self
    simp [Board.lend]
  · simp [Board.lend, self]

theorem settle (orderly : b.Orderly) (m : Nat) : (b.settle m).Orderly := by
  apply orderly.congr (c := b.settle m) <;> unfold Board.settle
  case same =>
    intro t
    split
    · rename_i owner _
      by_cases self : t = owner
      · subst self
        simp
      · simp [self]
    · exact ⟨rfl, rfl, rfl⟩
  all_goals split <;> rfl

theorem park (orderly : b.Orderly) (runs : b.Runs t) (o : Waitable) (n : UInt32) (c : Call) :
    (b.park t o n c).Orderly := by
  obtain ⟨live, apart⟩ := orderly.runs_apart runs
  have other : ∀ p, ∀ x ∈ b.waiters p, x ≠ t := fun p x there same => apart p (same ▸ there)
  refine ⟨orderly.current, ?_, ?_, ?_⟩
  · intro p
    by_cases here : p = o
    · subst here
      simpa [Board.park] using (orderly.distinct p).concat (apart p)
    · simpa [Board.park, here] using orderly.distinct p
  · intro p x there
    by_cases self : x = t
    · subst self
      have here : p = o := by
        by_contra ne
        exact apart p (by simpa [Board.park, ne] using there)
      exact ⟨live, by simp [Board.park, here]⟩
    · have before : x ∈ b.waiters p := by
        by_cases here : p = o
        · subst here
          simpa [Board.park, self] using there
        · simpa [Board.park, here] using there
      obtain ⟨alive, block⟩ := orderly.queued p x before
      exact ⟨alive, by simpa [Board.park, self] using block⟩
  · intro x p alive on
    by_cases self : x = t
    · subst self
      have here : o = p := by simpa [Board.park] using on
      simp [Board.park, here]
    · have before := orderly.parked x p alive (by simpa [Board.park, self] using on)
      by_cases here : p = o
      · subst here
        simp [Board.park, before]
      · simpa [Board.park, here] using before

theorem grant (orderly : b.Orderly) (t : TaskId) : (b.grant t).Orderly := by
  have left : ∀ p x, x ∈ (b.waiters p).erase t ↔ x ≠ t ∧ x ∈ b.waiters p :=
    fun p x => (orderly.distinct p).mem_erase_iff
  refine ⟨orderly.current, fun p => (orderly.distinct p).erase t, ?_, ?_⟩
  · intro p x there
    obtain ⟨ne, there⟩ := (left p x).mp there
    obtain ⟨alive, block⟩ := orderly.queued p x there
    exact ⟨alive, by simpa [Board.grant, ne] using block⟩
  · intro x p alive on
    by_cases self : x = t
    · simp [Board.grant, self] at on
    · exact (left p x).mpr ⟨self, orderly.parked x p alive (by simpa [Board.grant, self] using on)⟩

theorem sleep (orderly : b.Orderly) (runs : b.Runs t) (ms : UInt32) (c : Call) :
    (b.sleep t ms c).Orderly := by
  obtain ⟨_, apart⟩ := orderly.runs_apart runs
  refine ⟨orderly.current, orderly.distinct, ?_, ?_⟩
  · intro p x there
    have ne : x ≠ t := fun same => apart p (same ▸ there)
    obtain ⟨alive, block⟩ := orderly.queued p x there
    exact ⟨alive, by simpa [Board.sleep, ne] using block⟩
  · intro x p alive on
    by_cases self : x = t
    · simp [Board.sleep, self] at on
    · exact orderly.parked x p alive (by simpa [Board.sleep, self] using on)

theorem dispatch (orderly : b.Orderly) {best : TaskId} (live : b.Live best)
    (runnable : b.Runnable best) : (b.dispatch best).Orderly := by
  refine ⟨⟨best, rfl, live⟩, orderly.distinct, ?_, ?_⟩
  · intro p x there
    obtain ⟨alive, blocked, queue, count⟩ := orderly.queued p x there
    have ne : x ≠ best := by
      rintro rfl
      rcases runnable with state | state <;> cases blocked.symm.trans state
    refine ⟨alive, ?_, ?_, ?_⟩ <;> rw [dispatch_tcb]
    · simp [ne, blocked]
    · exact queue
    · exact count
  · intro x p alive on
    rw [dispatch_tcb] at on
    exact orderly.parked x p alive on

end Orderly
end Board

namespace System

variable {idle : TaskId} {s s' : System} {t : TaskId}

theorem linked_of_queued {k : Kernel} {inside : TaskId → Option Call} {o : Waitable}
    (orderly : (k.board inside).Orderly) (there : t ∈ k.waiters o) : k.Linked t := by
  obtain ⟨_, _, queue, count⟩ := orderly.queued o t there
  exact ⟨count.trans queue.symm, fun p on => (orderly.queued p t on).2.2.1⟩

/-- Blocking the running task, if there is room for it. -/
theorem blockCurrent_orderly {k k' : Kernel} {inside : TaskId → Option Call} {o : Waitable}
    {max : Nat} {n : UInt32} (orderly : (k.board inside).Orderly) (runs : (k.board inside).Runs t)
    (block : k.blockCurrent t o max n = some k') : (k'.board inside).Orderly := by
  by_cases room : (k.waiters o).length < max
  · obtain ⟨k'', block', shape⟩ := Kernel.blockCurrent_board inside t n (.delay 0) room
    obtain rfl := Option.some.inj (block.symm.trans block')
    have parked := orderly.park runs o n (.delay 0)
    rw [← shape] at parked
    exact parked.of_eq rfl rfl rfl rfl
  · have full : (k.queues o).waitCount ≥ max := by simpa [Kernel.waiters] using room
    simp [Kernel.blockCurrent, full] at block

theorem mutexAcquire_orderly {m : Nat} {n : UInt32} {out : Outcome} {k : Kernel}
    (orderly : s.board.Orderly) (runs : s.board.Runs t)
    (exec : s.kernel.osMutexAcquire m n = some (out, k)) : (k.board s.inside).Orderly := by
  have current : s.kernel.currentTcb = some t := runs.1
  have frame : ∀ {k : Kernel}, (k.board s.inside).Orderly → ∀ p y,
      (({ k with primask := p, pendSv := y } : Kernel).board s.inside).Orderly :=
    fun orderly _ _ => orderly.of_eq rfl rfl rfl rfl
  unfold Kernel.osMutexAcquire at exec
  dsimp only [Kernel.osEnterCritical] at exec
  split at exec
  · obtain ⟨rfl, rfl⟩ := Prod.mk.inj (Option.some.inj exec)
    exact orderly.of_eq rfl rfl rfl rfl
  · split at exec
    · obtain ⟨rfl, rfl⟩ := Prod.mk.inj (Option.some.inj exec)
      exact orderly
    · split at exec
      · obtain ⟨rfl, rfl⟩ := Prod.mk.inj (Option.some.inj exec)
        exact orderly
      · split at exec
        · rename_i caller owner here held
          obtain rfl : t = caller := Option.some.inj (current.symm.trans here)
          let masked : Kernel := { s.kernel with primask := true }
          have lent := donate_board masked owner t s.inside
          have orderly' : ((masked.donate owner t).board s.inside).Orderly :=
            lent ▸ Board.Orderly.lend (b := masked.board s.inside) orderly owner t
          have runs' : ((masked.donate owner t).board s.inside).Runs t := by
            rw [lent]
            exact runs.lend owner t
          split at exec
          · obtain ⟨rfl, rfl⟩ := Prod.mk.inj (Option.some.inj exec)
            exact orderly'
          · rename_i k' block
            obtain ⟨rfl, rfl⟩ := Prod.mk.inj (Option.some.inj exec)
            exact frame (blockCurrent_orderly orderly' runs' block) _ _
        · cases exec

theorem wakeTask_orderly {k : Kernel} {inside : TaskId → Option Call} {o : Waitable}
    (orderly : (k.board inside).Orderly) (there : t ∈ k.waiters o) :
    ((k.wakeTask t).osYield.board inside).Orderly := by
  rw [Kernel.wakeTask_board inside (linked_of_queued orderly there)]
  exact orderly.grant t

theorem mutexRelease_orderly {m : Nat} (orderly : s.board.Orderly) :
    ((s.kernel.osMutexRelease m).board s.inside).Orderly := by
  let masked : Kernel := { s.kernel with primask := true }
  let settled := masked.dropDonation m
  have orderly' : (settled.board s.inside).Orderly :=
    settle_board masked m s.inside ▸ Board.Orderly.settle (b := masked.board s.inside) orderly m
  have found := Kernel.pickWaiter_first s.inside settled (.mutex m)
  unfold Kernel.osMutexRelease
  dsimp only [Kernel.osEnterCritical]
  split
  · rename_i next picked
    have queued : next ∈ settled.waiters (.mutex m) := Board.mem_of_first (found.symm.trans picked)
    let owned := settled.setMutex m { settled.mutexes m with owner := some next }
    have orderly' : (owned.board s.inside).Orderly :=
      orderly'.of_eq rfl rfl rfl rfl
    have woken := wakeTask_orderly orderly' queued
    exact woken.of_eq rfl rfl rfl rfl
  · exact orderly'.of_eq rfl rfl rfl rfl

theorem semaphoreAcquire_orderly {x : Nat} {n : UInt32} {out : Outcome} {k : Kernel}
    (orderly : s.board.Orderly) (runs : s.board.Runs t)
    (exec : s.kernel.osSemaphoreAcquire x n = some (out, k)) : (k.board s.inside).Orderly := by
  unfold Kernel.osSemaphoreAcquire at exec
  dsimp only [Kernel.osEnterCritical] at exec
  split at exec
  · obtain ⟨rfl, rfl⟩ := Prod.mk.inj (Option.some.inj exec)
    exact orderly.of_eq rfl rfl rfl rfl
  · split at exec
    · obtain ⟨rfl, rfl⟩ := Prod.mk.inj (Option.some.inj exec)
      exact orderly
    · obtain ⟨caller, here, same⟩ := Option.map_eq_some_iff.mp exec
      obtain rfl : t = caller := Option.some.inj (runs.1.symm.trans here)
      let masked : Kernel := { s.kernel with primask := true }
      split at same
      · obtain ⟨rfl, rfl⟩ := Prod.mk.inj same
        exact orderly
      · rename_i k' block
        obtain ⟨rfl, rfl⟩ := Prod.mk.inj same
        have orderly' : (masked.board s.inside).Orderly := orderly
        have parked := blockCurrent_orderly orderly' runs block
        exact parked.of_eq rfl rfl rfl rfl

theorem semaphoreRelease_orderly {x : Nat} (orderly : s.board.Orderly) :
    ((s.kernel.osSemaphoreRelease x).board s.inside).Orderly := by
  let masked : Kernel := { s.kernel with primask := true }
  have found := Kernel.pickWaiter_first s.inside masked (.semaphore x)
  unfold Kernel.osSemaphoreRelease
  dsimp only [Kernel.osEnterCritical]
  split
  · rename_i next picked
    have queued : next ∈ masked.waiters (.semaphore x) := Board.mem_of_first (found.symm.trans picked)
    have orderly' : (masked.board s.inside).Orderly := orderly
    have woken := wakeTask_orderly orderly' queued
    exact woken.of_eq rfl rfl rfl rfl
  · split <;> exact orderly.of_eq rfl rfl rfl rfl

theorem delay_orderly {ms : UInt32} {out : Outcome} {k : Kernel} (orderly : s.board.Orderly)
    (runs : s.board.Runs t) (exec : (Call.delay ms).exec s.kernel = some (out, k)) :
    (k.board s.inside).Orderly := by
  simp only [Call.exec, Kernel.osDelay, Option.map_eq_some_iff] at exec
  obtain ⟨⟨parked, k'⟩, exec, same⟩ := exec
  split at exec
  · obtain ⟨rfl, rfl⟩ := Prod.mk.inj (Option.some.inj exec)
    obtain ⟨rfl, rfl⟩ := Prod.mk.inj same
    exact orderly
  · dsimp only [Kernel.osEnterCritical] at exec
    obtain ⟨caller, here, done⟩ := Option.map_eq_some_iff.mp exec
    obtain rfl : t = caller := Option.some.inj (runs.1.symm.trans here)
    obtain ⟨rfl, rfl⟩ := Prod.mk.inj done
    obtain ⟨rfl, rfl⟩ := Prod.mk.inj same
    have slept := orderly.sleep runs ms (.delay ms)
    exact slept.of_eq rfl rfl rfl rfl

theorem pass_orderly {k : Kernel} (orderly : s.board.Orderly)
    (picks : Kernel.osScheduler { s.kernel with pendSv := false } = some k) :
    (k.board s.inside).Orderly := by
  unfold Kernel.osScheduler at picks
  split at picks
  · obtain rfl := Option.some.inj picks
    exact orderly.of_eq rfl rfl rfl rfl
  · split at picks
    · split at picks
      · obtain rfl := Option.some.inj picks
        exact orderly.of_eq rfl rfl rfl rfl
      · rename_i best found
        obtain rfl := Option.some.inj picks
        have picked := Kernel.best_picks s.inside found
        have dispatched := orderly.dispatch picked.live picked.runnable
        rw [Kernel.dispatch_board]
        exact dispatched.of_eq rfl rfl rfl rfl
    · cases picks

end System

/-- Every step but a tick, from any state in which the queues and the control blocks agree. -/
theorem Step.orderly {idle : TaskId} {s s' : System} {e : Event} (h : Step idle s e s')
    (other : e ≠ .tick) (orderly : s.board.Orderly) : s'.board.Orderly := by
  cases h with
  | @call t c out k runs unmasked free exec awake =>
    have after : (k.board s.inside).Orderly := by
      cases c with
      | mutexAcquire m n => exact System.mutexAcquire_orderly orderly runs exec
      | mutexRelease m =>
        obtain ⟨rfl, rfl⟩ := Prod.mk.inj (Option.some.inj exec)
        exact System.mutexRelease_orderly orderly
      | semaphoreAcquire x n => exact System.semaphoreAcquire_orderly orderly runs exec
      | semaphoreRelease x =>
        obtain ⟨rfl, rfl⟩ := Prod.mk.inj (Option.some.inj exec)
        exact System.semaphoreRelease_orderly orderly
      | delay ms => exact System.delay_orderly orderly runs exec
    exact after.of_eq rfl rfl rfl rfl
  | resume => exact orderly.of_eq rfl rfl rfl rfl
  | post x => exact System.semaphoreRelease_orderly orderly
  | tick => exact absurd rfl other
  | pass picks => exact System.pass_orderly (s := s) orderly picks

/-! ### Ticks -/

theorem Board.Orderly.linked {k : Kernel} {inside : TaskId → Option Call}
    (orderly : (k.board inside).Orderly) : QueuesLinked k where
  distinct := orderly.distinct
  parked o t there := (orderly.queued o t there).imp_right And.right
  queued t o live on := orderly.parked t o live on

namespace Handler

/-- The tasks that still wait are blocked, and one that is being made ready waits no more. -/
structure Asleep (S : Queues) (s : Handler) : Prop where
  blocked : ∀ o, ∀ u ∈ S o, (s.kernel.osTasks u).state = .blocked
  waking : ∀ t, s.pc = .wake t → ∀ o, t ∉ S o

section
variable {k : Kernel} {S : Queues} {pc : Pc} {s t : Handler} {past : Tick} {u : TaskId}
  {o : Waitable}

/-- A task is made ready when it is on no queue. -/
theorem Shape.wakes (shape : Shape k S pc) (step : Handler.statement ⟨k, pc⟩ = some s)
    (wake : s.pc = .wake u) : u ∉ S o := by
  have place := shape.place
  cases pc with
  | result t =>
    obtain rfl := Option.some.inj step
    obtain rfl := Pc.wake.inj wake
    exact place.2 o
  | waits t =>
    simp only [Handler.statement] at step
    split at step <;> obtain rfl := Option.some.inj step
    · cases wake
    · rename_i off
      obtain rfl := Pc.wake.inj wake
      intro there
      exact off (by simp [(shape.linked o t there).1])
  | enter | clearQueue | clearCount | wake | yield =>
    obtain rfl := Option.some.inj step
    cases wake
  | countDown =>
    obtain rfl := Option.some.inj step
    simp only [edit] at wake
    split at wake <;> cases wake
  | next | sleeping | guard | move | decrement =>
    simp only [Handler.statement] at step
    split at step <;> obtain rfl := Option.some.inj step <;> cases wake
  | search | compare | shift =>
    simp only [Handler.statement] at step
    split at step
    · obtain rfl := Option.some.inj step
      cases wake
    · split at step <;> obtain rfl := Option.some.inj step <;> cases wake
  | finished | fault => cases step

theorem of_mem_afterStatement (there : u ∈ afterStatement S pc o) : u ∈ S o := by
  cases pc with
  | decrement => exact List.mem_of_mem_erase there
  | enter | next | sleeping | countDown | waits | guard | search | compare | shift | move
    | clearQueue | clearCount | result | wake | yield | finished | fault => exact there

theorem afterTasks_state (tasks : TaskId → Tcb) (other : pc ≠ .wake u) :
    (afterTasks tasks pc u).state = (tasks u).state := by
  cases pc with
  | countDown v | clearQueue v | clearCount v | result v =>
    by_cases self : u = v
    · subst self
      simp [afterTasks]
    · simp [afterTasks, self]
  | wake v =>
    have ne : u ≠ v := fun same => other (congrArg Pc.wake same.symm)
    simp [afterTasks, ne]
  | enter | next | sleeping | waits | guard | search | compare | shift | move | decrement | yield
    | finished | fault => rfl

theorem Asleep.statement (asleep : Asleep S ⟨k, pc⟩) (shape : Shape k S pc)
    (step : Handler.statement ⟨k, pc⟩ = some s) : Asleep (afterStatement S pc) s where
  blocked o u there := by
    have before := of_mem_afterStatement there
    rw [(statement_frame step).2.2, afterTasks_state _ fun wake => asleep.waking u wake o before]
    exact asleep.blocked o u before
  waking u wake o there := shape.wakes step wake (of_mem_afterStatement there)

theorem statement_current (step : Handler.statement s = some t) :
    t.kernel.currentTcb = s.kernel.currentTcb := by
  obtain ⟨k, pc⟩ := s
  cases pc with
  | enter | countDown | clearQueue | clearCount | result | wake | yield =>
    obtain rfl := Option.some.inj step
    rfl
  | next | sleeping | waits | guard | move | decrement =>
    simp only [Handler.statement] at step
    split at step <;> obtain rfl := Option.some.inj step <;> rfl
  | search | compare | shift =>
    simp only [Handler.statement] at step
    split at step
    · obtain rfl := Option.some.inj step
      rfl
    · split at step <;> obtain rfl := Option.some.inj step <;> rfl
  | finished | fault => cases step

theorem Asleep.post (asleep : Asleep S ⟨k, pc⟩) (shape : Shape k S pc) {x : Nat}
    (harmless : Harmless ⟨k, pc⟩ x) (picked : k.posted x = some u) :
    Asleep (without S u) ⟨k.osSemaphoreRelease x, pc⟩ where
  blocked o v there := by
    obtain ⟨queue, count⟩ := shape.linked _ u (shape.picked harmless picked)
    obtain ⟨other, there⟩ := (shape.distinct o).mem_erase_iff.mp there
    have same := (Woke.of_post picked queue count).others v other
    exact (congrArg Tcb.state same).trans (asleep.blocked o v there)
  waking v wake o there := asleep.waking v wake o (List.mem_of_mem_erase there)

theorem asleep_of_run {inside : TaskId → Option Call} (orderly : (k.board inside).Orderly)
    (run : Run (· = ⟨k, .enter⟩) HarmlessStep past s) :
    Asleep (left k (past.awake ++ past.unlinked)) s ∧ s.kernel.currentTcb = k.currentTcb := by
  induction run with
  | start here =>
    subst here
    refine ⟨⟨?_, nofun⟩, rfl⟩
    intro o u there
    exact (orderly.queued o u (mem_left.mp there).1).2.1
  | @next past s t e run step ih =>
    obtain ⟨asleep, current⟩ := ih
    obtain ⟨books, _⟩ := books_of_run orderly.linked run
    have distinct := books.shape.distinct
    obtain ⟨done, harmless⟩ := step
    cases e with
    | statement =>
      refine ⟨?_, (statement_current done).trans current⟩
      rw [unlinked_statement]
      exact left_statement distinct s.pc ▸ asleep.statement books.shape done
    | post x =>
      obtain rfl := Option.some.inj done
      cases picked : s.kernel.posted x with
      | none =>
        have woken : Tick.woken (⟨s, .post x, ⟨s.kernel.osSemaphoreRelease x, s.pc⟩⟩ :: past) =
            Tick.woken past := by
          simp [Tick.woken, picked]
        rw [Tick.awake, woken, Kernel.osSemaphoreRelease_counts picked]
        split <;> exact ⟨⟨asleep.blocked, asleep.waking⟩, current⟩
      | some u =>
        have harmless := harmless x rfl
        obtain ⟨queue, count⟩ := books.shape.linked _ u (books.shape.picked harmless picked)
        have woken : Tick.woken (⟨s, .post x, ⟨s.kernel.osSemaphoreRelease x, s.pc⟩⟩ :: past) =
            (x, u) :: Tick.woken past := by
          simp [Tick.woken, picked]
        have same := congrArg Kernel.currentTcb (Kernel.osSemaphoreRelease_wakes picked queue count)
        refine ⟨?_, same.trans current⟩
        rw [Tick.awake, woken, List.map_cons]
        exact left_cons distinct ▸ asleep.post books.shape harmless picked

/-- **A tick keeps the queues in order** while the posts in it are harmless. -/
theorem orderly_of_tick {inside : TaskId → Option Call} (orderly : (k.board inside).Orderly)
    (run : Run (· = ⟨k, .enter⟩) HarmlessStep past s) (done : s.pc = .finished) :
    (s.kernel.board inside).Orderly := by
  obtain ⟨books, timers, _⟩ := books_of_run orderly.linked run
  obtain ⟨asleep, current⟩ := asleep_of_run orderly run
  have outside : s.kernel.waiters = left k (past.awake ++ past.unlinked) := by
    have place := books.shape.place
    rwa [done] at place
  obtain ⟨distinct, parked, queued⟩ := books.linked timers orderly.linked outside (by simp [done])
  refine ⟨?_, distinct, ?_, queued⟩
  · obtain ⟨c, here, live⟩ := orderly.current
    refine ⟨c, current.trans here, ?_⟩
    change c.val < s.kernel.taskCount
    rw [timers.count]
    exact live
  · intro o t there
    obtain ⟨live, pointers⟩ := parked o t there
    exact ⟨live, asleep.blocked o t (outside ▸ there), pointers⟩

end
end Handler

/-! ### Runs -/

/-- A step of the kernel in which a tick is a run of its handler, preempted by harmless posts. -/
inductive PreemptedStep (idle : TaskId) : System → Option Tick → System → Prop
  | step {s s' : System} {e : Event} (step : Step idle s e s') (other : e ≠ .tick) :
      PreemptedStep idle s none s'
  | tick {s : System} {past : Tick} {h : Handler}
      (run : Run (· = ⟨s.kernel, .enter⟩) Handler.HarmlessStep past h) (done : h.pc = .finished) :
      PreemptedStep idle s (some past) { s with kernel := h.kernel }

theorem orderly_of_run {idle : TaskId} {past : List (Transition System (Option Tick))} {s : System}
    (run : Run (Launched idle) (PreemptedStep idle) past s) : s.board.Orderly := by
  induction run with
  | start launched => exact launched.sound.orderly
  | next _ step orderly =>
    cases step with
    | step step other => exact step.orderly other orderly
    | tick run done => exact Handler.orderly_of_tick orderly run done

/-- **The kernel under preemption.** In every run in which the posts that strike within the ticks are
harmless, the queues and the control blocks describe the same waits in every state, and a tick from
there reads through no NULL pointer and loses no token. -/
theorem preempted_runs {idle : TaskId} {past : List (Transition System (Option Tick))} {s : System}
    (run : Run (Launched idle) (PreemptedStep idle) past s) :
    (∀ o, (s.kernel.waiters o).Nodup ∧ ∀ t ∈ s.kernel.waiters o, s.kernel.Live t ∧
      (s.kernel.osTasks t).state = .blocked ∧ (s.kernel.osTasks t).waitQueue = some o ∧
        (s.kernel.osTasks t).waitCount = some o) ∧
    (∀ t o, s.kernel.Live t → (s.kernel.osTasks t).waitQueue = some o → t ∈ s.kernel.waiters o) ∧
    ∀ tick h, Run (· = ⟨s.kernel, .enter⟩) Handler.HarmlessStep tick h → h.pc ≠ .fault ∧
      (∀ x, (s.kernel.semaphores x).count + Tick.posts x tick =
        (h.kernel.semaphores x).count + Tick.handed x tick + Tick.dropped x tick) ∧
      ∀ x u, (x, u) ∈ Tick.woken tick → u ∈ s.kernel.waiters (.semaphore x) ∧
        (h.kernel.osTasks u).waitResult = .success := by
  have orderly := orderly_of_run run
  refine ⟨fun o => ⟨orderly.distinct o, orderly.queued o⟩, orderly.parked, ?_⟩
  intro tick h struck
  obtain ⟨books, _, balanced⟩ := Handler.books_of_run orderly.linked struck
  refine ⟨?_, balanced, ?_⟩
  · intro fault
    have place := books.shape.place
    rw [fault] at place
    exact place
  · intro x u woken
    exact ⟨books.former x u woken, books.success u (List.mem_map_of_mem woken)⟩

theorem preempted_of_steps {idle : TaskId} {start : System → Prop} {past : History} {s : System}
    (run : Run start (fun s e t => Step idle s e t ∧ e ≠ .tick) past s) :
    ∃ past, Run start (PreemptedStep idle) past s := by
  induction run with
  | start here => exact ⟨[], .start here⟩
  | next _ step ih =>
    obtain ⟨past, run⟩ := ih
    exact ⟨_, .next run (.step step.1 step.2)⟩

/-- A post strikes between the test of a timer and its decrement. The task that it wakes is ready
with the longest timer there is, and the queues are in order. -/
theorem preempted_runs_wrapped : ∃ past s, Run (Launched 0) (PreemptedStep 0) past s ∧
    (s.kernel.osTasks 1).state = .ready ∧ (s.kernel.osTasks 1).sleepTime = 0xFFFFFFFF ∧
    (∀ o, (s.kernel.waiters o).Nodup ∧ ∀ t ∈ s.kernel.waiters o, s.kernel.Live t ∧
      (s.kernel.osTasks t).state = .blocked ∧ (s.kernel.osTasks t).waitQueue = some o ∧
        (s.kernel.osTasks t).waitCount = some o) ∧
    (∀ t o, s.kernel.Live t → (s.kernel.osTasks t).waitQueue = some o → t ∈ s.kernel.waiters o) ∧
    ∀ tick h, Run (· = ⟨s.kernel, .enter⟩) Handler.HarmlessStep tick h → h.pc ≠ .fault ∧
      (∀ x, (s.kernel.semaphores x).count + Tick.posts x tick =
        (h.kernel.semaphores x).count + Tick.handed x tick + Tick.dropped x tick) ∧
      ∀ x u, (x, u) ∈ Tick.woken tick → u ∈ s.kernel.waiters (.semaphore x) ∧
        (h.kernel.osTasks u).waitResult = .success := by
  obtain ⟨_, s₀, early, done⟩ := rehearse_run
    (show rehearse 0 (fun _ => ⟨0, 1⟩) [0, 1] (fun _ e => e ≠ .tick)
      (fun _ s => strikes harmless
        (fun _ h => h.pc = .finished ∧ (h.kernel.osTasks 1).state = .ready ∧
          (h.kernel.osTasks 1).sleepTime = 0xFFFFFFFF)
        (List.replicate 5 .statement ++ [.post 0] ++ List.replicate 3 .statement) s.kernel)
      [.call 1 (.semaphoreAcquire 0 7) .parked, .pass] by
      decide +kernel)
  have early : Run (Launched 0) (fun s e t => Step 0 s e t ∧ e ≠ .tick) _ s₀ :=
    early.weaken (fun _ h => h.launched) fun _ _ _ h => ⟨h.1, of_decide_eq_true h.2⟩
  obtain ⟨_, first⟩ := preempted_of_steps early
  obtain ⟨_, h, struck, finish⟩ := strikes_run done
  obtain ⟨pc, ready, timer⟩ := of_decide_eq_true finish
  have run := Run.next first (.tick (harmless_run struck) pc)
  exact ⟨_, _, run, ready, timer, preempted_runs run⟩

end Sentinel
