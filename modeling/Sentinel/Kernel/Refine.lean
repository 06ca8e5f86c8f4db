import Sentinel.Kernel.Soundness
import Mathlib.Data.Fintype.EquivFin

/-! The C code refines the board: every step of the kernel, seen without arrays
and masks, is a step of the board. -/

namespace Sentinel

/-- The board that a kernel state shows. -/
def Kernel.board (k : Kernel) (inside : TaskId → Option Call) : Board where
  taskCount := k.taskCount
  tcb := k.osTasks
  current := k.currentTcb
  launched := k.kernelRunning
  mutexes := k.mutexes
  semaphores := k.semaphores
  waiters := k.waiters
  inside := inside
  switch := k.pendSv

def System.board (s : System) : Board := s.kernel.board s.inside

namespace Kernel

variable {k : Kernel} {t : TaskId} (inside : TaskId → Option Call)

/-- The two pointers of a task agree, and it is on no queue but the one they lead to. -/
structure Linked (k : Kernel) (t : TaskId) : Prop where
  agree : (k.osTasks t).waitCount = (k.osTasks t).waitQueue
  queue : ∀ o, t ∈ k.waiters o → (k.osTasks t).waitQueue = some o

theorem removeWaiter_waiters (k : Kernel) (t : TaskId) (o : Waitable) :
    (k.removeWaiter t o o).waiters = Function.update k.waiters o ((k.waiters o).erase t) := by
  funext p
  by_cases here : p = o
  · subst here
    simpa [waiters, removeWaiter] using
      Cells.contents_removeFirst t (k.queues p).waitQueue (k.queues p).waitCount
  · simp [waiters, removeWaiter, here]

theorem waitQueueRemove_board (linked : k.Linked t) :
    (k.waitQueueRemove t).board inside = { k.board inside with
      waiters := fun o => (k.waiters o).erase t
      tcb := Function.update k.osTasks t
        { k.osTasks t with waitQueue := none, waitCount := none } } := by
  unfold waitQueueRemove
  cases on : (k.osTasks t).waitQueue with
  | none =>
    have off : ∀ o, t ∉ k.waiters o := fun o h => by simpa [on] using linked.queue o h
    have same : Function.update k.osTasks t
        { k.osTasks t with waitQueue := none, waitCount := none } = k.osTasks := by
      rw [Function.update_eq_self_iff, ← on]
      nth_rewrite 2 [← linked.agree]
      rfl
    simp only [same, List.erase_of_not_mem (off _)]
    rfl
  | some o =>
    have agree : (k.osTasks t).waitCount = some o := linked.agree.trans on
    have others : (fun p => (k.waiters p).erase t) =
        Function.update k.waiters o ((k.waiters o).erase t) := by
      funext p
      by_cases here : p = o
      · simp [here]
      · have off : t ∉ k.waiters p := fun h => here (by
          simpa [on, eq_comm] using linked.queue p h)
        simp [here, List.erase_of_not_mem off]
    simp only [agree, others, ← removeWaiter_waiters]
    rfl

theorem wakeTask_board (linked : k.Linked t) :
    (k.wakeTask t).osYield.board inside = (k.board inside).grant t := by
  have removed := waitQueueRemove_board inside linked
  have tasks := congrArg Board.tcb removed
  have shape : (k.wakeTask t).osYield.board inside =
      { (k.waitQueueRemove t).board inside with
        tcb := Function.update (k.waitQueueRemove t).osTasks t
          { (k.waitQueueRemove t).osTasks t with
            sleepTime := 0, waitResult := .success, state := .ready }
        switch := true } := rfl
  simp only [board] at tasks
  rw [shape, removed, tasks]
  simp [Board.grant, board]

theorem pickWaiter_first (k : Kernel) (o : Waitable) :
    k.pickWaiter (k.queues o).waitQueue (k.queues o).waitCount = (k.board inside).first o :=
  Cells.foldl_better _ _

theorem blockCurrent_board (t : TaskId) (timeout : UInt32) (c : Call) {o : Waitable} {max : Nat}
    (room : (k.waiters o).length < max) :
    ∃ k', k.blockCurrent t o max timeout = some k' ∧
      k'.osYield.board (Function.update inside t (some c)) =
        (k.board inside).park t o timeout c := by
  have count : ¬ (k.queues o).waitCount ≥ max := by simpa [waiters] using room
  refine ⟨_, by simp only [blockCurrent, if_neg count]; rfl, ?_⟩
  have pushed : (k.setQueue o
      { waitQueue := Function.update (k.queues o).waitQueue (k.queues o).waitCount t
        waitCount := (k.queues o).waitCount + 1 }).waiters =
      Function.update k.waiters o (k.waiters o ++ [t]) := by
    funext p
    by_cases here : p = o
    · subst here
      simpa [waiters] using Cells.contents_push (k.queues p).waitQueue (k.queues p).waitCount t
    · simp [waiters, here]
  simp only [Board.park, board, ← pushed]
  rfl

/-- The tick as the loop has it after the tasks of `l`. -/
def elapsed (l : List TaskId) (b : Board) : Board :=
  { b with
    tcb := fun t => if t ∈ l then Board.elapse (b.tcb t) else b.tcb t
    waiters := fun o => (b.waiters o).filter fun t => ¬ (t ∈ l ∧ (b.tcb t).sleepTime = 1) }

/-- A timer that runs out takes its task off the queue, wherever that is. -/
theorem expire_board (linked : k.Linked t) (distinct : ∀ o, (k.waiters o).Nodup)
    (timer : (k.osTasks t).sleepTime = 1) :
    (k.tickTask t).board inside = elapsed [t] (k.board inside) := by
  have gone : ∀ o, (k.waiters o).erase t =
      (k.waiters o).filter fun x => ¬ (x ∈ [t] ∧ (k.osTasks x).sleepTime = 1) := by
    intro o
    rw [(distinct o).erase_eq_filter]
    apply List.filter_congr
    intro x _
    by_cases self : x = t
    · simp [self, timer]
    · simp [self]
  let down := k.setTcb t { k.osTasks t with sleepTime := (k.osTasks t).sleepTime - 1 }
  have ended : (down.osTasks t).sleepTime = 0 := by simp [down, timer]
  have same : (down.osTasks t).waitQueue = (k.osTasks t).waitQueue := by simp [down]
  let out := if (down.osTasks t).waitQueue ≠ none then
      (down.waitQueueRemove t).setTcb t
        { (down.waitQueueRemove t).osTasks t with waitResult := .timeout }
    else down
  have woken : k.tickTask t = out.setTcb t { out.osTasks t with state := .ready } := by
    rw [tickTask, if_neg (by simp [timer])]
    exact if_pos ended
  rw [woken]
  cases on : (k.osTasks t).waitQueue with
  | none =>
    have off : ∀ o, t ∉ k.waiters o := fun o h => by simpa [on] using linked.queue o h
    have still : out = down := if_neg (by simp [same, on])
    rw [still]
    ext1 <;> try rfl
    · funext x
      by_cases self : x = t
      · simp [elapsed, Board.elapse, board, down, self, timer, on, linked.agree]
      · simp [elapsed, board, down, self]
    · funext o
      exact (List.erase_of_not_mem (off o)).symm.trans (gone o)
  | some p =>
    have linked' : down.Linked t :=
      ⟨by simpa [down] using linked.agree, by simpa [down] using linked.queue⟩
    have removed := waitQueueRemove_board inside linked'
    have tasks : (down.waitQueueRemove t).osTasks = _ := congrArg Board.tcb removed
    have left : out = (down.waitQueueRemove t).setTcb t
        { (down.waitQueueRemove t).osTasks t with waitResult := .timeout } :=
      if_pos (by simp [same, on])
    have shape : (out.setTcb t { out.osTasks t with state := .ready }).board inside =
        { (down.waitQueueRemove t).board inside with
          tcb := Function.update (down.waitQueueRemove t).osTasks t
            { (down.waitQueueRemove t).osTasks t with
              waitResult := .timeout, state := .ready } } := by
      rw [left]
      simp only [setTcb, board, Function.update_self, Function.update_idem]
      rfl
    rw [shape, removed, tasks]
    ext1 <;> try rfl
    · funext x
      by_cases self : x = t
      · simp [elapsed, Board.elapse, board, down, self, timer, on]
      · simp [elapsed, board, down, self]
    · funext o
      exact gone o

theorem tickTask_board (linked : k.Linked t) (distinct : ∀ o, (k.waiters o).Nodup) :
    (k.tickTask t).board inside = elapsed [t] (k.board inside) := by
  by_cases zero : (k.osTasks t).sleepTime = 0
  · have still : k.tickTask t = k := by simp [tickTask, zero]
    rw [still]
    ext1 <;> try rfl
    · funext x
      by_cases self : x = t
      · simp [elapsed, self, Board.elapse, board, zero]
      · simp [elapsed, self]
    · funext o
      refine (List.filter_eq_self.mpr fun x _ => ?_).symm
      by_cases self : x = t
      · simp [self, board, zero]
      · simp [self]
  · by_cases one : (k.osTasks t).sleepTime = 1
    · exact expire_board inside linked distinct one
    · have more : (k.osTasks t).sleepTime - 1 ≠ 0 := fun h => one (by
        have := UInt32.sub_add_cancel (k.osTasks t).sleepTime 1
        rw [h] at this
        exact this.symm)
      have down : k.tickTask t =
          k.setTcb t { k.osTasks t with sleepTime := (k.osTasks t).sleepTime - 1 } := by
        simp [tickTask, zero, more]
      rw [down]
      ext1 <;> try rfl
      · funext x
        by_cases self : x = t
        · simp [elapsed, self, Board.elapse, board, zero, one]
        · simp [elapsed, self, board]
      · funext o
        refine (List.filter_eq_self.mpr fun x _ => ?_).symm
        by_cases self : x = t
        · simp [self, board, one]
        · simp [self]

theorem foldl_tickTask_board (l : List TaskId) (nodup : l.Nodup) (linked : ∀ t ∈ l, k.Linked t)
    (distinct : ∀ o, (k.waiters o).Nodup) :
    (l.foldl tickTask k).board inside = elapsed l (k.board inside) := by
  induction l generalizing k with
  | nil => simp [elapsed, board]
  | cons t l ih =>
    obtain ⟨fresh, nodup⟩ := List.nodup_cons.mp nodup
    have first := tickTask_board inside (linked t List.mem_cons_self) distinct
    have tasks : (k.tickTask t).osTasks = _ := congrArg Board.tcb first
    have queues : (k.tickTask t).waiters = _ := congrArg Board.waiters first
    have apart : ∀ x ∈ l, x ≠ t := fun x hx same => fresh (same ▸ hx)
    rw [List.foldl_cons, ih nodup, first]
    · ext1 <;> try rfl
      · funext x
        by_cases self : x = t
        · simp [elapsed, self, fresh]
        · simp [elapsed, self]
      · funext o
        simp only [elapsed, List.filter_filter]
        apply List.filter_congr
        intro x _
        by_cases self : x = t
        · simp [self, fresh]
        · simp [self]
    · intro x hx
      have same : (k.tickTask t).osTasks x = k.osTasks x := by
        rw [tasks]
        simp [elapsed, apart x hx, board]
      have link := linked x (List.mem_cons_of_mem t hx)
      refine ⟨by rw [same]; exact link.agree, fun o h => ?_⟩
      rw [same]
      rw [queues] at h
      exact link.queue o (List.mem_of_mem_filter h)
    · intro o
      rw [queues]
      exact (distinct o).filter _

theorem sysTickHandler_board (linked : ∀ t, k.Live t → k.Linked t)
    (distinct : ∀ o, (k.waiters o).Nodup) :
    k.sysTickHandler.board inside = (k.board inside).tick := by
  let ticked : Kernel := { k with osTicks := k.osTicks + 1 }
  have swept : (k.slots.foldl tickTask ticked).board inside = _ := foldl_tickTask_board inside
    k.slots k.slots_nodup (fun t ht => ⟨(linked t (mem_slots.mp ht)).agree,
      (linked t (mem_slots.mp ht)).queue⟩) distinct
  have shape : k.sysTickHandler.board inside =
      { (k.slots.foldl tickTask ticked).board inside with
        switch := true } := rfl
  have same : ticked.board inside = k.board inside := rfl
  rw [shape, swept, same]
  ext1 <;> try rfl
  · funext x
    by_cases live : x.val < k.taskCount
    · simp [elapsed, Board.tick, mem_slots, board, Live, Board.Live, live]
    · simp [elapsed, Board.tick, mem_slots, board, Live, Board.Live, live]
  · funext o
    apply List.filter_congr
    intro x _
    simp [mem_slots, board, Live, Board.Live, Board.Due]

/-! ### The scan of the scheduler -/

theorem foldl_scanStep (k : Kernel) (l : List TaskId) (seed : Option TaskId) :
    l.foldl k.scanStep seed =
      (l.filter k.Runnable).foldl (Cells.better fun t => (k.osTasks t).currentPriority) seed := by
  induction l generalizing seed with
  | nil => rfl
  | cons t l ih =>
    by_cases run : k.Runnable t
    · simp [scanStep, run, ih]
    · simp [scanStep, run, ih]

theorem best_argmax (k : Kernel) : k.best =
    ((k.scanOrder k.scanStart).filter k.Runnable).argmax fun t => (k.osTasks t).currentPriority := by
  rw [best, foldl_scanStep, Cells.foldl_better]

theorem mem_scanOrder {k : Kernel} {start : Nat} {t : TaskId} :
    t ∈ k.scanOrder start ↔ k.Live t := by
  simp only [scanOrder, List.mem_map, List.mem_finRange, true_and]
  constructor
  · rintro ⟨i, rfl⟩
    exact Nat.mod_lt _ i.pos
  · intro live
    have pos : 0 < k.taskCount := Nat.zero_lt_of_lt live
    exact ⟨⟨Cyclic.offset start k.taskCount t.val, Cyclic.offset_lt start _ pos⟩,
      Fin.ext (Cyclic.add_offset start live)⟩

theorem scanOrder_rises (k : Kernel) (start : Nat) :
    (k.scanOrder start).Pairwise fun x y =>
      Cyclic.offset start k.taskCount x.val < Cyclic.offset start k.taskCount y.val := by
  have place : ∀ i : Fin k.taskCount,
      Cyclic.offset start k.taskCount ((start + i.val) % k.taskCount) = i.val :=
    fun i => Cyclic.offset_unique i.isLt
  rw [scanOrder, List.pairwise_map]
  simp only [Fin.val_castLE, place]
  exact List.pairwise_lt_finRange _

theorem board_scanStart (k : Kernel) : (k.board inside).scanStart = k.scanStart := by
  simp only [board, Board.scanStart, scanStart]
  cases k.currentTcb <;> rfl

/-- The scan keeps the nearest of the runnable tasks of greatest priority. -/
theorem best_picks {b : TaskId} (found : k.best = some b) : (k.board inside).Picks b := by
  rw [best_argmax] at found
  obtain ⟨inList, least⟩ := Cells.argmax_nearest ((scanOrder_rises k _).filter _) found
  rw [List.mem_filter] at inList
  have spec : ∀ t, k.Live t → k.Runnable t → _ := fun t live run =>
    least t (List.mem_filter.mpr ⟨mem_scanOrder.mpr live, by simpa using run⟩)
  have runnable : k.Runnable b := by simpa using inList.2
  refine ⟨mem_scanOrder.mp inList.1, runnable, fun t live run => (spec t live run).1,
    fun t live run tie => ?_⟩
  simp only [Board.lag, board_scanStart]
  exact (spec t live run).2 tie

theorem best_none (none : k.best = none) (t : TaskId) (live : k.Live t) : ¬ k.Runnable t := by
  rw [best_argmax, List.argmax_eq_none, List.filter_eq_nil_iff] at none
  simpa using none t (mem_scanOrder.mpr live)

theorem demoteCurrent_osTasks (k : Kernel) (best x : TaskId) :
    (k.demoteCurrent best).osTasks x =
      if x ≠ best ∧ k.currentTcb = some x ∧ (k.osTasks x).state = .running then
        { k.osTasks x with state := .ready }
      else k.osTasks x := by
  unfold demoteCurrent
  cases cur : k.currentTcb with
  | none => simp
  | some c =>
    by_cases self : x = c
    · subst self
      simp only [true_and]
      split <;> simp
    · have ne : c ≠ x := Ne.symm self
      simp only [Option.some.injEq, ne, false_and, and_false, if_false]
      split <;> simp [self]

theorem dispatch_board (k : Kernel) (b : TaskId) : (k.dispatch b).board inside =
    { (k.board inside).dispatch b with switch := k.pendSv } := by
  have frame : ∃ f, k.demoteCurrent b = { k with osTasks := f } := by
    unfold demoteCurrent
    split
    · split <;> exact ⟨_, rfl⟩
    · exact ⟨_, rfl⟩
  obtain ⟨f, frame⟩ := frame
  have tasks : ∀ x, f x = _ := fun x =>
    (congrFun (congrArg osTasks frame) x).symm.trans (demoteCurrent_osTasks k b x)
  unfold dispatch
  rw [frame]
  ext1 <;> try rfl
  · funext x
    by_cases self : x = b
    · subst self
      simp [board, Board.dispatch, tasks]
    · have kept : f x = ((k.board inside).dispatch b).tcb x := by
        rw [tasks, Board.dispatch_tcb]
        by_cases old : (k.board inside).current = some x ∧
            ((k.board inside).tcb x).state = .running
        · rw [if_pos ⟨self, old⟩, if_neg self, if_pos old]
          rfl
        · rw [if_neg fun h => old h.2, if_neg self, if_neg old]
          rfl
      rw [← kept]
      exact Function.update_of_ne self _ _

/-- With a runnable task the scheduler always dispatches. -/
theorem osScheduler_dispatches {k' : Kernel} (picks : k.osScheduler = some k')
    (some : ∃ t, k.Live t ∧ k.Runnable t) :
    ∃ b, (k.board inside).Picks b ∧ k' = k.dispatch b := by
  obtain ⟨t, live, run⟩ := some
  have pos : k.taskCount ≠ 0 := Nat.ne_of_gt (Nat.zero_lt_of_lt live)
  rw [osScheduler, if_neg pos] at picks
  split at picks
  · cases found : k.best with
    | none => exact absurd run (best_none found t live)
    | some b =>
      rw [found] at picks
      exact ⟨b, best_picks inside found, (Option.some.inj picks).symm⟩
  · cases picks

end Kernel

/-! ### Every call refines the board -/

namespace System

variable {idle : TaskId} {s : System}

theorem linked (sound : s.board.Sound idle) {t : TaskId} (live : s.kernel.Live t) :
    s.kernel.Linked t :=
  ⟨sound.pointers t live, fun o h => (sound.queued o t h).2⟩

theorem linked_of_waiter (sound : s.board.Sound idle) {t : TaskId} {o : Waitable}
    (queued : t ∈ s.kernel.waiters o) : s.kernel.Linked t :=
  linked sound (sound.queued o t queued).1

/-- Six tasks, of which the owner and the caller are not on the queue. -/
theorem mutex_room (sound : s.board.Sound idle) {m : Nat} {t owner : TaskId} (runs : s.board.Runs t)
    (held : (s.kernel.mutexes m).owner = some owner) (other : owner ≠ t) :
    (s.kernel.waiters (.mutex m)).length < maxWaitingTasks := by
  have apart := (sound.runs_apart runs).2.2 (.mutex m)
  have nodup : (owner :: t :: s.kernel.waiters (.mutex m)).Nodup :=
    List.nodup_cons.mpr ⟨by simpa using ⟨other, (sound.owner m owner held).2⟩,
      List.nodup_cons.mpr ⟨apart, sound.distinct _⟩⟩
  have := nodup.length_le_card
  simp only [List.length_cons, Fintype.card_fin, maxTasks] at this
  simp only [maxWaitingTasks]
  omega

theorem semaphore_room (sound : s.board.Sound idle) {x : Nat} {t : TaskId}
    (runs : s.board.Runs t) : (s.kernel.waiters (.semaphore x)).length < maxTasks := by
  have apart := (sound.runs_apart runs).2.2 (.semaphore x)
  have nodup : (t :: s.kernel.waiters (.semaphore x)).Nodup :=
    List.nodup_cons.mpr ⟨apart, sound.distinct _⟩
  have := nodup.length_le_card
  simp only [List.length_cons, Fintype.card_fin] at this
  exact this

theorem donate_board (k : Kernel) (owner caller : TaskId) (inside : TaskId → Option Call) :
    (k.donate owner caller).board inside = (k.board inside).lend owner caller := by
  unfold Kernel.donate
  split
  · rename_i higher
    have most : max (k.osTasks owner).currentPriority (k.osTasks caller).currentPriority =
        (k.osTasks caller).currentPriority := max_eq_right (Nat.le_of_lt higher)
    simp only [Board.lend, Kernel.board, Board.priority, most]
    rfl
  · rename_i lower
    have most : max (k.osTasks owner).currentPriority (k.osTasks caller).currentPriority =
        (k.osTasks owner).currentPriority := max_eq_left (Nat.le_of_not_lt lower)
    simp [Board.lend, Kernel.board, Board.priority, most]

theorem mutexAcquire_refines (sound : s.board.Sound idle) {t : TaskId} {m : Nat} {n : UInt32}
    {out : Outcome} {k : Kernel} (runs : s.board.Runs t) (free : s.inside t = none)
    (exec : s.kernel.osMutexAcquire m n = some (out, k)) (awake : out = .parked → t ≠ idle) :
    BoardStep idle s.board (.call t (.mutexAcquire m n) out)
      (k.board (if out = .parked then Function.update s.inside t (some (.mutexAcquire m n))
        else s.inside)) := by
  have current : s.kernel.currentTcb = some t := runs.1
  have launched : s.kernel.kernelRunning = true := sound.launched
  unfold Kernel.osMutexAcquire at exec
  dsimp only [Kernel.osEnterCritical] at exec
  split at exec
  · rename_i opened
    obtain ⟨rfl, rfl⟩ := Prod.mk.inj (Option.some.inj exec)
    have step : BoardStep idle s.board (.call t (.mutexAcquire m n) (.returned .success)) _ :=
      .lock runs free opened
    rw [← current] at step
    exact step
  · rename_i locked
    split at exec
    · rename_i own
      obtain ⟨rfl, rfl⟩ := Prod.mk.inj (Option.some.inj exec)
      exact .reenter runs free (own.trans current)
    · rename_i other
      split at exec
      · rename_i zero
        obtain ⟨rfl, rfl⟩ := Prod.mk.inj (Option.some.inj exec)
        obtain rfl : n = 0 := by simpa [launched] using zero
        exact .pollMutex runs free locked (current ▸ other)
      · rename_i patient
        have patient : n ≠ 0 := fun zero => patient (.inl zero)
        split at exec
        · rename_i caller owner here held
          obtain rfl : t = caller := Option.some.inj (current.symm.trans here)
          have ne : owner ≠ t := fun same => other (held.trans (same ▸ current.symm))
          let masked : Kernel := { s.kernel with primask := true }
          have lent := donate_board masked owner t s.inside
          have queues : (masked.donate owner t).waiters = s.kernel.waiters :=
            congrArg Board.waiters lent
          obtain ⟨k', block, shape⟩ := Kernel.blockCurrent_board s.inside t n (.mutexAcquire m n)
            (by rw [queues]; exact mutex_room sound runs held ne)
          rw [block] at exec
          obtain ⟨rfl, rfl⟩ := Prod.mk.inj (Option.some.inj exec)
          have step : BoardStep idle s.board (.call t (.mutexAcquire m n) .parked) _ :=
            .waitMutex runs free locked held ne patient (awake rfl)
          rw [lent] at shape
          exact shape ▸ step
        · cases exec

/-- `os_mutex_release` up to its choice of the next owner. -/
theorem settle_board (k : Kernel) (m : Nat) (inside : TaskId → Option Call) :
    (k.dropDonation m).board inside = (k.board inside).settle m := by
  unfold Kernel.dropDonation Board.settle
  have same : ((k.board inside).mutexes m).owner = (k.mutexes m).owner := rfl
  rw [same]
  cases (k.mutexes m).owner <;> rfl

theorem mutexRelease_refines (sound : s.board.Sound idle) {t : TaskId} {m : Nat}
    (runs : s.board.Runs t) (free : s.inside t = none) :
    BoardStep idle s.board (.call t (.mutexRelease m) .finished)
      ((s.kernel.osMutexRelease m).board s.inside) := by
  let masked : Kernel := { s.kernel with primask := true }
  let settled := masked.dropDonation m
  have seen : settled.board s.inside = s.board.settle m := settle_board masked m s.inside
  have sound' : (settled.board s.inside).Sound idle := seen ▸ sound.settle m
  have found := Kernel.pickWaiter_first s.inside settled (.mutex m)
  have lock : (settled.mutexes m).lock = (s.board.mutexes m).lock := by
    have same : settled.mutexes = (s.board.settle m).mutexes := congrArg Board.mutexes seen
    rw [same, Board.settle_mutexes]
  rw [seen] at found
  unfold Kernel.osMutexRelease
  dsimp only [Kernel.osEnterCritical]
  split
  · rename_i next hnext
    have first := found.symm.trans hnext
    have queued : next ∈ settled.waiters (.mutex m) := by
      have := Board.mem_of_first first
      rwa [← seen] at this
    let owned := settled.setMutex m { settled.mutexes m with owner := some next }
    have linked : owned.Linked next :=
      ⟨sound'.pointers next (sound'.queued _ _ queued).1, fun o h => (sound'.queued o next h).2⟩
    have woken := Kernel.wakeTask_board s.inside linked
    have shape : owned.board s.inside =
        (s.board.settle m).setMutex m ⟨(s.board.mutexes m).lock, some next⟩ := by
      rw [← seen, ← lock]
      rfl
    have step : BoardStep idle s.board (.call t (.mutexRelease m) .finished) _ :=
      .handOver runs free first
    rw [← shape, ← woken] at step
    exact step
  · rename_i hnone
    have nobody : s.board.waiters (.mutex m) = [] := by
      have first := found.symm.trans hnone
      simpa [Board.first] using first
    have step : BoardStep idle s.board (.call t (.mutexRelease m) .finished) _ :=
      .unlock runs free nobody
    rw [← seen] at step
    exact step

theorem semaphoreAcquire_refines (sound : s.board.Sound idle) {t : TaskId} {x : Nat} {n : UInt32}
    {out : Outcome} {k : Kernel} (runs : s.board.Runs t) (free : s.inside t = none)
    (exec : s.kernel.osSemaphoreAcquire x n = some (out, k)) (awake : out = .parked → t ≠ idle) :
    BoardStep idle s.board (.call t (.semaphoreAcquire x n) out)
      (k.board (if out = .parked then Function.update s.inside t (some (.semaphoreAcquire x n))
        else s.inside)) := by
  have current : s.kernel.currentTcb = some t := runs.1
  have launched : s.kernel.kernelRunning = true := sound.launched
  unfold Kernel.osSemaphoreAcquire at exec
  dsimp only [Kernel.osEnterCritical] at exec
  split at exec
  · rename_i token
    obtain ⟨rfl, rfl⟩ := Prod.mk.inj (Option.some.inj exec)
    exact .take runs free token
  · rename_i none
    have empty : (s.kernel.semaphores x).count = 0 := Nat.eq_zero_of_not_pos none
    split at exec
    · rename_i zero
      obtain ⟨rfl, rfl⟩ := Prod.mk.inj (Option.some.inj exec)
      obtain rfl : n = 0 := by simpa [launched] using zero
      exact .pollSemaphore runs free empty
    · rename_i patient
      have patient : n ≠ 0 := fun zero => patient (.inl zero)
      let masked : Kernel := { s.kernel with primask := true }
      obtain ⟨k', block, shape⟩ := Kernel.blockCurrent_board s.inside t n (.semaphoreAcquire x n)
        (show (masked.waiters (.semaphore x)).length < maxTasks from semaphore_room sound runs)
      obtain ⟨caller, here, same⟩ := Option.map_eq_some_iff.mp exec
      obtain rfl : t = caller := Option.some.inj (current.symm.trans here)
      rw [block] at same
      obtain ⟨rfl, rfl⟩ := Prod.mk.inj same
      have step : BoardStep idle s.board (.call t (.semaphoreAcquire x n) .parked) _ :=
        .waitSemaphore runs free empty patient (awake rfl)
      exact shape ▸ step

/-- A post from the running task or from an interrupt handler. -/
theorem semaphoreRelease_refines (sound : s.board.Sound idle) {e : Event} {x : Nat}
    (posts : s.board.Posts e x) :
    BoardStep idle s.board e ((s.kernel.osSemaphoreRelease x).board s.inside) := by
  let masked : Kernel := { s.kernel with primask := true }
  have found := Kernel.pickWaiter_first s.inside masked (.semaphore x)
  unfold Kernel.osSemaphoreRelease
  dsimp only [Kernel.osEnterCritical]
  split
  · rename_i next hnext
    have first : s.board.first (.semaphore x) = some next := found.symm.trans hnext
    have link := linked_of_waiter sound (Board.mem_of_first first)
    have linked : masked.Linked next := ⟨link.agree, link.queue⟩
    have woken := Kernel.wakeTask_board s.inside linked
    have step : BoardStep idle s.board e (s.board.grant next) := .hand posts first
    exact woken ▸ step
  · rename_i hnone
    have nobody : s.board.waiters (.semaphore x) = [] := by
      have first : s.board.first (.semaphore x) = none := found.symm.trans hnone
      simpa [Board.first] using first
    split
    · rename_i room
      exact .put posts nobody room
    · rename_i full
      exact .drop posts nobody (Nat.le_of_not_lt full)

theorem delay_refines (sound : s.board.Sound idle) {t : TaskId} {ms : UInt32} {out : Outcome}
    {k : Kernel} (runs : s.board.Runs t) (free : s.inside t = none)
    (exec : (Call.delay ms).exec s.kernel = some (out, k)) (awake : out = .parked → t ≠ idle) :
    BoardStep idle s.board (.call t (.delay ms) out)
      (k.board (if out = .parked then Function.update s.inside t (some (.delay ms))
        else s.inside)) := by
  have current : s.kernel.currentTcb = some t := runs.1
  have launched : s.kernel.kernelRunning = true := sound.launched
  simp only [Call.exec, Kernel.osDelay, Option.map_eq_some_iff] at exec
  obtain ⟨⟨parked, k'⟩, exec, same⟩ := exec
  split at exec
  · rename_i zero
    obtain ⟨rfl, rfl⟩ := Prod.mk.inj (Option.some.inj exec)
    obtain ⟨rfl, rfl⟩ := Prod.mk.inj same
    obtain rfl : ms = 0 := by simpa [launched] using zero
    exact .noSleep runs free
  · rename_i patient
    have patient : ms ≠ 0 := fun zero => patient (.inr zero)
    dsimp only [Kernel.osEnterCritical] at exec
    obtain ⟨caller, here, done⟩ := Option.map_eq_some_iff.mp exec
    obtain rfl : t = caller := Option.some.inj (current.symm.trans here)
    obtain ⟨rfl, rfl⟩ := Prod.mk.inj done
    obtain ⟨rfl, rfl⟩ := Prod.mk.inj same
    exact .sleep runs free patient (awake rfl)

/-- A runnable task exists at every pass: the idle task is one. -/
theorem idle_runnable (sound : s.board.Sound idle) :
    s.kernel.Live idle ∧ s.kernel.Runnable idle := by
  obtain ⟨live, awake⟩ := sound.idleAwake
  have active := sound.active idle live
  refine ⟨live, ?_⟩
  cases state : (s.kernel.osTasks idle).state with
  | ready => exact .inl state
  | running => exact .inr state
  | blocked => exact absurd state awake
  | suspended => exact absurd state active

end System

/-- **Refinement.** What the kernel does in one step, the board does. -/
theorem Step.refines {idle : TaskId} {s s' : System} {e : Event} (h : Step idle s e s')
    (sound : s.board.Sound idle) : BoardStep idle s.board e s'.board := by
  cases h with
  | @call t c out k runs unmasked free exec awake =>
    cases c with
    | mutexAcquire m n => exact System.mutexAcquire_refines sound runs free exec awake
    | mutexRelease m =>
      obtain ⟨rfl, rfl⟩ := Prod.mk.inj (Option.some.inj exec)
      exact System.mutexRelease_refines sound runs free
    | semaphoreAcquire x n => exact System.semaphoreAcquire_refines sound runs free exec awake
    | semaphoreRelease x =>
      obtain ⟨rfl, rfl⟩ := Prod.mk.inj (Option.some.inj exec)
      exact System.semaphoreRelease_refines sound (.inr ⟨t, rfl, runs, free⟩)
    | delay ms => exact System.delay_refines sound runs free exec awake
  | resume runs parked => exact .resume runs parked
  | post x => exact System.semaphoreRelease_refines sound (.inl rfl)
  | tick =>
    have ticked := Kernel.sysTickHandler_board s.inside
      (fun t live => System.linked sound live) sound.distinct
    change BoardStep idle s.board .tick (s.kernel.sysTickHandler.board s.inside)
    rw [ticked]
    exact .tick
  | @pass k picks =>
    obtain ⟨best, picked, rfl⟩ := Kernel.osScheduler_dispatches s.inside picks
      ⟨idle, System.idle_runnable sound⟩
    have step : BoardStep idle s.board .pass (s.board.dispatch best) :=
      .pass ⟨picked.live, picked.runnable, picked.greatest, picked.nearest⟩
    change BoardStep idle s.board .pass (Kernel.board (Kernel.dispatch _ best) s.inside)
    rw [Kernel.dispatch_board]
    exact step

/-- A kernel ready for launch satisfies the invariant, the launch flag apart. -/
theorem ReadyToLaunch.sound {idle : TaskId} {k : Kernel} (ready : ReadyToLaunch k)
    (live : k.Live idle) {inside : TaskId → Option Call} (nobody : ∀ t, inside t = none) :
    { k.board inside with launched := true }.Sound idle := by
  have empty : ∀ o, k.waiters o = [] := fun o => by simp [Kernel.waiters, ready.nobody o]
  have awake : ∀ t, k.Live t → (k.osTasks t).state ≠ .blocked := fun t ht => by
    rcases ready.awake t ht with h | ⟨h, _⟩ <;> simp [h]
  refine ⟨rfl, ready.current, ?running, ?active, ?pointers, ?queued, ?parked, ?distinct, ?blocked,
    ?locked, ?ownerless, ?owner, ?within, ?waiting, ?callers, live, awake idle live⟩
  case callers =>
    intro t ht
    exact absurd (nobody t) ht
  case running =>
    intro t ht run
    rcases ready.awake t ht with h | ⟨_, h⟩
    · cases h.symm.trans run
    · exact h
  case active =>
    intro t ht stopped
    rcases ready.awake t ht with h | ⟨h, _⟩ <;> cases h.symm.trans stopped
  case pointers =>
    intro t ht
    exact (ready.apart t ht).2.trans (ready.apart t ht).1.symm
  case queued =>
    intro o t ht
    simp [Kernel.board, empty o] at ht
  case parked =>
    intro o t ht on
    cases (ready.apart t ht).1.symm.trans on
  case distinct =>
    intro o
    simp [Kernel.board, empty o]
  case blocked =>
    intro t ht
    have timer : (k.osTasks t).sleepTime = 0 := ready.timer t ht
    have off : (k.osTasks t).waitQueue = none := (ready.apart t ht).1
    simp [Kernel.board, timer, off, awake t ht]
  case locked =>
    intro m
    rcases ready.mutex m with h | ⟨owner, h, _⟩
    · exact .inl h
    · exact .inr (congrArg OsMutex.lock h)
  case ownerless =>
    intro m _
    exact empty _
  case owner =>
    intro m t own
    refine ⟨?_, by simp [Kernel.board, empty]⟩
    rcases ready.mutex m with h | ⟨owner, h, owns⟩
    · cases (congrArg OsMutex.owner h).symm.trans own
    · exact owns t ((congrArg OsMutex.owner h).symm.trans own)
  case within =>
    intro t ht asleep
    exact absurd asleep (awake t ht)
  case waiting =>
    intro t o ht on
    cases (ready.apart t ht).1.symm.trans on

/-- The launch is a first dispatch on the board that the created tasks make. -/
theorem Launched.shape {idle : TaskId} {s : System} (h : Launched idle s) :
    ∃ k best, ReadyToLaunch k ∧ k.Live idle ∧
      { k.board s.inside with launched := true }.Picks best ∧
      s.board = { { k.board s.inside with launched := true }.dispatch best with switch := k.pendSv } := by
  obtain ⟨k, ready, live, launch, nobody⟩ := h
  obtain ⟨k', scheduled, same⟩ := Option.map_eq_some_iff.mp launch
  have runnable : k.Runnable idle := by
    rcases ready.awake idle live with h | ⟨h, _⟩
    · exact .inl h
    · exact .inr h
  obtain ⟨b, picks, rfl⟩ :=
    Kernel.osScheduler_dispatches s.inside scheduled ⟨idle, live, runnable⟩
  refine ⟨k, b, ready, live, ⟨picks.live, picks.runnable, picks.greatest, picks.nearest⟩, ?_⟩
  have seen := Kernel.dispatch_board s.inside k b
  have relaunched : s.board = { (k.dispatch b).board s.inside with launched := true } := by
    rw [System.board, ← same]
    rfl
  rw [relaunched, seen]
  rfl

theorem Launched.sound {idle : TaskId} {s : System} (h : Launched idle s) :
    s.board.Sound idle := by
  obtain ⟨k, best, ready, live, picks, shape⟩ := h.shape
  obtain ⟨_, _, _, _, nobody⟩ := h
  rw [shape]
  exact ((ready.sound live nobody).dispatch picks).congr rfl fun _ => ⟨rfl, rfl, rfl, rfl⟩

/-- Nobody has been lent a priority at launch. -/
theorem Launched.priority {idle : TaskId} {s : System} (h : Launched idle s) {t : TaskId}
    (live : s.kernel.Live t) : s.board.priority t = (s.board.tcb t).basePriority := by
  obtain ⟨k, best, ready, _, _, shape⟩ := h.shape
  have count : s.kernel.taskCount = k.taskCount := congrArg Board.taskCount shape
  have live : k.Live t := by simpa only [Kernel.Live, count] using live
  have block := (congrFun (congrArg Board.tcb shape) t).trans (Board.dispatch_tcb _ best t)
  simp only [Board.priority, block]
  exact ready.priority t live

/-- Nobody waits at launch. -/
theorem Launched.apart {idle : TaskId} {s : System} (h : Launched idle s) (o : Waitable) :
    s.board.waiters o = [] := by
  have sound := h.sound
  obtain ⟨_, _, _, _, nobody⟩ := h
  apply List.eq_nil_iff_forall_not_mem.mpr
  intro t queued
  obtain ⟨live, on⟩ := sound.queued o t queued
  obtain ⟨c, inside, _⟩ := sound.waiting t o live on
  cases (nobody t).symm.trans inside

/-- **Every reachable state satisfies the invariant.** -/
theorem Trace.sound {idle : TaskId} {past : History} {s : System} (run : Trace idle past s) :
    s.board.Sound idle :=
  run.invariant (fun _ h => h.sound) fun _ _ _ sound h => (h.refines sound).sound sound

end Sentinel
