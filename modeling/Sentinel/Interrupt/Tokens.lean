import Sentinel.Interrupt.Preemption
import Sentinel.Kernel.WaitQueues

/-! Tokens posted while the tick runs. Every post that finds a waiter leaves it with
success, every other waiter whose time is up with a timeout, and the queues lose
exactly these, as long as each post is harmless where it strikes. -/

namespace Sentinel

open Runs (Transition Run)

/-- The statements of one tick and the posts between them, latest first. -/
abbrev Tick := List (Transition Handler Preemption)

namespace Tick

/-- The posts that found a waiter, with the waiter. -/
def woken (past : Tick) : List (Nat × TaskId) :=
  past.filterMap fun y => match y.event with
    | .post x => (y.pre.kernel.posted x).map (x, ·)
    | .statement => none

def posts (x : Nat) (past : Tick) : Nat := past.countP fun y => y.event = .post x

/-- The posts of `x` that left their token with a waiter. -/
def handed (x : Nat) (past : Tick) : Nat := past.woken.countP fun w => w.1 = x

/-- The posts of `x` that found nobody waiting and the count at its bound. -/
def dropped (x : Nat) (past : Tick) : Nat :=
  past.countP fun y => y.event = .post x ∧ y.pre.kernel.posted x = none ∧
    (y.pre.kernel.semaphores x).maxCount ≤ (y.pre.kernel.semaphores x).count

/-- The tasks that posts have woken. -/
abbrev awake (past : Tick) : List TaskId := past.woken.map Prod.snd

/-- The tasks that the handler has taken off their queues. -/
def unlinked (past : Tick) : List TaskId :=
  past.filterMap fun y => match y.event, y.pre.pc with
    | .statement, .decrement t => some t
    | _, _ => none

/-- The tasks that the handler has given a timeout. -/
def timedOut (past : Tick) : List TaskId :=
  past.filterMap fun y => match y.event, y.pre.pc with
    | .statement, .result t => some t
    | _, _ => none

end Tick

namespace Pc

/-- The task that is off its queue and has not been given its timeout yet. -/
def leaving : Pc → List TaskId
  | .clearQueue t | .clearCount t | .result t => [t]
  | _ => []

/-- The task whose timer has just run out. -/
def expiring : Pc → Option TaskId
  | .waits t | .guard t | .search t _ | .compare t _ | .shift t _ | .move t _ | .decrement t
    | .clearQueue t | .clearCount t | .result t => some t
  | _ => none

/-- The slot up to which the timers have been counted down. -/
def reached : Pc → Nat
  | .enter => 0
  | .next i => i
  | .sleeping t | .countDown t => t
  | .waits t | .guard t | .search t _ | .compare t _ | .shift t _ | .move t _ | .decrement t
    | .clearQueue t | .clearCount t | .result t | .wake t => t + 1
  | .yield | .finished | .fault => maxTasks

end Pc

namespace Handler

section
variable {k : Kernel} {S : Queues} {pc : Pc} {s : Handler}

/-- What a statement writes into the control blocks. -/
def afterTasks (tasks : TaskId → Tcb) : Pc → TaskId → Tcb
  | .countDown t => Function.update tasks t { tasks t with sleepTime := (tasks t).sleepTime - 1 }
  | .clearQueue t => Function.update tasks t { tasks t with waitQueue := none }
  | .clearCount t => Function.update tasks t { tasks t with waitCount := none }
  | .result t => Function.update tasks t { tasks t with waitResult := .timeout }
  | .wake t => Function.update tasks t { tasks t with state := .ready }
  | _ => tasks

theorem statement_frame (step : statement ⟨k, pc⟩ = some s) :
    s.kernel.taskCount = k.taskCount ∧ s.kernel.semaphores = k.semaphores ∧
      s.kernel.osTasks = afterTasks k.osTasks pc := by
  cases pc with
  | enter | countDown | clearQueue | clearCount | result | wake | yield =>
    obtain rfl := Option.some.inj step
    exact ⟨rfl, rfl, rfl⟩
  | next | sleeping | waits | guard | move | decrement =>
    simp only [statement] at step
    split at step <;> obtain rfl := Option.some.inj step <;> exact ⟨rfl, rfl, rfl⟩
  | search | compare | shift =>
    simp only [statement] at step
    split at step
    · obtain rfl := Option.some.inj step
      exact ⟨rfl, rfl, rfl⟩
    · split at step <;> obtain rfl := Option.some.inj step <;> exact ⟨rfl, rfl, rfl⟩
  | finished | fault => cases step

theorem statement_waitResult (step : statement ⟨k, pc⟩ = some s) (t : TaskId) :
    (s.kernel.osTasks t).waitResult =
      if pc = .result t then .timeout else (k.osTasks t).waitResult := by
  rw [(statement_frame step).2.2]
  cases pc with
  | countDown u | clearQueue u | clearCount u | wake u =>
    by_cases self : t = u <;> simp [afterTasks, self]
  | result u =>
    by_cases self : t = u
    · simp [afterTasks, self]
    · simp [afterTasks, self, Ne.symm self]
  | enter | next | sleeping | waits | guard | search | compare | shift | move | decrement | yield
    | finished | fault => simp [afterTasks]

theorem statement_sleepTime (step : statement ⟨k, pc⟩ = some s) (t : TaskId) :
    (s.kernel.osTasks t).sleepTime =
      if pc = .countDown t then (k.osTasks t).sleepTime - 1 else (k.osTasks t).sleepTime := by
  rw [(statement_frame step).2.2]
  cases pc with
  | countDown u =>
    by_cases self : t = u
    · simp [afterTasks, self]
    · simp [afterTasks, self, Ne.symm self]
  | clearQueue u | clearCount u | result u | wake u =>
    by_cases self : t = u <;> simp [afterTasks, self]
  | enter | next | sleeping | waits | guard | search | compare | shift | move | decrement | yield
    | finished | fault => simp [afterTasks]

/-- What a statement takes off its queue, and what it gives a timeout. -/
def unlinks : Pc → List TaskId
  | .decrement t => [t]
  | _ => []

def expires : Pc → List TaskId
  | .result t => [t]
  | _ => []

/-- A task is off its queue, then leaving, then timed out. -/
theorem Shape.leaving (shape : Shape k S pc) (step : Handler.statement ⟨k, pc⟩ = some s) :
    unlinks pc ++ pc.leaving = s.pc.leaving ++ expires pc := by
  have after := (shape.statement step).place
  have place := shape.place
  cases pc with
  | enter | clearQueue | clearCount | result | wake | yield =>
    obtain rfl := Option.some.inj step
    rfl
  | countDown =>
    obtain rfl := Option.some.inj step
    simp only [edit]
    split <;> rfl
  | next | sleeping | waits | move =>
    simp only [Handler.statement] at step
    split at step <;> obtain rfl := Option.some.inj step <;> rfl
  | decrement =>
    simp only [Handler.statement] at step
    split at step <;> obtain rfl := Option.some.inj step
    · exact after.elim
    · rfl
  | guard t =>
    simp only [Handler.statement] at step
    split at step <;> obtain rfl := Option.some.inj step
    · obtain ⟨_, o, there⟩ := place
      exact absurd there (after.2 o)
    · rfl
  | search t i =>
    obtain ⟨_, o, A, B, split, _⟩ := place
    simp only [Handler.statement] at step
    split at step
    · obtain rfl := Option.some.inj step
      rfl
    · split at step <;> obtain rfl := Option.some.inj step
      · rfl
      · exact absurd (by simp [afterStatement, split]) (after.2 o)
  | compare | shift =>
    simp only [Handler.statement] at step
    split at step
    · obtain rfl := Option.some.inj step
      rfl
    · split at step <;> obtain rfl := Option.some.inj step <;> rfl
  | finished | fault => cases step

/-- Where a statement leads, as far as the timers are concerned. -/
inductive Flow (k : Kernel) (S : Queues) : Pc → Pc → Prop
  | on {pc pc' : Pc} (reached : pc'.reached = pc.reached) (expiring : pc'.expiring = pc.expiring)
      (other : ∀ t, pc ≠ .countDown t) : Flow k S pc pc'
  | off {pc : Pc} {t : TaskId} (reached : pc.reached = t + 1) (expiring : pc.expiring = some t)
      (gone : ∀ o, t ∉ S o) (other : ∀ t, pc ≠ .countDown t) : Flow k S pc (.wake t)
  | skip {t : TaskId} (zero : (k.osTasks t).sleepTime = 0) : Flow k S (.sleeping t) (.next (t + 1))
  | down {t : TaskId} (more : (k.osTasks t).sleepTime - 1 ≠ 0) : Flow k S (.countDown t) (.next (t + 1))
  | due {t : TaskId} (last : (k.osTasks t).sleepTime - 1 = 0) : Flow k S (.countDown t) (.waits t)
  | done {i : Nat} (all : k.taskCount ≤ i) : Flow k S (.next i) .yield

theorem Shape.flow (shape : Shape k S pc) (step : Handler.statement ⟨k, pc⟩ = some s) :
    Flow k S pc s.pc := by
  have after := (shape.statement step).place
  cases pc with
  | enter | clearQueue | clearCount | wake | yield =>
    obtain rfl := Option.some.inj step
    exact .on rfl rfl (by simp)
  | result t =>
    obtain rfl := Option.some.inj step
    exact .off rfl rfl shape.place.2 (by simp)
  | countDown t =>
    obtain rfl := Option.some.inj step
    simp only [edit]
    split
    · rename_i last
      exact .due last
    · rename_i more
      exact .down more
  | next i =>
    simp only [Handler.statement] at step
    split at step <;> obtain rfl := Option.some.inj step
    · exact .on rfl rfl (by simp)
    · rename_i beyond
      exact .done (Nat.le_of_not_lt beyond)
  | sleeping t =>
    simp only [Handler.statement] at step
    split at step <;> obtain rfl := Option.some.inj step
    · rename_i zero
      exact .skip zero
    · exact .on rfl rfl (by simp)
  | waits t =>
    simp only [Handler.statement] at step
    split at step <;> obtain rfl := Option.some.inj step
    · exact .on rfl rfl (by simp)
    · rename_i off
      refine .off rfl rfl (fun o there => off ?_) (by simp)
      simp [(shape.linked o t there).1]
  | guard =>
    simp only [Handler.statement] at step
    split at step <;> obtain rfl := Option.some.inj step <;> exact .on rfl rfl (by simp)
  | move | decrement =>
    simp only [Handler.statement] at step
    split at step <;> obtain rfl := Option.some.inj step
    · exact after.elim
    · exact .on rfl rfl (by simp)
  | search | compare | shift =>
    simp only [Handler.statement] at step
    split at step
    · obtain rfl := Option.some.inj step
      exact after.elim
    · split at step <;> obtain rfl := Option.some.inj step <;> exact .on rfl rfl (by simp)
  | finished | fault => cases step

end

/-! ### The books of a tick -/

end Handler

/-- The queues and the pointers of the tasks agree. Of what holds between two ticks this is all that
a tick relies on, and a tick keeps it even where a post has woken a task whose timer is counted
down right after. -/
structure QueuesLinked (k : Kernel) : Prop where
  distinct : ∀ o, (k.waiters o).Nodup
  parked : ∀ o, ∀ t ∈ k.waiters o, k.Live t ∧ (k.osTasks t).waitQueue = some o ∧
    (k.osTasks t).waitCount = some o
  queued : ∀ t o, k.Live t → (k.osTasks t).waitQueue = some o → t ∈ k.waiters o

theorem WaitQueuesSound.linked {k : Kernel} (sound : WaitQueuesSound k) : QueuesLinked k where
  distinct := sound.distinct
  parked o t there := (sound.parked o t there).imp_right And.right
  queued t o live on := by
    apply List.count_pos_iff.mp
    rw [(sound.once t o live on).1]
    decide

namespace Handler

/-- The queues of `k` without the tasks in a list. -/
def left (k : Kernel) (gone : List TaskId) : Queues :=
  fun o => (k.waiters o).filter fun t => t ∉ gone

/-- What the tick that began with `k` has done so far. -/
structure Books (k : Kernel) (past : Tick) (s : Handler) : Prop where
  shape : Shape s.kernel (left k (past.awake ++ past.unlinked)) s.pc
  leaving : past.unlinked = s.pc.leaving ++ past.timedOut
  former : ∀ x u, (x, u) ∈ past.woken → u ∈ k.waiters (.semaphore x)
  distinct : past.awake.Nodup
  apart : ∀ u ∈ past.awake, u ∉ past.unlinked
  success : ∀ u ∈ past.awake, (s.kernel.osTasks u).waitResult = .success
  timeout : ∀ t ∈ past.timedOut, (s.kernel.osTasks t).waitResult = .timeout

/-- How far the timers have come. -/
structure Timers (k : Kernel) (past : Tick) (s : Handler) : Prop where
  count : s.kernel.taskCount = k.taskCount
  early : ∀ t : TaskId, s.pc.reached ≤ t → (s.kernel.osTasks t).sleepTime =
    if t ∈ past.awake then 0 else (k.osTasks t).sleepTime
  due : ∀ o, ∀ t ∈ left k (past.awake ++ past.unlinked) o, t.val < s.pc.reached →
    (k.osTasks t).sleepTime = 1 → s.pc.expiring = some t
  expired : ∀ t, s.pc.expiring = some t ∨ t ∈ past.unlinked → (k.osTasks t).sleepTime = 1

section
variable {k : Kernel} {past : Tick} {s t : Handler} {x : Nat} {u : TaskId}

theorem mem_left {gone : List TaskId} {o : Waitable} :
    u ∈ left k gone o ↔ u ∈ k.waiters o ∧ u ∉ gone := by
  rw [left, List.mem_filter, decide_eq_true_iff]

theorem left_congr {gone gone' : List TaskId} (same : ∀ u, u ∈ gone ↔ u ∈ gone') :
    left k gone = left k gone' :=
  funext fun _ => List.filter_congr fun u _ => decide_eq_decide.mpr (not_congr (same u))

theorem left_cons {gone : List TaskId} (distinct : ∀ o, (left k gone o).Nodup) :
    left k (u :: gone) = without (left k gone) u := by
  funext o
  rw [without, (distinct o).erase_eq_filter, left, left, List.filter_filter]
  apply List.filter_congr
  intro v _
  simp only [List.mem_cons, not_or, Bool.decide_and, bne, decide_not, beq_eq_decide]

theorem Books.base (linked : QueuesLinked k) : Books k [] ⟨k, .enter⟩ where
  shape := by
    have all : left k ([] ++ []) = k.waiters := funext fun o => List.filter_eq_self.mpr (by simp)
    exact all ▸ ⟨linked.distinct, fun o u there => (linked.parked o u there).2,
      fun u o live on => .inl (linked.queued u o live on), rfl⟩
  leaving := rfl
  former _ _ none := by cases none
  distinct := List.nodup_nil
  apart _ none := by cases none
  success _ none := by cases none
  timeout _ none := by cases none

theorem Timers.base (k : Kernel) : Timers k [] ⟨k, .enter⟩ where
  count := rfl
  early _ _ := rfl
  due _ _ _ none := by cases none
  expired _ none := by rcases none with none | none <;> cases none

theorem unlinked_statement :
    Tick.unlinked (⟨s, .statement, t⟩ :: past) = unlinks s.pc ++ past.unlinked := by
  simp only [Tick.unlinked, List.filterMap_cons, unlinks]
  cases s.pc <;> rfl

theorem timedOut_statement :
    Tick.timedOut (⟨s, .statement, t⟩ :: past) = expires s.pc ++ past.timedOut := by
  simp only [Tick.timedOut, List.filterMap_cons, expires]
  cases s.pc <;> rfl

theorem left_statement {awake unlinked : List TaskId}
    (distinct : ∀ o, (left k (awake ++ unlinked) o).Nodup) (pc : Pc) :
    left k (awake ++ (unlinks pc ++ unlinked)) = afterStatement (left k (awake ++ unlinked)) pc := by
  cases pc with
  | decrement u =>
    rw [afterStatement, ← left_cons distinct]
    apply left_congr
    intro v
    simp only [unlinks, List.mem_append, List.mem_cons, List.not_mem_nil, or_false]
    exact or_left_comm
  | enter | next | sleeping | countDown | waits | guard | search | compare | shift | move
    | clearQueue | clearCount | result | wake | yield | finished | fault => rfl

/-- A task taken off its queue was on it, so no post had woken it. -/
theorem Books.unlinks_apart (books : Books k past s) (now : u ∈ unlinks s.pc) : u ∉ past.awake := by
  have place := books.shape.place
  cases pc : s.pc with
  | decrement v =>
    rw [pc] at place now
    obtain ⟨o, A, shifting⟩ := place
    obtain rfl := List.mem_singleton.mp now
    exact fun awake => (mem_left.mp shifting.member).2 (List.mem_append_left _ awake)
  | enter | next | sleeping | countDown | waits | guard | search | compare | shift | move
    | clearQueue | clearCount | result | wake | yield | finished | fault => simp [unlinks, pc] at now

theorem Books.statement (books : Books k past s) (step : s.statement = some t) :
    Books k (⟨s, .statement, t⟩ :: past) t := by
  have shape := books.shape
  have result := statement_waitResult step
  have leaving : past.unlinked = s.pc.leaving ++ past.timedOut := books.leaving
  refine ⟨?_, ?_, books.former, books.distinct, fun u awake => ?_, fun u awake => ?_, fun u out => ?_⟩
  · rw [unlinked_statement]
    exact left_statement shape.distinct s.pc ▸ shape.statement step
  · rw [unlinked_statement, timedOut_statement, leaving, ← List.append_assoc, shape.leaving step,
      List.append_assoc]
  · rw [unlinked_statement, List.mem_append]
    rintro (now | before)
    · exact books.unlinks_apart now awake
    · exact books.apart u awake before
  · rw [result, if_neg]
    · exact books.success u awake
    · intro pc
      apply books.apart u awake
      rw [leaving, pc]
      exact List.mem_cons_self
  · rw [result]
    split
    · rfl
    · rename_i other
      rw [timedOut_statement, List.mem_append] at out
      refine books.timeout u (out.resolve_left fun now => other ?_)
      cases pc : s.pc with
      | result v =>
        rw [pc] at now
        rw [List.mem_singleton.mp now]
      | enter | next | sleeping | countDown | waits | guard | search | compare | shift | move
        | decrement | clearQueue | clearCount | wake | yield | finished | fault =>
        simp [expires, pc] at now

/-- A post that finds nobody changes no queue and no control block. -/
theorem Books.count (books : Books k past s) (nobody : s.kernel.posted x = none) :
    Books k (⟨s, .post x, t⟩ :: past) ⟨s.kernel.osSemaphoreRelease x, s.pc⟩ := by
  obtain ⟨shape, leaving, former, distinct, apart, success, timeout⟩ := books
  have woken : Tick.woken (⟨s, .post x, t⟩ :: past) = past.woken := by simp [Tick.woken, nobody]
  have awake : Tick.awake (⟨s, .post x, t⟩ :: past) = past.awake := congrArg (List.map _) woken
  rw [Kernel.osSemaphoreRelease_counts nobody]
  split <;> rw [← awake] at shape distinct apart success <;> rw [← woken] at former
  · exact ⟨shape.setSemaphore _ _, leaving, former, distinct, apart, success, timeout⟩
  · exact ⟨shape, leaving, former, distinct, apart, success, timeout⟩

theorem Books.wake (books : Books k past s) (harmless : s.Harmless x)
    (picked : s.kernel.posted x = some u) :
    Books k (⟨s, .post x, t⟩ :: past) ⟨s.kernel.osSemaphoreRelease x, s.pc⟩ := by
  have shape := books.shape
  have member := shape.picked harmless picked
  obtain ⟨queue, count⟩ := shape.linked _ u member
  have woke := Woke.of_post picked queue count
  obtain ⟨former, fresh⟩ := mem_left.mp member
  obtain ⟨asleep, linked⟩ := not_or.mp (List.mem_append.not.mp fresh)
  have woken : Tick.woken (⟨s, .post x, t⟩ :: past) = (x, u) :: past.woken := by
    simp [Tick.woken, picked]
  have awake : Tick.awake (⟨s, .post x, t⟩ :: past) = u :: past.awake :=
    congrArg (List.map Prod.snd) woken
  refine ⟨?_, books.leaving, ?_, ?_, ?_, ?_, fun v out => ?_⟩
  · rw [awake]
    exact left_cons shape.distinct ▸ shape.post harmless picked
  · rw [woken]
    intro z v there
    rcases List.mem_cons.mp there with new | old
    · cases new
      exact former
    · exact books.former z v old
  · rw [awake]
    exact List.nodup_cons.mpr ⟨asleep, books.distinct⟩
  · rw [awake]
    exact List.forall_mem_cons.mpr ⟨linked, books.apart⟩
  · rw [awake]
    refine List.forall_mem_cons.mpr ⟨woke.result, fun v old => ?_⟩
    rw [woke.others v (fun same => asleep (same ▸ old))]
    exact books.success v old
  · have other : v ≠ u := by
      rintro rfl
      exact linked (books.leaving ▸ List.mem_append_right _ out)
    rw [woke.others v other]
    exact books.timeout v out

theorem expiring_of_unlinks {pc : Pc} (now : u ∈ unlinks pc) : pc.expiring = some u := by
  cases pc with
  | decrement v =>
    rw [List.mem_singleton.mp now]
    rfl
  | enter | next | sleeping | countDown | waits | guard | search | compare | shift | move
    | clearQueue | clearCount | result | wake | yield | finished | fault => simp [unlinks] at now

theorem one_of_last {n : UInt32} (last : n - 1 = 0) : n = 1 := by
  have := congrArg (· + 1) last
  simpa using this

theorem Timers.statement {j : Kernel} {pc : Pc} (books : Books k past ⟨j, pc⟩)
    (timers : Timers k past ⟨j, pc⟩) (live : ∀ o, ∀ u ∈ k.waiters o, k.Live u)
    (step : Handler.statement ⟨j, pc⟩ = some t) :
    Timers k (⟨⟨j, pc⟩, .statement, t⟩ :: past) t := by
  have frame := statement_frame step
  have timer := statement_sleepTime step
  have flow := books.shape.flow step
  obtain ⟨j', pc'⟩ := t
  have expired : ∀ u, u ∈ unlinks pc ++ past.unlinked → (k.osTasks u).sleepTime = 1 := by
    intro u there
    refine timers.expired u ((List.mem_append.mp there).imp_left expiring_of_unlinks)
  have fewer : ∀ o, ∀ u ∈ left k (past.awake ++ (unlinks pc ++ past.unlinked)) o,
      u ∈ left k (past.awake ++ past.unlinked) o := by
    intro o u there
    rw [mem_left, List.mem_append, List.mem_append] at *
    exact there.imp_right fun out => mt (Or.imp_right .inr) out
  -- a task that still waits has the timer it had, until the handler has come to it
  have before : ∀ o, ∀ u ∈ left k (past.awake ++ past.unlinked) o, pc.reached ≤ u.val →
      (j.osTasks u).sleepTime = (k.osTasks u).sleepTime := by
    intro o u there ahead
    rw [timers.early u ahead, if_neg]
    exact fun awake => (mem_left.mp there).2 (List.mem_append_left _ awake)
  refine ⟨frame.1.trans timers.count, ?early, ?due, ?expired⟩
  case early =>
    intro u ahead
    have ahead : pc'.reached ≤ u.val := ahead
    have passed : pc.reached ≤ u.val ∧ pc ≠ .countDown u := by
      cases flow with
      | on reached _ other => exact ⟨reached ▸ ahead, other u⟩
      | off reached _ _ other => exact ⟨reached ▸ ahead, other u⟩
      | skip => exact ⟨Nat.le_of_succ_le ahead, by simp⟩
      | down | due =>
        refine ⟨Nat.le_of_succ_le ahead, fun same => ?_⟩
        obtain rfl := Pc.countDown.inj same
        exact absurd ahead (Nat.not_succ_le_self _)
      | done => exact absurd u.isLt (Nat.not_lt.mpr ahead)
    rw [timer, if_neg passed.2]
    exact timers.early u passed.1
  case due =>
    rw [unlinked_statement]
    intro o u there behind last
    have old := fewer o u there
    have behind : u.val < pc'.reached := behind
    have here : u.val < pc.reached → pc.expiring = some u := fun h => timers.due o u old h last
    have mine : ∀ v : TaskId, pc.reached = v.val → u.val < v.val + 1 → pc.expiring = none →
        u = v ∧ (j.osTasks v).sleepTime = 1 := by
      intro v reached below idle
      have same : u = v := by
        by_contra other
        have apart : u.val ≠ v.val := fun h => other (Fin.ext h)
        have := here (by omega)
        simp [idle] at this
      subst same
      exact ⟨rfl, (before o u old reached.le).trans last⟩
    cases flow with
    | on reached expiring => exact expiring.trans (here (reached ▸ behind))
    | @off _ v reached expiring gone =>
      have same := expiring.symm.trans (here (reached ▸ behind))
      exact absurd old (Option.some.inj same ▸ gone o)
    | @skip v zero =>
      have timer := (mine v rfl behind rfl).2
      rw [zero] at timer
      cases timer
    | @down v more =>
      have timer := (mine v rfl behind rfl).2
      rw [timer] at more
      exact absurd rfl more
    | @due v => rw [(mine v rfl behind rfl).1]; rfl
    | @done i all =>
      have := live o u (mem_left.mp old).1
      have count : j.taskCount = k.taskCount := timers.count
      have := here (by simp only [Kernel.Live, Pc.reached] at *; omega)
      simp [Pc.expiring] at this
  case expired =>
    rw [unlinked_statement]
    rintro u (now | there)
    · cases flow with
      | on _ expiring => exact timers.expired u (.inl (expiring.symm.trans now))
      | off | skip | down | done => cases now
      | @due v last =>
        obtain rfl : v = u := Option.some.inj now
        have own := timers.early v (Nat.le_refl _)
        rw [one_of_last last] at own
        split at own
        · cases own
        · exact own.symm
    · exact expired u there

theorem Timers.count' (timers : Timers k past s) (nobody : s.kernel.posted x = none) :
    Timers k (⟨s, .post x, t⟩ :: past) ⟨s.kernel.osSemaphoreRelease x, s.pc⟩ := by
  obtain ⟨count, early, due, expired⟩ := timers
  have woken : Tick.woken (⟨s, .post x, t⟩ :: past) = past.woken := by simp [Tick.woken, nobody]
  have awake : Tick.awake (⟨s, .post x, t⟩ :: past) = past.awake := congrArg (List.map _) woken
  rw [← awake] at early due
  rw [Kernel.osSemaphoreRelease_counts nobody]
  split <;> exact ⟨count, early, due, expired⟩

theorem Timers.wake (timers : Timers k past s) (woke : Woke s.kernel u (.semaphore x) t.kernel)
    (same : t.pc = s.pc) (picked : s.kernel.posted x = some u) :
    Timers k (⟨s, .post x, t⟩ :: past) t := by
  have woken : Tick.woken (⟨s, .post x, t⟩ :: past) = (x, u) :: past.woken := by
    simp [Tick.woken, picked]
  have awake : Tick.awake (⟨s, .post x, t⟩ :: past) = u :: past.awake :=
    congrArg (List.map Prod.snd) woken
  refine ⟨woke.count.trans timers.count, fun v ahead => ?_, ?_, ?_⟩
  · rw [same] at ahead
    rw [awake]
    by_cases self : v = u
    · rw [self, woke.timer, if_pos List.mem_cons_self]
    · rw [woke.others v self, timers.early v ahead]
      exact if_congr (by rw [List.mem_cons, or_iff_right self]) rfl rfl
  · rw [awake, same]
    intro o v there
    rw [mem_left, List.cons_append, List.mem_cons] at there
    exact timers.due o v (mem_left.mpr (there.imp_right fun out => mt .inr out))
  · rw [same]
    exact timers.expired

/-- Every post adds a token to the count, or to a waiter, or finds the count at its bound. -/
def Balanced (k : Kernel) (past : Tick) (s : Handler) : Prop :=
  ∀ x, (k.semaphores x).count + past.posts x =
    (s.kernel.semaphores x).count + past.handed x + past.dropped x

theorem Balanced.post (balanced : Balanced k past s) (harmless : s.Harmless x) (books : Books k past s) :
    Balanced k (⟨s, .post x, t⟩ :: past) ⟨s.kernel.osSemaphoreRelease x, s.pc⟩ := by
  intro z
  have balanced := balanced z
  have posts : Tick.posts z (⟨s, .post x, t⟩ :: past) = past.posts z + if z = x then 1 else 0 := by
    simp [Tick.posts, List.countP_cons, eq_comm]
  have handed : Tick.handed z (⟨s, .post x, t⟩ :: past) =
      past.handed z + if z = x ∧ s.kernel.posted x ≠ none then 1 else 0 := by
    cases picked : s.kernel.posted x <;>
      simp [Tick.handed, Tick.woken, picked, List.countP_cons, eq_comm]
  have dropped : Tick.dropped z (⟨s, .post x, t⟩ :: past) = past.dropped z +
      if z = x ∧ s.kernel.posted x = none ∧
        (s.kernel.semaphores x).maxCount ≤ (s.kernel.semaphores x).count then 1 else 0 := by
    by_cases here : z = x
    · subst here
      simp [Tick.dropped, List.countP_cons]
    · simp [Tick.dropped, here, Ne.symm here]
  rw [posts, handed, dropped]
  cases picked : s.kernel.posted x with
  | none =>
    rw [Kernel.osSemaphoreRelease_counts picked]
    by_cases room : (s.kernel.semaphores x).count < (s.kernel.semaphores x).maxCount
    · rw [if_pos room]
      by_cases here : z = x
      · subst here
        simp only [Kernel.setSemaphore_semaphores, Function.update_self, if_true, ne_eq,
          not_true_eq_false, and_false, if_false, Nat.not_le.mpr room]
        omega
      · simpa [here] using balanced
    · rw [if_neg room]
      by_cases here : z = x
      · subst here
        simp only [ne_eq, not_true_eq_false, and_false, if_false, and_true, if_true,
          Nat.not_lt.mp room]
        omega
      · simpa [here] using balanced
  | some u =>
    obtain ⟨queue, count⟩ := books.shape.linked _ u (books.shape.picked harmless picked)
    rw [(Woke.of_post picked queue count).semaphores]
    simp only [ne_eq, reduceCtorEq, not_false_eq_true, and_true, false_and, and_false, if_false]
    omega

theorem books_of_run (linked : QueuesLinked k) (run : Run (· = ⟨k, .enter⟩) HarmlessStep past s) :
    Books k past s ∧ Timers k past s ∧ Balanced k past s := by
  induction run with
  | start h => exact h ▸ ⟨.base linked, .base k, fun _ => rfl⟩
  | @next past s t e run step ih =>
    obtain ⟨books, timers, balanced⟩ := ih
    obtain ⟨done, harmless⟩ := step
    cases e with
    | statement =>
      refine ⟨books.statement done, timers.statement books
        (fun o u there => (linked.parked o u there).1) done, fun x => ?_⟩
      rw [(statement_frame done).2.1]
      simpa [Tick.posts, Tick.handed, Tick.dropped, Tick.woken] using balanced x
    | post x =>
      obtain rfl := Option.some.inj done
      have harmless := harmless x rfl
      have balanced := balanced.post (t := ⟨s.kernel.osSemaphoreRelease x, s.pc⟩) harmless books
      cases picked : s.kernel.posted x with
      | none => exact ⟨books.count picked, timers.count' picked, balanced⟩
      | some u =>
        have member := books.shape.picked harmless picked
        obtain ⟨queue, count⟩ := books.shape.linked _ u member
        exact ⟨books.wake harmless picked, timers.wake (.of_post picked queue count) rfl picked, balanced⟩

/-- Outside of a removal the arrays hold what is left, and the pointers say so. -/
theorem Books.linked (books : Books k past s) (timers : Timers k past s) (linked : QueuesLinked k)
    (outside : s.kernel.waiters = left k (past.awake ++ past.unlinked))
    (settled : ∀ u, s.pc ≠ .clearQueue u) : QueuesLinked s.kernel where
  distinct o := outside ▸ books.shape.distinct o
  parked o u there := by
    rw [outside] at there
    have live : s.kernel.Live u := by
      rw [Kernel.Live, timers.count]
      exact (linked.parked o u (mem_left.mp there).1).1
    exact ⟨live, books.shape.linked o u there⟩
  queued u o live on := by
    rw [outside]
    exact (books.shape.queued u o live on).resolve_right (settled u)

end
end Handler

open Handler in
/-- **A tick loses no token** while the posts in it are harmless, and the next tick finds the
queues as this one has. -/
theorem preempted_tick {k : Kernel} {past : Tick} {s : Handler} (linked : QueuesLinked k)
    (run : Run (· = ⟨k, .enter⟩) HarmlessStep past s) :
    s.pc ≠ .fault ∧
    (∀ x, (k.semaphores x).count + past.posts x =
      (s.kernel.semaphores x).count + past.handed x + past.dropped x) ∧
    past.awake.Nodup ∧
    (∀ x u, (x, u) ∈ past.woken → u ∈ k.waiters (.semaphore x) ∧ u ∉ past.timedOut ∧
      (s.kernel.osTasks u).waitResult = .success) ∧
    (∀ t ∈ past.timedOut, (k.osTasks t).sleepTime = 1 ∧ (s.kernel.osTasks t).waitResult = .timeout) ∧
    (s.pc = .finished → ∀ o, s.kernel.waiters o =
      (k.waiters o).filter fun t => t ∉ past.awake ∧ t ∉ past.timedOut) ∧
    (s.pc = .finished → ∀ o, ∀ t ∈ k.waiters o, (k.osTasks t).sleepTime = 1 →
      t ∈ past.awake ∨ t ∈ past.timedOut) ∧
    (s.pc = .finished → QueuesLinked s.kernel) := by
  obtain ⟨books, timers, balanced⟩ := books_of_run linked run
  have out : ∀ t ∈ past.timedOut, t ∈ past.unlinked := fun t ht => by
    rw [books.leaving]
    exact List.mem_append_right _ ht
  have all : s.pc = .finished → past.unlinked = past.timedOut := fun pc => by
    rw [books.leaving, pc]
    rfl
  refine ⟨fun fault => ?_, balanced, books.distinct, fun x u woken => ?_, fun t ht => ?_,
    fun pc o => ?_, fun pc o t queued last => ?_, fun pc => ?_⟩
  · have place := books.shape.place
    rw [fault] at place
    exact place
  · have awake : u ∈ past.awake := List.mem_map_of_mem woken
    exact ⟨books.former x u woken, fun ht => books.apart u awake (out u ht), books.success u awake⟩
  · exact ⟨timers.expired t (.inr (out t ht)), books.timeout t ht⟩
  · have place := books.shape.place
    rw [pc] at place
    refine (congrFun place o).trans (List.filter_congr fun t _ => decide_eq_decide.mpr ?_)
    rw [List.mem_append, not_or, all pc]
  · by_contra still
    have there : t ∈ left k (past.awake ++ past.unlinked) o := by
      rw [all pc]
      exact mem_left.mpr ⟨queued, fun gone => still (List.mem_append.mp gone)⟩
    have expiring := timers.due o t there (by rw [pc]; exact t.isLt) last
    rw [pc] at expiring
    cases expiring
  · have place := books.shape.place
    rw [pc] at place
    exact books.linked timers linked place (by simp [pc])

/-- Statements and posts played from the beginning of a tick, with a check of every step
and of the end. -/
def strikes (rule : Handler → Preemption → Bool) (goal : Tick → Handler → Bool)
    (events : List Preemption) (k : Kernel) : Bool :=
  match Runs.play Handler.next events [] ⟨k, .enter⟩ with
  | some (past, s) => past.all (fun y => rule y.pre y.event) && goal past s
  | none => false

theorem strikes_run {rule : Handler → Preemption → Bool} {goal : Tick → Handler → Bool}
    {events : List Preemption} {k : Kernel} (done : strikes rule goal events k = true) :
    ∃ past s, Run (· = ⟨k, .enter⟩) (fun s e t => s.Step e t ∧ rule s e = true) past s ∧
      goal past s = true := by
  simp only [strikes] at done
  split at done
  · rename_i past s path
    obtain ⟨obeyed, goal⟩ := (Bool.and_eq_true _ _).mp done
    have run : Run (· = ⟨k, .enter⟩) Handler.Step past s := Runs.play_run path (.start rfl)
    exact ⟨past, s, run.obey (List.all_eq_true.mp obeyed), goal⟩
  · cases done

/-- The rule that only harmless posts obey. -/
def harmless (s : Handler) : Preemption → Bool
  | .post x => s.Harmless x
  | .statement => true

theorem harmless_run {start : Handler → Prop} {past : Tick} {s : Handler}
    (run : Run start (fun s e t => s.Step e t ∧ harmless s e = true) past s) :
    Run start Handler.HarmlessStep past s :=
  run.weaken (fun _ h => h) fun s e t h =>
    ⟨h.1, fun x event => by simpa [event, harmless] using h.2⟩

/-- Three tasks wait. While the tick takes the last of them off the queue, a post wakes the
first, and another one finds nobody waiting. -/
theorem preempted_tick_woken : ∃ k past s, QueuesLinked k ∧
    Run (· = ⟨k, .enter⟩) Handler.HarmlessStep past s ∧ k.waiters (.semaphore 0) = [3, 2, 1] ∧
      s.kernel.waiters (.semaphore 0) = [2] ∧ (s.kernel.osTasks 3).waitResult = .success ∧
      (s.kernel.osTasks 1).waitResult = .timeout := by
  obtain ⟨_, s₀, early, done⟩ := rehearse_run
    (show rehearse 0 (fun _ => ⟨0, 1⟩) [0, 1, 2, 3] (fun _ _ => true)
      (fun _ s => s.kernel.waiters (.semaphore 0) = [3, 2, 1] ∧ strikes harmless
        (fun past s => s.pc = .finished ∧ past.woken = [(0, 3)] ∧ past.timedOut = [1])
        (List.replicate 9 .statement ++ [.post 0, .post 1] ++ List.replicate 16 .statement) s.kernel)
      [.call 3 (.semaphoreAcquire 0 7) .parked, .pass, .call 2 (.semaphoreAcquire 0 7) .parked,
        .pass, .call 1 (.semaphoreAcquire 0 1) .parked, .pass] by
      decide +kernel)
  have trace : Trace 0 _ s₀ := early.weaken (fun _ h => h.launched) fun _ _ _ h => h.1
  have linked := trace.sound.wait_queues.linked
  obtain ⟨queue, struck⟩ := of_decide_eq_true done
  obtain ⟨past, s, run, finish⟩ := strikes_run struck
  obtain ⟨pc, woken, timedOut⟩ := of_decide_eq_true finish
  have run := harmless_run run
  obtain ⟨_, _, _, success, timeout, finished, _, _⟩ := preempted_tick linked run
  refine ⟨s₀.kernel, past, s, linked, run, queue, ?_, (success 0 3 (by simp [woken])).2.2,
    (timeout 1 (by simp [timedOut])).2⟩
  rw [finished pc, queue]
  simp [Tick.awake, woken, timedOut, List.filter]

/-- A post between the check of `wait_queue` and the removal loses its token; one within
the removal makes the handler read through a NULL pointer. -/
theorem preempted_tick_loses_token : ∃ past₀ s₀, Trace 0 past₀ s₀ ∧
    (∃ past s, Run (· = ⟨s₀.kernel, .enter⟩) Handler.Step past s ∧
      s.pc = .finished ∧ past.map (·.event) = List.replicate 5 .statement ++ .post 0 ::
        List.replicate 7 .statement ∧
      s₀.kernel.waiters (.semaphore 0) = [1] ∧ s.kernel.waiters (.semaphore 0) = [] ∧
      (s.kernel.osTasks 1).waitResult = .timeout ∧ (s.kernel.semaphores 0).count = 0) ∧
    ∃ past s, Run (· = ⟨s₀.kernel, .enter⟩) Handler.Step past s ∧
      s.pc = .fault := by
  obtain ⟨past₀, s₀, early, done⟩ := rehearse_run
    (show rehearse 0 (fun _ => ⟨0, 1⟩) [0, 1] (fun _ _ => true)
      (fun _ s => s.kernel.waiters (.semaphore 0) = [1] ∧ strikes (fun _ _ => true)
        (fun past s => s.pc = .finished ∧ past.map (·.event) = List.replicate 5 .statement ++
          .post 0 :: List.replicate 7 .statement ∧ s.kernel.waiters (.semaphore 0) = [] ∧
          (s.kernel.osTasks 1).waitResult = .timeout ∧ (s.kernel.semaphores 0).count = 0)
        (List.replicate 7 .statement ++ .post 0 :: List.replicate 5 .statement) s.kernel ∧
        strikes (fun _ _ => true) (fun _ s => s.pc = .fault)
          (List.replicate 8 .statement ++ [.post 0, .statement]) s.kernel)
      [.call 1 (.semaphoreAcquire 0 1) .parked, .pass] by
      decide +kernel)
  have trace : Trace 0 past₀ s₀ := early.weaken (fun _ h => h.launched) fun _ _ _ h => h.1
  obtain ⟨queue, lost, fault⟩ := of_decide_eq_true done
  obtain ⟨past, s, run, finish⟩ := strikes_run lost
  obtain ⟨past', s', run', fault⟩ := strikes_run fault
  obtain ⟨pc, events, empty, timeout, count⟩ := of_decide_eq_true finish
  exact ⟨past₀, s₀, trace,
    ⟨past, s, run.weaken (fun _ h => h) fun _ _ _ h => h.1, pc, events, queue, empty, timeout, count⟩,
    past', s', run'.weaken (fun _ h => h) fun _ _ _ h => h.1, of_decide_eq_true fault⟩

end Sentinel
