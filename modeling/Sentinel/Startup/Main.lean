import Sentinel.Startup.Selftest

/-! `main` reaches the tasks. The benchmarks on its way print what the cycle counter shows, and
the system that is launched is the one from which the runs of the tasks begin. -/

namespace Sentinel

open Runs (Transition Run)
open Polling (Poll Ends)

namespace Boot

section
variable {w : World} {s₀ s : Boot} {str : List UInt8} {n : Nat}

/-! ### The benchmarks -/

theorem Leads.cycles (leads : s₀.Leads str n s) {Q : UInt32 → Boot → Prop}
    (rest : ∀ t, s₀.Leads str (n + 1) t → t.startup = s.startup →
      Q (w.cyccnt (s₀.reads + n)) t) : Ends (cycles w) Q s := by
  have now : w.cyccnt (s₀.reads + n) = w.cyccnt s.reads := by rw [leads.reads]
  rw [now] at rest
  apply Ends.attempt rfl
  apply rest
  · exact ⟨leads.reached, leads.spares, leads.registers, leads.sent, leads.servo,
      congrArg (· + 1) leads.reads⟩
  · rfl

theorem Leads.printNumber (leads : s₀.Leads str n s) (on : s₀.On w) (num : UInt32)
    {Q : Unit → Boot → Prop}
    (rest : ∀ t, s₀.Leads (str ++ decimal num) n t → t.startup = s.startup → Q () t) :
    Ends (printNumber w num) Q s := by
  obtain ⟨enabled, transmits⟩ := leads.on on
  obtain ⟨enough, sends⟩ := Uart.Usart.uartPrint_sends enabled transmits (decimal num) s.sent
  refine leads.sends ⟨enough, ?_⟩ rest
  intro rounds long
  have number := Uart.uartPrintNumber_prints (s.usart w) rounds num s.sent
  rw [Boot.printNumber, number]
  exact congrArg (Option.map _) (sends rounds long)

/-- The report is what `report` of the ping-pong prints. -/
theorem Leads.report (leads : s₀.Leads str n s) (on : s₀.On w) {name : String} {num : UInt32}
    {Q : Unit → Boot → Prop}
    (rest : ∀ t, s₀.Leads (str ++ Microbench.report name num) n t → t.startup = s.startup →
      Q () t) : Ends (report w name num) Q s := by
  unfold Boot.report
  apply Ends.bind
  apply leads.print on
  intro s₁ leads same₁
  apply Ends.bind
  apply leads.print on
  intro s₂ leads same₂
  apply Ends.bind
  apply leads.print on
  intro s₃ leads same₃
  apply Ends.bind
  apply leads.printNumber on
  intro s₄ leads same₄
  apply Ends.bind
  apply leads.print on
  intro s₅ leads same₅
  apply Ends.bind
  apply leads.printNumber on
  intro s₆ leads same₆
  apply Ends.bind
  apply leads.print on
  intro s₇ leads same₇
  apply Ends.bind
  apply leads.printNumber on
  intro s₈ leads same₈
  apply leads.print on
  intro t leads same
  apply rest t
  · simpa only [Microbench.report, List.append_assoc] using leads
  · rw [same, same₈, same₇, same₆, same₅, same₄, same₃, same₂, same₁]

/-- The figure that a benchmark reports when it begins with read `n` of the counter. -/
def figure (cyccnt : Nat → UInt32) (n : Nat) : UInt32 :=
  (cyccnt (n + 1) - cyccnt n) / Microbench.benchIterations -
    (cyccnt (n + 3) - cyccnt (n + 2)) / Microbench.benchIterations

/-- A benchmark whose body keeps what it starts from. -/
theorem Leads.bench (leads : s₀.Leads str n s) (on : s₀.On w) {name : String}
    {body : Nat → Poll Boot Unit} {P : Startup → Prop} {Q : Unit → Boot → Prop}
    (holds : P s.startup)
    (round : ∀ i t, s₀.Leads str (n + 1) t → P t.startup →
      Ends (body i) (fun _ t => s₀.Leads str (n + 1) t ∧ P t.startup) t)
    (rest : ∀ t, s₀.Leads (str ++ Microbench.report name (figure w.cyccnt (s₀.reads + n))) (n + 4) t →
      Q () t) : Ends (bench w name body) Q s := by
  unfold Boot.bench
  apply Ends.bind
  apply leads.cycles
  intro s₁ leads same₁
  apply Ends.bind
  apply (Ends.repeatFor (I := fun _ t => s₀.Leads str (n + 1) t ∧ P t.startup)
    ⟨leads, same₁ ▸ holds⟩ fun i t _ now => round i t now.1 now.2).mono
  rintro _ s₂ ⟨leads, _⟩
  apply Ends.bind
  apply leads.cycles
  intro s₃ leads _
  apply Ends.bind
  unfold measureOverheadCycles
  apply Ends.bind
  apply leads.cycles
  intro s₄ leads _
  apply Ends.bind
  apply leads.cycles
  intro s₅ leads _
  apply Ends.pure
  apply leads.report on
  intro t leads _
  exact rest t leads

theorem Leads.benchMutex (leads : s₀.Leads str n s) (on : s₀.On w) {Q : Unit → Boot → Prop}
    (rest : ∀ t, s₀.Leads (str ++ Microbench.report "Mutex acquire+release (uncontested)"
      (figure w.cyccnt (s₀.reads + n))) (n + 4) t → Q () t) : Ends (benchMutexOverhead w) Q s := by
  have own : Waitable.Local (.mutex Sentinel.benchMutex) := by decide
  unfold benchMutexOverhead
  apply Ends.bind
  apply leads.perform (.initMutex Sentinel.benchMutex) trivial own rfl
  intro s₁ leads same
  have free : s₁.startup.Guard Sentinel.benchMutex ⟨0, none⟩ := by
    refine ⟨own, ?_, ?_⟩ <;> simp [same, Kernel.osMutexInit]
  apply leads.bench on (P := fun s => s.Guard Sentinel.benchMutex ⟨0, none⟩) free _ rest
  intro _ t leads free
  apply Ends.bind
  apply leads.lock free
  intro s₂ owner leads held _
  apply Ends.bind
  apply leads.unlock held
  intro s₃ _ leads free
  exact .pure ⟨leads, free⟩

theorem Leads.benchSemaphore (leads : s₀.Leads str n s) (on : s₀.On w) {Q : Unit → Boot → Prop}
    (rest : ∀ t, s₀.Leads (str ++ Microbench.report "Semaphore take+give (uncontested)"
      (figure w.cyccnt (s₀.reads + n))) (n + 4) t → Q () t) :
    Ends (benchSemaphoreOverhead w) Q s := by
  have own : Waitable.Local (.semaphore Sentinel.benchSemaphore) := by decide
  unfold benchSemaphoreOverhead
  apply Ends.bind
  apply leads.perform (.initSemaphore Sentinel.benchSemaphore 1 1) trivial own rfl
  intro s₁ leads same
  have stock : s₁.startup.Stock Sentinel.benchSemaphore ⟨1, 1⟩ := by
    refine ⟨own, ?_, ?_⟩ <;> simp [same, Kernel.osSemaphoreInit]
  apply leads.bench on (P := fun s => s.Stock Sentinel.benchSemaphore ⟨1, 1⟩) stock _ rest
  intro _ t leads stock
  apply Ends.bind
  apply leads.take stock
  intro s₂ leads stock
  apply Ends.bind
  apply leads.give stock (by decide)
  intro s₃ _ leads stock
  exact .pure ⟨leads, stock⟩

theorem Leads.benchQueue (leads : s₀.Leads str n s) (on : s₀.On w) {buffer : Nat → UInt32}
    {Q : Unit → Boot → Prop}
    (own : ∀ o ∈ (s.startup.rings benchRing).objects, o.Local)
    (apart : (s.startup.rings benchRing).emptySlots ≠ (s.startup.rings benchRing).filledSlots)
    (rest : ∀ t, s₀.Leads (str ++ Microbench.report "Queue send+receive (1 word)"
      (figure w.cyccnt (s₀.reads + n))) (n + 4) t → Q () t) :
    Ends (benchQueueRoundtrip w buffer) Q s := by
  unfold benchQueueRoundtrip
  apply Ends.bind
  apply leads.initQueue ⟨by decide, own⟩ apart (by decide)
  intro s₁ leads empty
  apply leads.bench on (P := fun s => s.Channel benchRing 8 []) empty _ rest
  intro i t leads empty
  apply Ends.bind
  apply leads.queue empty rfl
  intro s₂ leads one
  apply Ends.bind
  apply leads.queue one rfl
  intro s₃ leads empty
  exact .pure ⟨leads, empty⟩

theorem Leads.benchScheduler (leads : s₀.Leads str n s) (on : s₀.On w) {Q : Unit → Boot → Prop}
    (rest : ∀ t, s₀.Leads (str ++ Microbench.report "Scheduler decision"
      (figure w.cyccnt (s₀.reads + n))) (n + 4) t → Q () t) :
    Ends (benchSchedulerDecision w) Q s := by
  unfold benchSchedulerDecision
  apply leads.bench on (P := fun _ => True) trivial _ rest
  intro _ t leads _
  -- the tripwire of the current task holds, so the hook is never called
  obtain ⟨k, decided⟩ := Kernel.osScheduler_some leads.reached.intact
  apply Ends.bind
  apply leads.perform .schedule trivial trivial
  · rw [Startup.perform, decided, Option.map_some]
  · intro s₁ leads _
    exact .pure ⟨leads, trivial⟩

/-- What the benchmarks print. -/
def microbenchTranscript (cyccnt : Nat → UInt32) (n : Nat) : List UInt8 :=
  text "\r\n--- SENTINEL MICROBENCH START ---\r\n" ++
  Microbench.report "Mutex acquire+release (uncontested)" (figure cyccnt n) ++
  Microbench.report "Semaphore take+give (uncontested)" (figure cyccnt (n + 4)) ++
  Microbench.report "Queue send+receive (1 word)" (figure cyccnt (n + 8)) ++
  Microbench.report "Scheduler decision" (figure cyccnt (n + 12)) ++
  text "--- BENCHMARK COMPLETE ---\r\n\r\n"

theorem microbenchRunAll_prints {buffer : Nat → UInt32} {Q : Unit → Boot → Prop} (on : s₀.On w)
    (leads : s₀.Leads str n s)
    (own : ∀ o ∈ (s₀.startup.rings benchRing).objects, o.Local)
    (apart : (s₀.startup.rings benchRing).emptySlots ≠ (s₀.startup.rings benchRing).filledSlots)
    (rest : ∀ t, s₀.Leads (str ++ microbenchTranscript w.cyccnt (s₀.reads + n)) (n + 16) t →
      Q () t) : Ends (microbenchRunAll w buffer) Q s := by
  unfold microbenchRunAll
  apply Ends.bind
  apply leads.print on
  intro s₁ leads _
  apply Ends.bind
  apply leads.benchMutex on
  intro s₂ leads
  apply Ends.bind
  apply leads.benchSemaphore on
  intro s₃ leads
  obtain ⟨own, apart⟩ := leads.objects own apart
  apply Ends.bind
  apply leads.benchQueue on own apart
  intro s₄ leads
  apply Ends.bind
  apply leads.benchScheduler on
  intro s₅ leads
  apply leads.print on
  intro t leads _
  apply rest t
  simpa only [microbenchTranscript, List.append_assoc, Nat.add_assoc] using leads

end
end Boot

/-! ### The tasks -/

/-- The two tasks that the flag chooses, with their priorities, and the idle task. -/
def Image.chosen (image : Image) : List (Entry × Nat) :=
  if image.sentinelBench then [(image.ping, 2), (image.pong, 2)]
  else [(image.radar, 2), (image.sweep, 1)]

def Image.tasks (image : Image) : List (Entry × Nat) := image.chosen ++ [(image.idle, 0)]

@[simp] theorem Image.chosen_length (image : Image) : image.chosen.length = 2 := by
  unfold Image.chosen
  split <;> rfl

@[simp] theorem Image.tasks_length (image : Image) : image.tasks.length = 3 := by
  simp [Image.tasks]

/-- The task is one that `os_task_create` accepts, with a stack that is whole. -/
structure Entry.Placed (e : Entry) : Prop where
  taskptr : e.taskptr ≠ 0
  aligned : e.stack.toNat % 4 = 0
  fits : e.stack.toNat + 4 * stackSize.toNat ≤ 2 ^ 32

def Entry.Apart (e f : Entry) : Prop :=
  e.stack.toNat + 4 * stackSize.toNat ≤ f.stack.toNat ∨
    f.stack.toNat + 4 * stackSize.toNat ≤ e.stack.toNat

structure Image.Placed (image : Image) : Prop where
  each : ∀ x ∈ image.tasks, x.1.Placed
  apart : image.tasks.Pairwise fun x y => x.1.Apart y.1

namespace Kernel

/-- These tasks have been created, in this order and with these priorities. -/
structure Has (k : Kernel) (l : List (Entry × Nat)) : Prop where
  count : k.taskCount = l.length
  each : ∀ (t : TaskId) (x : Entry × Nat), l[t.val]? = some x →
    (k.osTasks t).basePriority = x.2 ∧ (k.osTasks t).stackBase = x.1.stack ∧
      (k.osTasks t).stackSize = stackSize

section
variable {k k' : Kernel} {l : List (Entry × Nat)} {e : Entry}

theorem Has.ownStack (has : k.Has l) (placed : e.Placed) (others : ∀ x ∈ l, x.1.Placed)
    (apart : ∀ x ∈ l, x.1.Apart e) : Startup.OwnStack k e.stack stackSize := by
  refine ⟨placed.aligned, placed.fits, ?_⟩
  rintro i inside t live ⟨j, within, same⟩
  have here : t.val < l.length := has.count ▸ live
  have there : l[t.val] ∈ l := List.getElem_mem here
  obtain ⟨_, base, size⟩ := has.each t l[t.val] (List.getElem?_eq_getElem here)
  have words : stackSize.toNat = 256 := rfl
  have first := placed.fits
  have second := (others _ there).fits
  have disjoint := apart _ there
  simp only [Entry.Apart, words] at inside first second disjoint
  rw [size, words] at within
  rw [base] at same
  have value := congrArg UInt32.toNat same
  rw [Words.toNat_slot (by omega), Words.toNat_slot (by omega)] at value
  omega

theorem Has.create (has : k.Has l) (priority : Nat) (room : l.length < maxTasks) (placed : e.Placed) :
    ∃ k', k.osTaskCreate e.taskptr e.stack stackSize priority = (true, k') ∧
      k'.Has (l ++ [(e, priority)]) ∧ k'.mutexes = k.mutexes ∧ k'.semaphores = k.semaphores := by
  have room' : k.taskCount < maxTasks := has.count ▸ room
  have accepted : ¬ (e.taskptr = 0 ∨ stackSize < 64) := by
    rintro (none | small)
    · exact placed.taskptr none
    · exact absurd small (by decide)
  unfold osTaskCreate
  rw [dif_pos room', if_neg accepted]
  refine ⟨_, rfl, ?_, rfl, rfl⟩
  constructor
  · simp [has.count]
  · intro t x there
    by_cases new : t = ⟨k.taskCount, room'⟩
    · subst new
      simp only [has.count, List.getElem?_concat_length, Option.some.injEq] at there
      subst there
      simp
    · have old : t.val ≠ l.length := by
        intro same
        exact new (Fin.ext (same.trans has.count.symm))
      have before : t.val < l.length := by
        have within := (List.getElem?_eq_some_iff.mp there).1
        simp only [List.length_append, List.length_singleton] at within
        omega
      rw [List.getElem?_append_left before] at there
      simp only [Function.update_of_ne new]
      exact has.each t x there

/-- The task that runs is one whose priority no other exceeds. -/
theorem Has.first (has : k.Has l) (spares : k.Spares k') {first : TaskId} (live : k'.Live first)
    (greatest : ∀ t, k'.Live t → (k'.osTasks t).basePriority ≤ (k'.osTasks first).basePriority) :
    ∃ x, l[first.val]? = some x ∧ ∀ (t : TaskId) (y : Entry × Nat), l[t.val]? = some y →
      y.2 ≤ x.2 := by
  have inside : ∀ t, k'.Live t ↔ t.val < l.length := by
    intro t
    rw [Live, spares.count, has.count]
  have here := List.getElem?_eq_getElem ((inside first).mp live)
  refine ⟨_, here, ?_⟩
  intro t y there
  have before := greatest t ((inside t).mpr (List.getElem?_eq_some_iff.mp there).1)
  rwa [spares.priority, spares.priority, (has.each t y there).1, (has.each first _ here).1] at before

theorem Spares.launch (done : k.osKernelLaunch = some k') : k.Spares k' := by
  obtain ⟨k₁, scheduled, rfl⟩ := Option.map_eq_some_iff.mp done
  obtain ⟨mutexes, semaphores, count, priority⟩ := Spares.schedule scheduled
  exact ⟨mutexes, semaphores, count, priority⟩

end
end Kernel

namespace Boot

/-- What `main` has put together: the objects of the tasks are fresh, and these tasks have been
created. -/
structure Assembled (s : Boot) (l : List (Entry × Nat)) : Prop where
  reached : s.startup.Reached
  has : s.startup.kernel.Has l
  uartLock : s.startup.kernel.mutexes uartLock = ⟨0, none⟩
  echoReady : s.startup.kernel.semaphores echoReady = ⟨0, 1⟩
  queue : FreshQueue sweepQueue s.startup.kernel
  ring : s.startup.rings sweepRing = sweepQueue
  sems : s.startup.kernel.semaphores Microbench.pingSem = ⟨0, 1⟩ ∧
    s.startup.kernel.semaphores Microbench.pongSem = ⟨0, 1⟩

section
variable {s t : Boot} {l : List (Entry × Nat)} {answer : Answer} {now : Startup}

/-- A call of `main`, on whatever object. -/
theorem performed (reached : s.startup.Reached) (a : Action) {Q : Answer → Boot → Prop}
    (allowed : s.startup.allows a) (apart : s.startup.KeepsApart a)
    (done : s.startup.perform a = some (answer, now))
    (rest : ∀ t : Startup, t = now → t.Reached → Q answer { s with startup := t }) :
    Ends (Boot.perform a) Q s := by
  apply Ends.attempt (by rw [done, Option.map_some])
  exact rest now rfl (reached.next allowed apart done)

/-- One task more. -/
theorem Assembled.create (built : s.Assembled l) {e : Entry} {priority : Nat}
    {Q : Answer → Boot → Prop} (room : l.length < maxTasks) (placed : e.Placed)
    (others : ∀ x ∈ l, x.1.Placed ∧ x.1.Apart e)
    (rest : ∀ k, ({ s with startup.kernel := k } : Boot).Assembled (l ++ [(e, priority)]) →
      Q (.created true) { s with startup.kernel := k }) : Ends (osTaskCreate e priority) Q s := by
  obtain ⟨reached, has, lock, ready, queue, ring, sems⟩ := built
  obtain ⟨k, created, now, mutexes, semaphores⟩ := has.create priority room placed
  apply performed reached (.create e.taskptr e.stack stackSize priority) trivial
  · exact has.ownStack placed (fun x there => (others x there).1) fun x there => (others x there).2
  · rw [Startup.perform, created]
  · rintro _ rfl reached
    apply rest k
    obtain ⟨free, empty, filled, head, tail⟩ := queue
    rw [← mutexes] at lock free
    rw [← semaphores] at ready empty filled sems
    exact ⟨reached, now, lock, ready, ⟨free, empty, filled, head, tail⟩, ring, sems⟩

theorem Assembled.createTwo (built : s.Assembled []) {e f : Entry} {p q : Nat} (first : e.Placed)
    (second : f.Placed) (apart : e.Apart f) :
    Ends (do let _ ← osTaskCreate e p; let _ ← osTaskCreate f q)
      (fun _ t => t.Assembled [(e, p), (f, q)] ∧ ∃ k, t = { s with startup.kernel := k }) s := by
  apply Ends.bind
  apply built.create (by decide) first (by simp)
  intro k₁ built
  apply Ends.bind
  apply built.create (by simp [maxTasks]) second
  · intro x there
    obtain rfl := List.mem_singleton.mp there
    exact ⟨first, apart⟩
  · intro k₂ built
    exact .pure ⟨built, k₂, rfl⟩

theorem createTasks_ends {image : Image} (placed : image.Placed) (built : s.Assembled []) :
    Ends (createTasks image)
      (fun _ t => t.Assembled image.chosen ∧ ∃ k, t = { s with startup.kernel := k }) s := by
  obtain ⟨each, apart⟩ := placed
  cases bench : image.sentinelBench with
  | true =>
    simp only [Image.tasks, Image.chosen, bench, if_true] at each apart
    simp only [createTasks, Image.chosen, bench, if_true]
    exact built.createTwo (each (image.ping, 2) (by simp)) (each (image.pong, 2) (by simp))
      ((List.pairwise_cons.mp apart).1 (image.pong, 2) (by simp))
  | false =>
    simp only [Image.tasks, Image.chosen, bench, Bool.false_eq_true, if_false] at each apart
    simp only [createTasks, Image.chosen, bench, Bool.false_eq_true, if_false]
    exact built.createTwo (each (image.radar, 2) (by simp)) (each (image.sweep, 1) (by simp))
      ((List.pairwise_cons.mp apart).1 (image.sweep, 1) (by simp))

theorem microbenchInit_ends (reached : s.startup.Reached) :
    Ends microbenchInit (fun _ t => ∃ now, t = { s with startup := now } ∧ now.Reached ∧
      now.rings = s.startup.rings ∧ now.kernel.taskCount = s.startup.kernel.taskCount ∧
      now.kernel.semaphores Microbench.pingSem = ⟨0, 1⟩ ∧
      now.kernel.semaphores Microbench.pongSem = ⟨0, 1⟩) s := by
  unfold microbenchInit
  apply Ends.bind
  apply performed reached (.initSemaphore Microbench.pingSem 0 1) trivial trivial rfl
  intro s₁ same₁ reached
  apply Ends.bind
  apply performed reached (.initSemaphore Microbench.pongSem 0 1) trivial trivial rfl
  intro s₂ same₂ reached
  have apart : Microbench.pingSem ≠ Microbench.pongSem := by decide
  apply Ends.pure
  refine ⟨s₂, rfl, reached, ?_, ?_, ?_, ?_⟩ <;>
    simp [same₂, same₁, Kernel.osSemaphoreInit, apart]

theorem initObjects_ends (reached : s.startup.Reached) (none : s.startup.kernel.taskCount = 0)
    (objects : (s.startup.rings sweepRing).objects = sweepQueue.objects)
    (sems : s.startup.kernel.semaphores Microbench.pingSem = ⟨0, 1⟩ ∧
      s.startup.kernel.semaphores Microbench.pongSem = ⟨0, 1⟩) :
    Ends initObjects (fun _ t => t.Assembled [] ∧ ∃ now, t = { s with startup := now } ∧
      ∀ i ≠ sweepRing, now.rings i = s.startup.rings i) s := by
  simp only [OsMessageQueue.objects, List.cons.injEq, Waitable.mutex.injEq,
    Waitable.semaphore.injEq, and_true] at objects
  obtain ⟨lock, emptySlots, filledSlots⟩ := objects
  unfold initObjects
  apply Ends.bind
  apply performed reached (.initQueue sweepRing (fun _ => 0) 8) trivial trivial rfl
  intro s₁ same₁ reached
  simp only [osQueueInit, lock, emptySlots, filledSlots] at same₁
  apply Ends.bind
  apply performed reached (.initSemaphore echoReady 0 1) trivial trivial rfl
  intro s₂ same₂ reached
  apply Ends.bind
  apply performed reached (.initMutex uartLock) trivial trivial rfl
  intro s₃ same₃ reached
  apply Ends.pure
  constructor
  · constructor
    case reached => exact reached
    case has =>
      constructor
      · simpa [same₃, same₂, same₁, Kernel.osMutexInit, Kernel.osSemaphoreInit] using none
      · intro t x there
        cases there
    case uartLock => simp [same₃, Kernel.osMutexInit]
    case echoReady => simp [same₃, same₂, Kernel.osMutexInit, Kernel.osSemaphoreInit]
    case queue =>
      refine ⟨?_, ?_, ?_, rfl, rfl⟩ <;>
        simp [same₃, same₂, same₁, Kernel.osMutexInit, Kernel.osSemaphoreInit, sweepQueue, uartLock,
          echoReady]
    case ring => simp [same₃, same₂, same₁, sweepQueue]
    case sems =>
      obtain ⟨ping, pong⟩ := sems
      constructor <;>
        simp [same₃, same₂, same₁, Kernel.osMutexInit, Kernel.osSemaphoreInit, sweepQueue, echoReady,
          Microbench.pingSem, Microbench.pongSem] <;> assumption
  · refine ⟨s₃, rfl, ?_⟩
    intro i other
    simp [same₃, same₂, same₁, other]

/-- The objects after calls that spare them. -/
theorem Assembled.objects {k : Kernel} (built : s.Assembled l) (spares : s.startup.kernel.Spares k) :
    k.mutexes Sentinel.uartLock = ⟨0, none⟩ ∧ k.semaphores Sentinel.echoReady = ⟨0, 1⟩ ∧
      FreshQueue sweepQueue k ∧
      k.semaphores Microbench.pingSem = ⟨0, 1⟩ ∧ k.semaphores Microbench.pongSem = ⟨0, 1⟩ := by
  obtain ⟨_, _, lock, ready, ⟨free, empty, filled, head, tail⟩, _, ping, pong⟩ := built
  have mutexes := spares.mutexes
  have semaphores := spares.semaphores
  refine ⟨?_, ?_, ⟨?_, ?_, ?_, head, tail⟩, ?_, ?_⟩
  · rw [mutexes _ (by decide), lock]
  · rw [semaphores _ (by decide), ready]
  · rw [mutexes _ (by decide), free]
  · rw [semaphores _ (by decide), empty]
  · rw [semaphores _ (by decide), filled]
  · rw [semaphores _ (by decide), ping]
  · rw [semaphores _ (by decide), pong]

theorem Assembled.launches {str : List UInt8} {n : Nat} (built : s.Assembled l)
    (leads : s.Leads str n t) (idle : idleTask.val < l.length) :
    Ends osKernelLaunch (fun _ u => ∃ k first x, u = { t with startup.kernel := k } ∧
      Launched idleTask ⟨k, fun _ => none⟩ ∧ System.Runs ⟨k, fun _ => none⟩ first ∧
      s.startup.kernel.Spares k ∧ l[first.val]? = some x ∧
      ∀ (t : TaskId) (y : Entry × Nat), l[t.val]? = some y → y.2 ≤ x.2) t := by
  have live : t.startup.kernel.Live idleTask := by
    rw [Kernel.Live, leads.spares.kernel.count, built.has.count]
    exact idle
  obtain ⟨k, first, launch, launched, runs, chosen, greatest⟩ :=
    leads.reached.prepared.launches leads.reached.intact live
  obtain ⟨x, here, above⟩ := built.has.first leads.spares.kernel chosen greatest
  apply Ends.attempt (by rw [launch, Option.map_some])
  exact ⟨k, first, x, rfl, launched, runs, leads.spares.kernel.trans (.launch launch), here, above⟩

/-- Power has come on: `.bss` is zero, and the objects of a queue are its own. -/
structure PowerOn (s : Boot) : Prop where
  blank : s.startup.kernel.Blank
  fresh : ∀ o, s.startup.fresh o = false
  objects : (s.startup.rings sweepRing).objects = sweepQueue.objects
  locals : ∀ i ∈ [postRing, benchRing], (∀ o ∈ (s.startup.rings i).objects, o.Local) ∧
    (s.startup.rings i).emptySlots ≠ (s.startup.rings i).filledSlots
  sent : s.sent = []
  pulses : s.pulses = []

/-- What is sent before the first task runs. -/
def bootTranscript (cyccnt : Nat → UInt32) (n : Nat) : List UInt8 :=
  text "--- SENTINEL RTOS BOOTING ---\r\n" ++ postTranscript ++ microbenchTranscript cyccnt n

/-- The execution of the tasks that begins here. What has been sent until now is not counted. -/
def radarStart (s : Boot) (sr : UInt32) : Execution Peripherals Place where
  system := ⟨s.startup.kernel, fun _ => none⟩
  shared := ⟨s.registers .usart2Cr1, sr, [], s.pwmPeriodUs, s.pulses, true, 0, 0, 0,
    s.startup.rings sweepRing⟩
  place := firstPlace

def pingPongStart (s : Boot) (sr cyccnt : UInt32) : Execution Microbench.Rig Microbench.Place where
  system := ⟨s.startup.kernel, fun _ => none⟩
  shared := ⟨(s.radarStart sr).shared, cyccnt⟩
  place := Microbench.firstPlace

end

theorem uart_enabled {m : Drivers.Registers} (met : BitFields.Met Drivers.uartInit m) :
    m .usart2Cr1 &&& Uart.cr1Ue ≠ 0 := by
  intro zero
  have same : m .usart2Cr1 &&& (BitFields.net Drivers.uartInit .usart2Cr1).mask =
    (BitFields.net Drivers.uartInit .usart2Cr1).value := met .usart2Cr1
  have none : (BitFields.net Drivers.uartInit .usart2Cr1).value &&& Uart.cr1Ue = 0 := by
    rw [← same, UInt32.and_assoc, UInt32.and_comm (BitFields.Setting.mask _), ← UInt32.and_assoc, zero,
      UInt32.zero_and]
  exact absurd none (by decide)

section
variable {w : World} {image : Image} {s t : Boot} {l : List (Entry × Nat)}

theorem radar_met (m : Drivers.Registers) :
    BitFields.Met Drivers.uartInit (Drivers.setUp [.uart, .servo, .ultrasonic] m) := by
  have fit : ∀ x ∈ ([.uart, .servo, .ultrasonic] : List Drivers.Setup), x.spares ∧
      ∀ y ∈ ([.uart, .servo, .ultrasonic] : List Drivers.Setup), x.Matches y := by
    decide
  have agree : ∀ x ∈ ([.uart, .servo, .ultrasonic] : List Drivers.Setup),
      ∀ y ∈ ([.uart, .servo, .ultrasonic] : List Drivers.Setup),
      BitFields.Agree x.writes y.writes := by
    intro x first y second
    exact Drivers.Setup.agree (fit x first).1 (fit y second).1 ((fit x first).2 y second)
  exact BitFields.met_of_mem agree (i := .uart) (by simp)

/-- What `main` leaves. -/
structure Booted (s : Boot) (l : List (Entry × Nat)) (cyccnt : Nat → UInt32) (t : Boot) : Prop where
  sent : t.sent = ((bootTranscript cyccnt s.reads).map UInt8.toUInt32).reverse
  registers : t.registers = Drivers.setUp [.uart, .servo, .ultrasonic] s.registers
  servo : t.pwmPeriodUs = servoPeriodUs ∧ t.pulses = [servoCentre]
  ring : t.startup.rings sweepRing = sweepQueue
  uartLock : t.startup.kernel.mutexes uartLock = ⟨0, none⟩
  echoReady : t.startup.kernel.semaphores echoReady = ⟨0, 1⟩
  queue : FreshQueue sweepQueue t.startup.kernel
  sems : t.startup.kernel.semaphores Microbench.pingSem = ⟨0, 1⟩ ∧
    t.startup.kernel.semaphores Microbench.pongSem = ⟨0, 1⟩
  launched : Launched idleTask ⟨t.startup.kernel, fun _ => none⟩
  first : ∃ first x, System.Runs ⟨t.startup.kernel, fun _ => none⟩ first ∧ l[first.val]? = some x ∧
    ∀ (t : TaskId) (y : Entry × Nat), l[t.val]? = some y → y.2 ≤ x.2

/-- The kernel, the UART and the semaphores of the ping-pong are set up. -/
structure Awake (s t : Boot) : Prop where
  reached : t.startup.Reached
  empty : t.startup.kernel.taskCount = 0
  sems : t.startup.kernel.semaphores Microbench.pingSem = ⟨0, 1⟩ ∧
    t.startup.kernel.semaphores Microbench.pongSem = ⟨0, 1⟩
  rings : t.startup.rings = s.startup.rings
  registers : t.registers = BitFields.run Drivers.uartInit s.registers
  sent : t.sent = []
  pulses : t.pulses = []
  reads : t.reads = s.reads

/-- The drivers and the objects are set up as well, the self-test has passed, and these tasks have
been created. -/
structure Ready (s : Boot) (l : List (Entry × Nat)) (t : Boot) : Prop where
  built : t.Assembled l
  own : ∀ o ∈ (t.startup.rings benchRing).objects, o.Local
  apart : (t.startup.rings benchRing).emptySlots ≠ (t.startup.rings benchRing).filledSlots
  registers : t.registers = Drivers.setUp [.uart, .servo, .ultrasonic] s.registers
  sent : t.sent = ((text "--- SENTINEL RTOS BOOTING ---\r\n" ++ postTranscript).map
    UInt8.toUInt32).reverse
  servo : t.pwmPeriodUs = servoPeriodUs ∧ t.pulses = [servoCentre]
  reads : t.reads = s.reads

theorem PowerOn.awakes (power : s.PowerOn) : Ends microbenchInit (fun _ t => s.Awake t)
    { s with
      startup.kernel := s.startup.kernel.osKernelInit
      registers := BitFields.run Drivers.uartInit s.registers } := by
  have reached : Startup.Reached { s.startup with kernel := s.startup.kernel.osKernelInit } :=
    ⟨[], .start ⟨⟨_, power.blank, rfl⟩, power.fresh⟩, by simp⟩
  apply (microbenchInit_ends reached).mono
  rintro _ t ⟨now, rfl, reached, rings, empty, sems⟩
  exact ⟨reached, empty, sems, rings, rfl, power.sent, power.pulses, rfl⟩

theorem Awake.on (awake : s.Awake t) (transmits : ∀ sent, ∃ i, w.sr sent i &&& Uart.srTxe ≠ 0) :
    t.On w := by
  have met : BitFields.Met Drivers.uartInit t.registers := by
    rw [awake.registers]
    exact BitFields.met_run _ _
  exact ⟨uart_enabled met, transmits⟩

/-- From the self-test to the objects of the tasks. -/
theorem Awake.readies (awake : s.Awake t) (power : s.PowerOn) {u : Boot}
    (leads : t.Leads (text "--- SENTINEL RTOS BOOTING ---\r\n" ++ postTranscript) 0 u) :
    Ends initObjects (fun _ v => s.Ready [] v)
      { u with
        registers := BitFields.run Drivers.ultrasonicInit
          (BitFields.run Drivers.servoInit u.registers)
        pwmPeriodUs := servoPeriodUs
        pulses := servoCentre :: u.pulses } := by
  have spares := leads.spares
  have bench := power.locals benchRing (by simp)
  rw [← awake.rings] at bench
  obtain ⟨own, apart⟩ := leads.objects bench.1 bench.2
  have empty := spares.kernel.count.trans awake.empty
  have sems : u.startup.kernel.semaphores Microbench.pingSem = ⟨0, 1⟩ ∧
      u.startup.kernel.semaphores Microbench.pongSem = ⟨0, 1⟩ := by
    rw [spares.kernel.semaphores _ (by decide), spares.kernel.semaphores _ (by decide)]
    exact awake.sems
  have objects : (u.startup.rings sweepRing).objects = sweepQueue.objects := by
    rw [spares.ring, awake.rings]
    exact power.objects
  refine Ends.mono (initObjects_ends ?_ ?_ ?_ ?_) ?_
  · exact leads.reached
  · exact empty
  · exact objects
  · exact sems
  rintro _ v ⟨built, now, rfl, others⟩
  have ring : now.rings benchRing = u.startup.rings benchRing := others benchRing (by decide)
  rw [← ring] at own apart
  constructor
  case built => exact built
  case own => exact own
  case apart => exact apart
  case registers =>
    simp only [leads.registers, awake.registers, Drivers.setUp, List.flatMap_cons,
      List.flatMap_nil, List.append_nil, BitFields.run_append, Drivers.Setup.writes]
  case sent =>
    change u.sent = _
    rw [leads.sent, awake.sent, List.append_nil]
  case servo => exact ⟨rfl, congrArg (servoCentre :: ·) (leads.servo.2.trans awake.pulses)⟩
  case reads => exact leads.reads.trans awake.reads

/-- Creating a task changes the kernel only. -/
theorem Ready.created {k : Kernel} {l' : List (Entry × Nat)} (ready : s.Ready l t)
    (built : ({ t with startup.kernel := k } : Boot).Assembled l') :
    s.Ready l' { t with startup.kernel := k } :=
  ⟨built, ready.own, ready.apart, ready.registers, ready.sent, ready.servo, ready.reads⟩

/-- The benchmarks and the launch. -/
theorem Ready.boots (ready : s.Ready l t) (three : 2 < l.length) {buffer : Nat → UInt32}
    (transmits : ∀ sent, ∃ i, w.sr sent i &&& Uart.srTxe ≠ 0) :
    Ends (do microbenchRunAll w buffer; osKernelLaunch) (fun _ u => s.Booted l w.cyccnt u) t := by
  have met : BitFields.Met Drivers.uartInit t.registers := by
    rw [ready.registers]
    exact radar_met _
  have on : t.On w := ⟨uart_enabled met, transmits⟩
  apply Ends.bind
  apply microbenchRunAll_prints on (.start ready.built.reached) ready.own ready.apart
  intro v measured
  apply (ready.built.launches measured three).mono
  rintro _ u ⟨k, first, x, rfl, launched, runs, kept, here, greatest⟩
  obtain ⟨lock, echo, queue, sems⟩ := ready.built.objects kept
  constructor
  case sent =>
    change v.sent = _
    rw [measured.sent, ready.sent, ready.reads]
    simp [bootTranscript]
  case registers => exact measured.registers.trans ready.registers
  case servo =>
    exact ⟨measured.servo.1.trans ready.servo.1, measured.servo.2.trans ready.servo.2⟩
  case ring => exact measured.spares.ring.trans ready.built.ring
  case uartLock => exact lock
  case echoReady => exact echo
  case queue => exact queue
  case sems => exact sems
  case launched => exact launched
  case first => exact ⟨first, x, runs, here, greatest⟩

theorem main_ends (power : s.PowerOn) (transmits : ∀ sent, ∃ i, w.sr sent i &&& Uart.srTxe ≠ 0)
    (placed : image.Placed) : Ends (main w image) (fun _ t => s.Booted image.tasks w.cyccnt t) s := by
  unfold main
  apply Ends.bind
  apply Ends.update
  apply Ends.bind
  apply Ends.update
  apply Ends.bind
  apply power.awakes.mono
  intro _ s₁ awake
  have on := awake.on transmits
  have post := power.locals postRing (by simp)
  rw [← awake.rings] at post
  -- the banner and the self-test
  apply Ends.bind
  apply (Leads.start awake.reached).print on
  intro s₂ leads _
  apply Ends.bind
  apply osRunPost_passes on leads post.1 post.2
  intro s₃ leads
  -- the drivers and the objects
  apply Ends.bind
  apply Ends.update
  apply Ends.bind
  apply Ends.update
  apply Ends.bind
  apply (awake.readies power leads).mono
  intro _ s₄ ready
  -- the tasks
  apply Ends.bind
  apply (createTasks_ends placed ready.built).mono
  rintro _ s₅ ⟨built, k, rfl⟩
  have ready := ready.created built
  apply Ends.bind
  apply built.create (by simp [maxTasks]) (placed.each (image.idle, 0) (by simp [Image.tasks]))
  · intro x there
    exact ⟨placed.each x (by simp [Image.tasks, there]),
      (List.pairwise_append.mp placed.apart).2.2 x there (image.idle, 0) (by simp)⟩
  intro k built
  apply (ready.created built).boots _ transmits
  simp

end

section
variable {s t : Boot} {l : List (Entry × Nat)} {cyccnt : Nat → UInt32}

/-- The radar starts as its runs do. -/
theorem Booted.wired (booted : s.Booted l cyccnt t) (sr : UInt32) : Wired (t.radarStart sr) := by
  have enabled : t.registers .usart2Cr1 &&& Uart.cr1Ue ≠ 0 :=
    uart_enabled (booted.registers ▸ radar_met _)
  exact ⟨booted.launched, booted.uartLock, booted.echoReady, booted.queue, booted.ring, enabled,
    rfl, booted.servo.1, booted.servo.2, rfl⟩

end
end Boot

/-- **`main` reaches the tasks.** From zeroed memory, with stacks that are apart, however slow the
transmitter is and whatever the cycle counter shows. The transcript is complete, the drivers are
set up, a task of the greatest priority runs, and what is proved of every run of the tasks begins
here. -/
theorem main_boots {w : World} {image : Image} {s : Boot} (power : s.PowerOn)
    (transmits : ∀ sent, ∃ i, w.sr sent i &&& Uart.srTxe ≠ 0) (placed : image.Placed) :
    Ends (Boot.main w image) (fun _ t =>
      t.sent = ((Boot.bootTranscript w.cyccnt s.reads).map UInt8.toUInt32).reverse ∧
      t.registers = Drivers.setUp [.uart, .servo, .ultrasonic] s.registers ∧
      (image.sentinelBench = false → ∀ sr,
        Wired (t.radarStart sr) ∧ (t.radarStart sr).system.Runs radarTask) ∧
      (image.sentinelBench = true → ∀ sr cyccnt,
        Microbench.Wired (t.pingPongStart sr cyccnt) ∧
        ∃ first ∈ [Microbench.pingTask, Microbench.pongTask],
          (t.pingPongStart sr cyccnt).system.Runs first)) s := by
  apply (Boot.main_ends power transmits placed).mono
  intro _ t booted
  obtain ⟨first, x, runs, here, greatest⟩ := booted.first
  have inside : first.val < 3 := by
    have within := (List.getElem?_eq_some_iff.mp here).1
    rwa [Image.tasks_length] at within
  refine ⟨booted.sent, booted.registers, ?_, ?_⟩
  · intro radar sr
    have tasks : image.tasks = [(image.radar, 2), (image.sweep, 1), (image.idle, 0)] := by
      simp [Image.tasks, Image.chosen, radar]
    rw [tasks] at here greatest
    have top := greatest radarTask (image.radar, 2) rfl
    have same : first = radarTask := by
      obtain zero | one | two : first.val = 0 ∨ first.val = 1 ∨ first.val = 2 := by omega
      · exact Fin.ext zero
      · rw [one] at here
        cases here
        exact absurd top (by simp)
      · rw [two] at here
        cases here
        exact absurd top (by simp)
    exact ⟨booted.wired sr, same ▸ runs⟩
  · intro bench sr cyccnt
    have tasks : image.tasks = [(image.ping, 2), (image.pong, 2), (image.idle, 0)] := by
      simp [Image.tasks, Image.chosen, bench]
    rw [tasks] at here greatest
    have top := greatest Microbench.pingTask (image.ping, 2) rfl
    have one : first.val ≠ 2 := by
      intro two
      rw [two] at here
      cases here
      exact absurd top (by simp)
    refine ⟨⟨booted.launched, booted.sems.1, booted.sems.2, rfl⟩, first, ?_, runs⟩
    obtain zero | one : first.val = 0 ∨ first.val = 1 := by omega
    · exact List.mem_cons.mpr (.inl (Fin.ext zero))
    · exact List.mem_cons.mpr (.inr (List.mem_singleton.mpr (Fin.ext one)))

theorem powered_on : powered.PowerOn where
  blank := ⟨fun _ => rfl, fun _ => rfl⟩
  fresh _ := rfl
  objects := rfl
  locals := by decide
  sent := rfl
  pulses := rfl

/-- The radar, with its stacks one behind the other. -/
def radarImage : Image :=
  let e : UInt32 → Entry := fun i => ⟨i, 0x20000000 + 1024 * i⟩
  ⟨false, e 1, e 2, e 4, e 5, e 3, fun _ => 0, fun _ => 0⟩

instance (e : Entry) : Decidable e.Placed :=
  decidable_of_iff (e.taskptr ≠ 0 ∧ e.stack.toNat % 4 = 0 ∧
      e.stack.toNat + 4 * stackSize.toNat ≤ 2 ^ 32)
    ⟨fun h => ⟨h.1, h.2.1, h.2.2⟩, fun h => ⟨h.taskptr, h.aligned, h.fits⟩⟩

instance (e f : Entry) : Decidable (e.Apart f) := inferInstanceAs (Decidable (_ ∨ _))

theorem radarImage_placed : radarImage.Placed := ⟨by decide, by decide⟩

/-- The radar starts while the transmitter is slow. -/
theorem main_boots_radar :
    Ends (Boot.main slow radarImage) (fun _ t =>
      t.sent = ((Boot.bootTranscript slow.cyccnt 0).map UInt8.toUInt32).reverse ∧
      Wired (t.radarStart 0) ∧ (t.radarStart 0).system.Runs radarTask) powered := by
  apply (main_boots powered_on slow_transmits radarImage_placed).mono
  rintro _ t ⟨sent, _, radar, _⟩
  exact ⟨sent, radar rfl 0⟩

end Sentinel
