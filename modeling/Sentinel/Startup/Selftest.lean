import Sentinel.Startup.Boot

/-! The self-test passes. Its queue test is settled by what the queue is for. -/

namespace Sentinel

open Runs (Transition Run)
open Polling (Poll Ends)

/-- An object of a test or a benchmark. -/
def Waitable.Local : Waitable → Prop
  | .mutex m => 2 ≤ m
  | .semaphore x => 5 ≤ x

instance (o : Waitable) : Decidable o.Local :=
  match o with
  | .mutex m => inferInstanceAs (Decidable (2 ≤ m))
  | .semaphore x => inferInstanceAs (Decidable (5 ≤ x))

namespace Kernel

/-- The objects of the tasks, and their number and priorities, are as they were. -/
structure Spares (k k' : Kernel) : Prop where
  mutexes : ∀ m < 2, k'.mutexes m = k.mutexes m
  semaphores : ∀ x < 5, k'.semaphores x = k.semaphores x
  count : k'.taskCount = k.taskCount
  priority : ∀ t, (k'.osTasks t).basePriority = (k.osTasks t).basePriority

section
variable {k k' k'' : Kernel} {m x : Nat} {c : Call} {out : Outcome}

theorem Spares.refl (k : Kernel) : k.Spares k := ⟨fun _ _ => rfl, fun _ _ => rfl, rfl, fun _ => rfl⟩

theorem Spares.trans (first : k.Spares k') (second : k'.Spares k'') : k.Spares k'' where
  mutexes m own := (second.mutexes m own).trans (first.mutexes m own)
  semaphores x own := (second.semaphores x own).trans (first.semaphores x own)
  count := second.count.trans first.count
  priority t := (second.priority t).trans (first.priority t)

theorem Spares.setMutex (other : 2 ≤ m) (v : OsMutex) : k.Spares (k.setMutex m v) := by
  refine ⟨?_, fun _ _ => rfl, rfl, fun _ => rfl⟩
  intro n own
  have apart : n ≠ m := by omega
  simp [apart]

theorem Spares.setSemaphore (other : 5 ≤ x) (v : OsSemaphore) : k.Spares (k.setSemaphore x v) := by
  refine ⟨fun _ _ => rfl, ?_, rfl, fun _ => rfl⟩
  intro n own
  have apart : n ≠ x := by omega
  simp [apart]

theorem Spares.setQueue (o : Waitable) (q : WaitQueue) : k.Spares (k.setQueue o q) :=
  ⟨fun _ _ => rfl, fun _ _ => rfl, rfl, fun _ => rfl⟩

theorem Spares.initMutex (other : 2 ≤ m) : k.Spares (k.osMutexInit m) :=
  (Spares.setMutex other _).trans (.setQueue _ _)

theorem Spares.initSemaphore (other : 5 ≤ x) (initial maxCount : Nat) :
    k.Spares (k.osSemaphoreInit x initial maxCount) :=
  (Spares.setSemaphore other _).trans (.setQueue _ _)

theorem Spares.dropDonation : k.Spares (k.dropDonation m) := by
  unfold Kernel.dropDonation
  split
  · refine ⟨fun _ _ => rfl, fun _ _ => rfl, rfl, ?_⟩
    rename_i owner _
    intro t
    by_cases self : t = owner
    · subst self
      simp
    · simp [self]
  · exact .refl k

/-- A call on a local object. -/
theorem Prepared.spares (prepared : k.Prepared) (own : ∀ o, c.waitable = some o → o.Local)
    (done : c.exec k = some (out, k')) : k.Spares k' := by
  rcases prepared.exec_cases done with rfl | ⟨m, names, rfl⟩ | ⟨m, names, rfl⟩ | ⟨x, v, names, rfl⟩
  · exact .refl _
  · exact .setMutex (own _ names) _
  · exact Spares.dropDonation.trans (.setMutex (own _ names) _)
  · exact .setSemaphore (own _ names) v

theorem Spares.schedule (done : k.osScheduler = some k') : k.Spares k' := by
  obtain ⟨tasks, current, frame⟩ := osScheduler_frame done
  rcases osScheduler_cases done with ⟨best, decides⟩ | ⟨rfl, _⟩
  · refine ⟨fun _ _ => by rw [frame], fun _ _ => by rw [frame], decides.count, ?_⟩
    intro t
    rw [decides.tasks]
  · exact .refl _

end
end Kernel

/-! ### One call after the other -/

/-- The calls so far are those of a start, every task with a stack of its own. -/
def Startup.Reached (s : Startup) : Prop :=
  ∃ past, Run Zeroed StartupStep past s ∧ ∀ x ∈ past, x.pre.KeepsApart x.event.1

section
variable {s t : Startup} {a : Action} {answer : Answer}

theorem Startup.Reached.prepared (reached : s.Reached) : s.kernel.Prepared := by
  obtain ⟨past, run, _⟩ := reached
  exact prepared_of_run run

theorem Startup.Reached.intact (reached : s.Reached) : s.kernel.CanaryIntact := by
  have prepared := reached.prepared
  obtain ⟨past, run, apart⟩ := reached
  have bringup : Bringup past s := run.weaken (fun _ => Zeroed.initial) fun _ _ _ => id
  intro c here
  exact (Bringup.tripwires bringup apart c (prepared.current c here)).2

theorem Startup.Reached.next (reached : s.Reached) (allowed : s.allows a)
    (apart : s.KeepsApart a) (done : s.perform a = some (answer, t)) : t.Reached := by
  obtain ⟨past, run, before⟩ := reached
  have step : StartupStep s (a, answer) t := ⟨allowed, done⟩
  refine ⟨_, .next run step, ?_⟩
  intro x there
  rcases List.mem_cons.mp there with rfl | there
  · exact apart
  · exact before x there

/-- What the tests and the benchmarks call, on objects of their own. -/
def Startup.mine (s : Startup) : Action → Prop
  | .create _ _ _ _ => False
  | .initMutex m => Waitable.Local (.mutex m)
  | .initSemaphore x _ _ => Waitable.Local (.semaphore x)
  | .initQueue i _ _ | .queue i _ => i ≠ sweepRing ∧ ∀ o ∈ (s.rings i).objects, o.Local
  | .kernel c => ∀ o, c.waitable = some o → o.Local
  | .schedule => True

/-- Nothing of what the tasks use is changed. -/
structure Startup.Spares (s t : Startup) : Prop where
  kernel : s.kernel.Spares t.kernel
  ring : t.rings sweepRing = s.rings sweepRing
  objects : ∀ i, (t.rings i).objects = (s.rings i).objects
  fresh : ∀ o, s.fresh o → t.fresh o

theorem Startup.Spares.refl (s : Startup) : s.Spares s :=
  ⟨.refl _, rfl, fun _ => rfl, fun _ => id⟩

theorem Startup.Spares.trans {u : Startup} (first : s.Spares t) (second : t.Spares u) :
    s.Spares u :=
  ⟨first.kernel.trans second.kernel, second.ring.trans first.ring,
    fun i => (second.objects i).trans (first.objects i),
    fun o there => second.fresh o (first.fresh o there)⟩

theorem Startup.perform_spares (prepared : s.kernel.Prepared) (mine : s.mine a)
    (done : s.perform a = some (answer, t)) : s.Spares t := by
  have replaced : ∀ {i : Nat} {q : OsMessageQueue}, q.objects = (s.rings i).objects →
      ∀ j, (Function.update s.rings i q j).objects = (s.rings j).objects := by
    intro i q same j
    by_cases self : j = i
    · subst self
      rw [Function.update_self, same]
    · rw [Function.update_of_ne self]
  cases a with
  | create => cases mine
  | initMutex m =>
    obtain ⟨_, rfl⟩ := Prod.mk.inj (Option.some.inj done)
    refine ⟨.initMutex mine, rfl, fun _ => rfl, fun o there => ?_⟩
    by_cases self : o = .mutex m <;> simp [self, there]
  | initSemaphore x initial maxCount =>
    obtain ⟨_, rfl⟩ := Prod.mk.inj (Option.some.inj done)
    refine ⟨.initSemaphore mine _ _, rfl, fun _ => rfl, fun o there => ?_⟩
    by_cases self : o = .semaphore x <;> simp [self, there]
  | initQueue i buffer capacity =>
    obtain ⟨other, own⟩ := mine
    obtain ⟨_, rfl⟩ := Prod.mk.inj (Option.some.inj done)
    have lock : 2 ≤ (s.rings i).lock := own (.mutex _) (by simp [OsMessageQueue.objects])
    have empty : 5 ≤ (s.rings i).emptySlots :=
      own (.semaphore _) (by simp [OsMessageQueue.objects])
    have filled : 5 ≤ (s.rings i).filledSlots :=
      own (.semaphore _) (by simp [OsMessageQueue.objects])
    refine ⟨?_, Function.update_of_ne (Ne.symm other) _ _, replaced rfl, ?_⟩
    · exact ((Kernel.Spares.initMutex lock).trans (.initSemaphore empty _ _)).trans
        (.initSemaphore filled _ _)
    · intro o there
      simp [there]
  | kernel c =>
    obtain ⟨out, exec, same⟩ := Option.map_eq_some_iff.mp done
    obtain ⟨_, rfl⟩ := Prod.mk.inj same
    exact ⟨prepared.spares mine exec, rfl, fun _ => rfl, fun _ => id⟩
  | queue i op =>
    obtain ⟨other, own⟩ := mine
    obtain ⟨out, called, same⟩ := Option.map_eq_some_iff.mp done
    obtain ⟨_, rfl⟩ := Prod.mk.inj same
    obtain ⟨⟨_, kept⟩, objects⟩ := Frame.finish_keeps
      (P := fun k => k.Prepared ∧ s.kernel.Spares k)
      (fun holds names exec => ⟨holds.1.exec exec,
        holds.2.trans (holds.1.spares (fun o looks => own o (names o looks)) exec)⟩)
      called ⟨prepared, .refl _⟩
    exact ⟨kept, Function.update_of_ne (Ne.symm other) _ _, replaced objects, fun _ => id⟩
  | schedule =>
    obtain ⟨k, picks, same⟩ := Option.map_eq_some_iff.mp done
    obtain ⟨_, rfl⟩ := Prod.mk.inj same
    exact ⟨.schedule picks, rfl, fun _ => rfl, fun _ => id⟩

end

/-- A local mutex, initialised. -/
structure Startup.Guard (s : Startup) (m : Nat) (v : OsMutex) : Prop where
  own : Waitable.Local (.mutex m)
  fresh : s.fresh (.mutex m)
  is : s.kernel.mutexes m = v

/-- A local semaphore, initialised. -/
structure Startup.Stock (s : Startup) (x : Nat) (v : OsSemaphore) : Prop where
  own : Waitable.Local (.semaphore x)
  fresh : s.fresh (.semaphore x)
  is : s.kernel.semaphores x = v

/-- A local queue, initialised, and the list it shows. -/
structure Startup.Channel (s : Startup) (i capacity : Nat) (l : List UInt32) : Prop where
  own : i ≠ sweepRing ∧ ∀ o ∈ (s.rings i).objects, o.Local
  fresh : ∀ o ∈ (s.rings i).objects, s.fresh o
  capacity : (s.rings i).capacity = capacity
  shows : Bench.Shows ⟨s.rings i, s.kernel⟩ l

/-! ### The transcript -/

/-- `USART2` is enabled, and its data register becomes empty sooner or later. -/
def Boot.On (w : World) (s : Boot) : Prop := (s.usart w).Enabled ∧ (s.usart w).Transmits

/-- Between the two moments this has been printed and the cycle counter read `n` times, and what
the tasks use is as it was. -/
structure Boot.Leads (s : Boot) (str : List UInt8) (n : Nat) (t : Boot) : Prop where
  reached : t.startup.Reached
  spares : s.startup.Spares t.startup
  registers : t.registers = s.registers
  sent : t.sent = (str.map UInt8.toUInt32).reverse ++ s.sent
  servo : t.pwmPeriodUs = s.pwmPeriodUs ∧ t.pulses = s.pulses
  reads : t.reads = s.reads + n

namespace Boot

section
variable {w : World} {s₀ s : Boot} {str : List UInt8} {n : Nat}

theorem Leads.start (reached : s.startup.Reached) : s.Leads [] 0 s :=
  ⟨reached, .refl _, rfl, rfl, ⟨rfl, rfl⟩, rfl⟩

theorem Leads.on (leads : s₀.Leads str n s) (on : s₀.On w) : s.On w := by
  have same : s.usart w = s₀.usart w := by rw [usart, leads.registers, usart]
  rw [On, same]
  exact on

/-- The objects of a queue stay the same. -/
theorem Leads.objects {i : Nat} (leads : s₀.Leads str n s)
    (own : ∀ o ∈ (s₀.startup.rings i).objects, o.Local)
    (apart : (s₀.startup.rings i).emptySlots ≠ (s₀.startup.rings i).filledSlots) :
    (∀ o ∈ (s.startup.rings i).objects, o.Local) ∧
      (s.startup.rings i).emptySlots ≠ (s.startup.rings i).filledSlots := by
  have same := leads.spares.objects i
  constructor
  · rw [same]
    exact own
  · simp only [OsMessageQueue.objects, List.cons.injEq, Waitable.semaphore.injEq] at same
    rw [same.2.1, same.2.2.1]
    exact apart

/-- What is sent is put behind what has been. -/
theorem Leads.sends {p : Poll Boot Unit} {more : List UInt8} {Q : Unit → Boot → Prop}
    (leads : s₀.Leads str n s)
    (sends : ∃ enough, ∀ rounds, enough ≤ rounds →
      p rounds s = some ((), { s with sent := (more.map UInt8.toUInt32).reverse ++ s.sent }))
    (rest : ∀ t, s₀.Leads (str ++ more) n t → t.startup = s.startup → Q () t) : Ends p Q s := by
  apply Ends.wait sends
  apply rest
  · exact ⟨leads.reached, leads.spares, leads.registers, by simp [leads.sent], leads.servo,
      leads.reads⟩
  · rfl

theorem Leads.print {more : String} {Q : Unit → Boot → Prop} (leads : s₀.Leads str n s)
    (on : s₀.On w)
    (rest : ∀ t, s₀.Leads (str ++ text more) n t → t.startup = s.startup → Q () t) :
    Ends (print w more) Q s := by
  obtain ⟨enabled, transmits⟩ := leads.on on
  obtain ⟨enough, sends⟩ := Uart.Usart.uartPrint_sends enabled transmits (text more) s.sent
  refine leads.sends ⟨enough, ?_⟩ rest
  intro rounds long
  rw [Boot.print, sends rounds long, Option.map_some]

theorem Leads.perform (leads : s₀.Leads str n s) (a : Action) {answer : Answer} {t : Startup}
    {Q : Answer → Boot → Prop} (allowed : s.startup.allows a) (mine : s.startup.mine a)
    (done : s.startup.perform a = some (answer, t))
    (rest : ∀ s', s₀.Leads str n s' → s'.startup = t → Q answer s') : Ends (perform a) Q s := by
  have apart : s.startup.KeepsApart a := by
    cases a with
    | create => cases mine
    | _ => trivial
  apply Ends.attempt (by rw [done, Option.map_some])
  apply rest
  · exact ⟨leads.reached.next allowed apart done,
      leads.spares.trans (Startup.perform_spares leads.reached.prepared mine done),
      leads.registers, leads.sent, leads.servo, leads.reads⟩
  · rfl

/-- A kernel call on a local object that has been initialised. -/
theorem Leads.call (leads : s₀.Leads str n s) {c : Call} {o : Waitable} {out : Outcome} {k : Kernel}
    {Q : Answer → Boot → Prop} (names : c.waitable = some o) (fresh : s.startup.fresh o)
    (own : o.Local) (exec : c.exec s.startup.kernel = some (out, k))
    (rest : ∀ s', s₀.Leads str n s' → s'.startup.fresh o → s'.startup.kernel = k →
      Q (.kernel out) s') : Ends (call c) Q s := by
  apply leads.perform (.kernel c)
  · intro o' looks
    obtain rfl := Option.some.inj (names.symm.trans looks)
    exact fresh
  · intro o' looks
    obtain rfl := Option.some.inj (names.symm.trans looks)
    exact own
  · rw [Startup.perform, exec, Option.map_some]
  · intro s' leads same
    apply rest s' leads
    · rw [same]
      exact fresh
    · rw [same]

theorem Leads.lock (leads : s₀.Leads str n s) {m : Nat} {Q : Answer → Boot → Prop}
    (guard : s.startup.Guard m ⟨0, none⟩)
    (rest : ∀ s' owner, s₀.Leads str n s' → s'.startup.Guard m ⟨1, owner⟩ →
      s'.startup.kernel.currentTcb = owner → Q (.kernel (.returned .success)) s') :
    Ends (Boot.call (.mutexAcquire m 0)) Q s := by
  apply leads.call rfl guard.fresh guard.own (Kernel.exec_lock (by rw [guard.is]))
  intro s' leads fresh same
  apply rest s' s.startup.kernel.currentTcb leads
  · exact ⟨guard.own, fresh, by simp [same]⟩
  · rw [same]
    rfl

theorem Leads.relock (leads : s₀.Leads str n s) {m : Nat} {owner : Option TaskId}
    {Q : Answer → Boot → Prop} (guard : s.startup.Guard m ⟨1, owner⟩)
    (own : s.startup.kernel.currentTcb = owner)
    (rest : ∀ s', s₀.Leads str n s' → s'.startup.Guard m ⟨1, owner⟩ →
      Q (.kernel (.returned .fail)) s') : Ends (Boot.call (.mutexAcquire m 0)) Q s := by
  apply leads.call rfl guard.fresh guard.own
    (Kernel.exec_reacquire (by simp [guard.is]) (by rw [guard.is, own]))
  intro s' leads fresh same
  exact rest s' leads ⟨guard.own, fresh, by rw [same, guard.is]⟩

theorem Leads.unlock (leads : s₀.Leads str n s) {m : Nat} {v : OsMutex} {Q : Answer → Boot → Prop}
    (guard : s.startup.Guard m v)
    (rest : ∀ s' out, s₀.Leads str n s' → s'.startup.Guard m ⟨0, none⟩ → Q out s') :
    Ends (Boot.call (.mutexRelease m)) Q s := by
  apply leads.call rfl guard.fresh guard.own (Kernel.exec_unlock (leads.reached.prepared.nobody _))
  intro s' leads fresh same
  exact rest s' _ leads ⟨guard.own, fresh, by simp [same]⟩

theorem Leads.take (leads : s₀.Leads str n s) {x c limit : Nat} {Q : Answer → Boot → Prop}
    (stock : s.startup.Stock x ⟨c + 1, limit⟩)
    (rest : ∀ s', s₀.Leads str n s' → s'.startup.Stock x ⟨c, limit⟩ →
      Q (.kernel (.returned .success)) s') : Ends (Boot.call (.semaphoreAcquire x 0)) Q s := by
  apply leads.call rfl stock.fresh stock.own (Kernel.exec_take stock.is)
  intro s' leads fresh same
  exact rest s' leads ⟨stock.own, fresh, by simp [same]⟩

theorem Leads.poll (leads : s₀.Leads str n s) {x limit : Nat} {Q : Answer → Boot → Prop}
    (stock : s.startup.Stock x ⟨0, limit⟩)
    (rest : ∀ s', s₀.Leads str n s' → s'.startup.Stock x ⟨0, limit⟩ →
      Q (.kernel (.returned .timeout)) s') : Ends (Boot.call (.semaphoreAcquire x 0)) Q s := by
  apply leads.call rfl stock.fresh stock.own (Kernel.exec_poll stock.is)
  intro s' leads fresh same
  exact rest s' leads ⟨stock.own, fresh, by rw [same, stock.is]⟩

/-- A token more, up to the limit. -/
theorem Leads.give (leads : s₀.Leads str n s) {x c limit : Nat} {Q : Answer → Boot → Prop}
    (stock : s.startup.Stock x ⟨c, limit⟩) (within : c ≤ limit)
    (rest : ∀ s' out, s₀.Leads str n s' → s'.startup.Stock x ⟨min (c + 1) limit, limit⟩ → Q out s') :
    Ends (Boot.call (.semaphoreRelease x)) Q s := by
  have nobody := leads.reached.prepared.nobody (.semaphore x)
  by_cases room : c < limit
  · apply leads.call rfl stock.fresh stock.own (Kernel.exec_post nobody stock.is room)
    intro s' leads fresh same
    exact rest s' _ leads ⟨stock.own, fresh, by simp [same, Nat.min_eq_left room]⟩
  · obtain rfl : c = limit := by omega
    apply leads.call rfl stock.fresh stock.own (Kernel.exec_spill nobody (by rw [stock.is]))
    intro s' leads fresh same
    exact rest s' _ leads ⟨stock.own, fresh, by simp [same, stock.is]⟩

theorem Leads.initQueue (leads : s₀.Leads str n s) {i capacity : Nat} {buffer : Nat → UInt32}
    {Q : Answer → Boot → Prop} (own : i ≠ sweepRing ∧ ∀ o ∈ (s.startup.rings i).objects, o.Local)
    (apart : (s.startup.rings i).emptySlots ≠ (s.startup.rings i).filledSlots)
    (room : 0 < capacity)
    (rest : ∀ s', s₀.Leads str n s' → s'.startup.Channel i capacity [] → Q .done s') :
    Ends (Boot.perform (.initQueue i buffer capacity)) Q s := by
  apply leads.perform (.initQueue i buffer capacity) trivial own rfl
  intro s' leads same
  have ring : s'.startup.rings i =
      (osQueueInit (s.startup.rings i) buffer capacity s.startup.kernel).1 := by
    rw [same]
    exact Function.update_self _ _ _
  have objects : (s'.startup.rings i).objects = (s.startup.rings i).objects := by
    rw [ring]
    rfl
  have init : Initialised capacity ⟨s'.startup.rings i, s'.startup.kernel⟩ := by
    rw [ring, same]
    exact ⟨s.startup.rings i, buffer, s.startup.kernel, apart, rfl⟩
  obtain ⟨has, shows⟩ := init.shows room
  apply rest s' leads
  refine ⟨objects ▸ own, ?_, has, shows⟩
  intro o there
  rw [ring] at there
  simp [same, there]

/-- A queue call that polls does what it does to the list. -/
theorem Leads.queue (leads : s₀.Leads str n s) {i capacity : Nat} {l : List UInt32} {op : Operation}
    {Q : Answer → Boot → Prop} (channel : s.startup.Channel i capacity l) (polls : op.timeout = 0)
    (rest : ∀ s', s₀.Leads str n s' → s'.startup.Channel i capacity (Fifo.perform capacity op l).2 →
      Q (.queue (Fifo.perform capacity op l).1) s') : Ends (Boot.perform (.queue i op)) Q s := by
  obtain ⟨own, fresh, rfl, shows⟩ := channel
  obtain ⟨q, k, does, same, after⟩ := shows.call polls
  have objects : q.objects = (s.startup.rings i).objects :=
    (Frame.finish_keeps (P := fun _ => True) (fun _ _ _ => trivial) does trivial).2
  apply leads.perform (.queue i op) fresh own
  · rw [Startup.perform, does, Option.map_some]
  · intro s' leads now
    apply rest s' leads
    constructor <;> rw [now] <;> simp only [Function.update_self, objects]
    · exact own
    · exact fresh
    · exact same
    · exact after

theorem failIf_passes {c : Prop} [Decidable c] {why : String} {Q : Unit → Boot → Prop}
    (passes : ¬ c) (post : Q () s) : Ends (failIf w c why) Q s := Ends.no passes (.pure post)

theorem testMutexBasic_passes {Q : Unit → Boot → Prop} (on : s₀.On w) (leads : s₀.Leads str n s)
    (rest : ∀ t, s₀.Leads (str ++ text "[POST] Mutex... " ++ text "PASS\r\n") n t → Q () t) :
    Ends (testMutexBasic w) Q s := by
  unfold testMutexBasic
  apply Ends.bind
  apply leads.perform (.initMutex postMutex) trivial (Nat.le_refl 2) rfl
  intro s₁ leads same₁
  apply Ends.bind
  apply leads.print on
  intro s₂ leads same₂
  have free : s₂.startup.Guard postMutex ⟨0, none⟩ := by
    refine ⟨Nat.le_refl 2, ?_, ?_⟩ <;> simp [same₂, same₁, Kernel.osMutexInit]
  apply Ends.bind
  apply leads.lock free
  intro s₃ owner leads held self
  apply Ends.bind
  apply failIf_passes (by simp)
  apply Ends.bind
  apply Ends.look
  apply Ends.bind
  apply failIf_passes (by simp [held.is])
  apply Ends.bind
  apply leads.relock held self
  intro s₄ leads held
  apply Ends.bind
  apply failIf_passes (by simp)
  apply Ends.bind
  apply leads.unlock held
  intro s₅ _ leads free
  apply Ends.bind
  apply Ends.look
  apply Ends.bind
  apply failIf_passes (by simp [free.is])
  apply leads.print on
  intro t leads _
  exact rest t leads

theorem testSemaphoreBasic_passes {Q : Unit → Boot → Prop} (on : s₀.On w)
    (leads : s₀.Leads str n s)
    (rest : ∀ t, s₀.Leads (str ++ text "[POST] Semaphore... " ++ text "PASS\r\n") n t → Q () t) :
    Ends (testSemaphoreBasic w) Q s := by
  unfold testSemaphoreBasic
  apply Ends.bind
  apply leads.perform (.initSemaphore postSemaphore 2 2) trivial (Nat.le_refl 5) rfl
  intro s₁ leads same₁
  apply Ends.bind
  apply leads.print on
  intro s₂ leads same₂
  have stock : s₂.startup.Stock postSemaphore ⟨2, 2⟩ := by
    refine ⟨Nat.le_refl 5, ?_, ?_⟩ <;> simp [same₂, same₁, Kernel.osSemaphoreInit]
  -- two tokens are taken, and there is no third
  apply Ends.bind
  apply leads.take stock
  intro s₃ leads stock
  apply Ends.bind
  apply Ends.look
  apply Ends.bind
  apply failIf_passes (by simp [stock.is])
  apply Ends.bind
  apply leads.take stock
  intro s₄ leads stock
  apply Ends.bind
  apply Ends.look
  apply Ends.bind
  apply failIf_passes (by simp [stock.is])
  apply Ends.bind
  apply leads.poll stock
  intro s₅ leads stock
  apply Ends.bind
  apply failIf_passes (by simp)
  -- three are given, and the third is lost
  apply Ends.bind
  apply leads.give stock (by decide)
  intro s₆ _ leads stock
  apply Ends.bind
  apply Ends.look
  apply Ends.bind
  apply failIf_passes (by simp [stock.is])
  apply Ends.bind
  apply leads.give stock (by decide)
  intro s₇ _ leads stock
  apply Ends.bind
  apply leads.give stock (by decide)
  intro s₈ _ leads stock
  apply Ends.bind
  apply Ends.look
  apply Ends.bind
  apply failIf_passes (by simp [stock.is])
  apply leads.print on
  intro t leads _
  exact rest t leads

/-- What the list is after `1, 2, …` have been sent to an empty one. -/
def counted (capacity n : Nat) : List UInt32 :=
  (Fifo.replies capacity ((List.range n).map fun i => .send (UInt32.ofNat (i + 1)) 0) []).2

theorem counted_succ (capacity n : Nat) : counted capacity (n + 1) =
    (Fifo.perform capacity (.send (UInt32.ofNat (n + 1)) 0) (counted capacity n)).2 := by
  rw [counted, List.range_succ, List.map_append, List.map_singleton, Fifo.replies_append, counted]

/-- The loops of the queue test that send. -/
theorem Leads.count (leads : s₀.Leads str n s) {i capacity : Nat}
    (channel : s.startup.Channel i capacity []) (times : Nat) :
    Ends (Poll.repeatFor times fun j => do let _ ← send i (UInt32.ofNat (j + 1)))
      (fun _ t => s₀.Leads str n t ∧ t.startup.Channel i capacity (counted capacity times)) s := by
  apply Ends.repeatFor (I := fun j t =>
    s₀.Leads str n t ∧ t.startup.Channel i capacity (counted capacity j))
  · exact ⟨leads, channel⟩
  · rintro j t _ ⟨leads, channel⟩
    apply Ends.bind
    apply leads.queue channel rfl
    intro s' leads channel
    rw [counted_succ]
    exact .pure ⟨leads, channel⟩

/-- The loop that receives, on a queue that holds `1, 2, …`. -/
theorem Leads.drain (leads : s₀.Leads str n s) {i capacity : Nat} {l : List UInt32} {why : String}
    (channel : s.startup.Channel i capacity l) (times : Nat)
    (order : ∀ j < times, Fifo.perform capacity (.receive 0) (l.drop j) =
      (.received (UInt32.ofNat (j + 1)), l.drop (j + 1))) :
    Ends (Poll.repeatFor times fun j => do
      let reply ← receive i
      failIf w (reply.message = none ∨ reply.message ≠ some (UInt32.ofNat (j + 1))) why)
      (fun _ t => s₀.Leads str n t ∧ t.startup.Channel i capacity (l.drop times)) s := by
  apply Ends.repeatFor (I := fun j t => s₀.Leads str n t ∧ t.startup.Channel i capacity (l.drop j))
  · exact ⟨leads, channel⟩
  · rintro j t below ⟨leads, channel⟩
    apply Ends.bind
    apply leads.queue channel rfl
    rw [order j below]
    intro s' leads channel
    exact failIf_passes (by simp [Answer.message]) ⟨leads, channel⟩

theorem testQueueBasic_passes {buffer : Nat → UInt32} {Q : Unit → Boot → Prop} (on : s₀.On w)
    (leads : s₀.Leads str n s)
    (own : ∀ o ∈ (s.startup.rings postRing).objects, o.Local)
    (apart : (s.startup.rings postRing).emptySlots ≠ (s.startup.rings postRing).filledSlots)
    (rest : ∀ t, s₀.Leads (str ++ text "[POST] Queue... " ++ text "PASS\r\n") n t → Q () t) :
    Ends (testQueueBasic w buffer) Q s := by
  unfold testQueueBasic
  apply Ends.bind
  apply leads.print on
  intro s₁ leads same
  rw [← same] at own apart
  apply Ends.bind
  apply leads.initQueue ⟨by decide, own⟩ apart (by decide)
  intro s₂ leads channel
  -- one message there and back
  apply Ends.bind
  apply leads.queue channel rfl
  intro s₃ leads channel
  apply Ends.bind
  apply leads.queue channel rfl
  intro s₄ leads channel
  apply Ends.bind
  apply failIf_passes (by decide)
  apply Ends.bind
  apply failIf_passes (by decide)
  -- four messages there, and in the same order back
  apply Ends.bind
  apply (leads.count channel 4).mono
  rintro _ s₅ ⟨leads, channel⟩
  apply Ends.bind
  apply (leads.drain channel 4 (by decide)).mono
  rintro _ s₆ ⟨leads, channel⟩
  apply Ends.bind
  apply leads.queue channel rfl
  intro s₇ leads channel
  apply Ends.bind
  apply failIf_passes (by decide)
  -- six messages, of which the last four stay
  apply Ends.bind
  apply (leads.count channel 6).mono
  rintro _ s₈ ⟨leads, channel⟩
  apply Ends.bind
  apply leads.queue channel rfl
  intro s₉ leads channel
  apply Ends.bind
  apply failIf_passes (by decide)
  apply leads.print on
  intro t leads _
  exact rest t leads

/-- What the self-test prints. -/
def postTranscript : List UInt8 :=
  text "\r\n--- STARTING KERNEL POST ---\r\n" ++
  text "[POST] Mutex... " ++ text "PASS\r\n" ++
  text "[POST] Semaphore... " ++ text "PASS\r\n" ++
  text "[POST] Queue... " ++ text "PASS\r\n" ++
  text "--- KERNEL READY ---\r\n\r\n"

theorem osRunPost_passes {buffer : Nat → UInt32} {Q : Unit → Boot → Prop} (on : s₀.On w)
    (leads : s₀.Leads str n s)
    (own : ∀ o ∈ (s₀.startup.rings postRing).objects, o.Local)
    (apart : (s₀.startup.rings postRing).emptySlots ≠ (s₀.startup.rings postRing).filledSlots)
    (rest : ∀ t, s₀.Leads (str ++ postTranscript) n t → Q () t) :
    Ends (osRunPost w buffer) Q s := by
  unfold osRunPost
  apply Ends.bind
  apply leads.print on
  intro s₁ leads _
  apply Ends.bind
  apply testMutexBasic_passes on leads
  intro s₂ leads
  apply Ends.bind
  apply testSemaphoreBasic_passes on leads
  intro s₃ leads
  obtain ⟨own, apart⟩ := leads.objects own apart
  apply Ends.bind
  apply testQueueBasic_passes on leads own apart
  intro s₄ leads
  apply leads.print on
  intro t leads _
  apply rest t
  simpa only [postTranscript, List.append_assoc] using leads

end
end Boot

/-- **The self-test passes.** Whatever has been called before, in whatever order, and however slow
the transmitter is: `os_run_post` comes to its end with every `PASS`, and the objects of the tasks
are as they were. -/
theorem post_passes {w : World} {s : Boot} (reached : s.startup.Reached) (on : s.On w)
    (own : ∀ o ∈ (s.startup.rings postRing).objects, o.Local)
    (apart : (s.startup.rings postRing).emptySlots ≠ (s.startup.rings postRing).filledSlots)
    (buffer : Nat → UInt32) :
    Ends (Boot.osRunPost w buffer) (fun _ t => s.Leads Boot.postTranscript 0 t) s :=
  Boot.osRunPost_passes on (.start reached) own apart fun _ leads => leads

/-- Power is on, with the objects of the queues where `main` and the others have them. -/
def powered : Boot where
  startup := ⟨reset fun _ => ⟨0, 0⟩,
    fun i => if i = sweepRing then sweepQueue else ⟨fun _ => 0, 0, 0, 0, 3, 6, 7⟩, fun _ => false⟩
  registers _ := 0
  sent := []
  pwmPeriodUs := 0
  pulses := []
  reads := 0

/-- A transmitter that is busy three times before every character. -/
def slow : World := ⟨fun _ i => if i < 3 then 0 else Uart.srTxe, fun n => 10 * UInt32.ofNat n⟩

theorem slow_transmits (sent : Uart.Sent) : ∃ i, slow.sr sent i &&& Uart.srTxe ≠ 0 :=
  ⟨3, show Uart.srTxe &&& Uart.srTxe ≠ 0 by decide⟩

/-- The self-test while a mutex of the tasks is held. -/
theorem post_passes_held : ∃ s : Boot, s.startup.kernel.mutexes 0 = ⟨1, none⟩ ∧
    Ends (Boot.osRunPost slow fun _ => 0) (fun _ t => s.Leads Boot.postTranscript 0 t) s := by
  have zeroed : Zeroed { powered.startup with kernel := powered.startup.kernel.osKernelInit } :=
    ⟨⟨_, ⟨fun _ => rfl, fun _ => rfl⟩, rfl⟩, fun _ => rfl⟩
  have start : Startup.Reached _ := ⟨[], .start zeroed, by simp⟩
  have fresh := start.next (a := .initMutex 0) trivial trivial rfl
  have taken := fresh.next (a := .kernel (.mutexAcquire 0 waitForever))
    (by rintro o looks; obtain rfl := Option.some.inj looks; rfl) trivial rfl
  refine ⟨_, ?_, post_passes (w := slow) (s := { powered with
    startup := _
    registers := BitFields.run Drivers.uartInit powered.registers }) taken
    ⟨by decide, slow_transmits⟩ (by decide) (by decide) _⟩
  rfl

end Sentinel
