import Sentinel.Critical.Program

/-! Every call of the kernel hands `PRIMASK` back as it found it, and writes to a mutex, a
semaphore, a wait queue or a task control block only while interrupts are masked. -/

namespace Sentinel

open Programs

/-- The program runs from `PRIMASK = before` to `PRIMASK = after`, with others that leave
`PRIMASK` as they find it, and it is masked at each of its writes to the kernel's objects. -/
def Masked (before after : Bool) {α : Type} (p : Routine α) : Prop :=
  Triple (fun d d' => d'.kernel.primask = d.kernel.primask)
    (fun target d => target.isKernel → d.kernel.primask = true)
    (fun d => d.kernel.primask = before) p fun _ d => d.kernel.primask = after

namespace Masked

open Routine

variable {a b c : Bool} {α β : Type} {p p' : Routine α} {f : α → Routine β}

/-! ### Rules -/

theorem pure {x : α} : Masked a a (pure x) := Triple.pure fun _ same => same

theorem bind (first : Masked a b p) (rest : ∀ x, Masked b c (f x)) : Masked a c (p >>= f) :=
  Triple.bind first rest

theorem ite {q : Prop} [Decidable q] (yes : Masked a b p) (no : Masked a b p') :
    Masked a b (if q then p else p') := Triple.ite yes no

theorem letIn : Masked a a Program.letIn := Triple.letIn fun _ _ kept same => kept.trans same

theorem deref {pointer : Option α} : Masked a a (Program.deref pointer) :=
  Triple.deref fun _ _ same => same

theorem preempt : Masked a a preempt := by
  apply bind (Triple.look fun _ same => same)
  intro primask
  exact ite pure letIn

theorem get {g : Device → α} : Masked a a (get g) := by
  apply bind preempt
  intro _
  exact Triple.look fun _ same => same

theorem read {g : Kernel → α} : Masked a a (read g) := get

theorem assign {target : Target} {g : Device → Device} (masked : target.isKernel → a = true)
    (kept : ∀ d, d.kernel.primask = a → (g d).kernel.primask = b) :
    Masked a b (assign target g) := by
  apply bind preempt
  intro _
  apply Triple.write
  · intro d here kernel
    exact here.trans (masked kernel)
  · exact kept

theorem assignTcb {t : TaskId} {g : Tcb → Tcb} : Masked true true (assignTcb t g) :=
  assign (fun _ => rfl) fun _ same => same

theorem assignMutex {m : Nat} {g : OsMutex → OsMutex} : Masked true true (assignMutex m g) :=
  assign (fun _ => rfl) fun _ same => same

theorem assignSemaphore {x : Nat} {g : OsSemaphore → OsSemaphore} :
    Masked true true (assignSemaphore x g) :=
  assign (fun _ => rfl) fun _ same => same

theorem assignQueue {o : Waitable} {g : WaitQueue → WaitQueue} :
    Masked true true (assignQueue o g) :=
  assign (fun _ => rfl) fun _ same => same

/-- A write to anything else. -/
theorem elsewhere {target : Target} {g : Device → Device} (other : target.isKernel = false)
    (kept : ∀ d, d.kernel.primask = a → (g d).kernel.primask = b) :
    Masked a b (Routine.assign target g) := by
  apply assign _ kept
  intro kernel
  rw [other] at kernel
  cases kernel

theorem assignRing {g : OsMessageQueue → OsMessageQueue} : Masked a a (assignRing g) :=
  elsewhere rfl fun _ same => same

theorem control {g : Kernel → Kernel} (sets : ∀ k, k.primask = a → (g k).primask = b) :
    Masked a b (control g) := elsewhere rfl fun d => sets d.kernel

/-- `os_enter_critical` hands out the value that it found. -/
theorem osEnterCritical : Triple (fun d d' => d'.kernel.primask = d.kernel.primask)
    (fun target d => target.isKernel → d.kernel.primask = true)
    (fun d => d.kernel.primask = a) osEnterCritical
    fun primask d => primask = a ∧ d.kernel.primask = true := by
  have found : Triple (fun d d' => d'.kernel.primask = d.kernel.primask)
      (fun target d => target.isKernel → d.kernel.primask = true)
      (fun d => d.kernel.primask = a) (Routine.read fun k => k.primask)
      fun primask d => primask = a ∧ d.kernel.primask = a := by
    apply Triple.bind preempt
    intro _
    exact Triple.look fun _ same => ⟨same, same⟩
  apply Triple.bind found
  intro primask
  apply Triple.fact
  rintro rfl
  have mask : Masked primask true (Routine.control fun k => { k with primask := true }) :=
    control fun _ _ => rfl
  apply Triple.bind mask
  intro _
  exact Triple.pure fun _ masked => ⟨rfl, masked⟩

/-- A critical section, with what comes behind it: it is left to the rest to bring `PRIMASK` back
to the value that was saved. -/
theorem critical {rest : Bool → Routine β} (inside : Masked true b (rest a)) :
    Masked a b (Routine.osEnterCritical >>= rest) := by
  apply Triple.bind osEnterCritical
  intro primask
  apply Triple.fact
  rintro rfl
  exact inside

theorem osExitCritical : Masked a b (osExitCritical b) := control fun _ _ => rfl

theorem osYield : Masked a a osYield := bind (control fun _ same => same) fun _ => letIn

/-! ### The functions of `os_kernel.c` -/

theorem current : Masked a a current := bind read fun _ => deref

theorem shiftDown {o : Waitable} {j n : Nat} : Masked true true (shiftDown o j n) := by
  induction n generalizing j with
  | zero => exact pure
  | succ n ih =>
    apply bind read
    intro next
    exact bind assignQueue fun _ => ih

theorem removeFrom {task : TaskId} {o c : Waitable} {i n : Nat} :
    Masked true true (removeFrom task o c i n) := by
  induction n generalizing i with
  | zero => exact pure
  | succ n ih =>
    apply bind read
    intro entry
    apply ite
    · exact bind shiftDown fun _ => assignQueue
    · exact ih

theorem waitQueueRemove {task : TaskId} : Masked true true (waitQueueRemove task) := by
  apply bind read
  intro tcb
  split
  · apply bind read
    intro count
    apply bind removeFrom
    intro _
    exact bind assignTcb fun _ => assignTcb
  · exact pure

theorem blockCurrent {o : Waitable} {max : Nat} {timeout : UInt32} :
    Masked true true (blockCurrent o max timeout) := by
  apply bind read
  intro count
  apply ite pure
  apply bind current
  intro task
  apply bind assignQueue
  intro _
  apply bind assignQueue
  intro _
  apply bind assignTcb
  intro _
  apply bind assignTcb
  intro _
  apply bind assignTcb
  intro _
  apply bind assignTcb
  intro _
  exact bind assignTcb fun _ => pure

theorem wakeTask {task : TaskId} : Masked true true (wakeTask task) := by
  apply bind waitQueueRemove
  intro _
  apply bind assignTcb
  intro _
  exact bind assignTcb fun _ => assignTcb

theorem pickWaiter {o : Waitable} : Masked a a (pickWaiter o) := read

theorem resumed : Masked a a resumed := bind current fun _ => read

theorem donate {m : Nat} : Masked true true (donate m) := by
  apply bind current
  intro task
  apply bind read
  intro pointer
  apply bind deref
  intro owner
  apply bind read
  intro mine
  apply bind read
  intro theirs
  exact ite assignTcb pure

theorem dropDonation {m : Nat} : Masked true true (dropDonation m) := by
  apply bind read
  intro owner
  split
  · exact assignTcb
  · exact pure

theorem countUp {x : Nat} : Masked true true (countUp x) := by
  apply bind read
  intro s
  exact ite assignSemaphore pure

/-- The way out of a critical section by a plain return. -/
theorem leave {x : α} : Masked true a (do Routine.osExitCritical a; Pure.pure x) :=
  bind osExitCritical fun _ => pure

theorem osDelay {ms : UInt32} : Masked a a (osDelay ms) := by
  apply bind read
  intro kernelRunning
  apply ite pure
  apply critical
  apply bind current
  intro task
  apply bind assignTcb
  intro _
  apply bind assignTcb
  intro _
  apply bind assignTcb
  intro _
  apply bind assignTcb
  intro _
  exact bind osExitCritical fun _ => osYield

theorem park {o : Waitable} {max : Nat} {timeout : UInt32} :
    Masked true a (park o max timeout a) := by
  apply bind blockCurrent
  intro parked
  apply ite leave
  apply bind osExitCritical
  intro _
  exact bind osYield fun _ => resumed

theorem osMutexAcquire {m : Nat} {timeout : UInt32} : Masked a a (osMutexAcquire m timeout) := by
  apply critical
  apply bind read
  intro lock
  apply ite
  · apply bind assignMutex
    intro _
    apply bind read
    intro currentTcb
    exact bind assignMutex fun _ => leave
  · apply bind read
    intro owner
    apply bind read
    intro currentTcb
    apply ite leave
    apply bind read
    intro kernelRunning
    apply ite leave
    exact bind donate fun _ => park

theorem osMutexRelease {m : Nat} : Masked a a (osMutexRelease m) := by
  apply critical
  apply bind dropDonation
  intro _
  apply bind pickWaiter
  intro next
  split
  · apply bind assignMutex
    intro _
    apply bind wakeTask
    intro _
    exact bind osExitCritical fun _ => osYield
  · apply bind assignMutex
    intro _
    exact bind assignMutex fun _ => osExitCritical

theorem osSemaphoreAcquire {x : Nat} {timeout : UInt32} :
    Masked a a (osSemaphoreAcquire x timeout) := by
  apply critical
  apply bind read
  intro count
  apply ite
  · exact bind assignSemaphore fun _ => leave
  · apply bind read
    intro kernelRunning
    exact ite leave park

theorem osSemaphoreRelease {x : Nat} : Masked a a (osSemaphoreRelease x) := by
  apply critical
  apply bind pickWaiter
  intro next
  split
  · apply bind wakeTask
    intro _
    exact bind osExitCritical fun _ => osYield
  · exact bind countUp fun _ => osExitCritical

/-! ### The functions of `os_queue.c` and `ultrasonic.c` -/

theorem giveBack {hadSlot : Bool} : Masked a a (giveBack hadSlot) := by
  apply bind get
  intro q
  exact ite osSemaphoreRelease pure

theorem skipOldest {hadSlot : Bool} : Masked a a (skipOldest hadSlot) := ite assignRing pure

theorem postFilled {hadSlot : Bool} : Masked a a (postFilled hadSlot) := by
  apply bind get
  intro q
  exact ite osSemaphoreRelease pure

theorem sendWrite {message : UInt32} {hadSlot : Bool} : Masked a a (sendWrite message hadSlot) := by
  apply bind assignRing
  intro _
  apply bind assignRing
  intro _
  apply bind skipOldest
  intro _
  apply bind get
  intro q
  apply bind osMutexRelease
  intro _
  exact bind postFilled fun _ => pure

theorem sendLock {message : UInt32} {hadSlot : Bool} : Masked a a (sendLock message hadSlot) := by
  apply bind get
  intro q
  apply bind osMutexAcquire
  intro lock
  apply ite
  · exact bind giveBack fun _ => pure
  · exact sendWrite

theorem osQueueSend {message timeout : UInt32} : Masked a a (osQueueSend message timeout) := by
  apply bind get
  intro q
  exact bind osSemaphoreAcquire fun _ => sendLock

theorem receiveRead : Masked a a receiveRead := by
  apply bind get
  intro message
  apply bind assignRing
  intro _
  apply bind get
  intro q
  apply bind osMutexRelease
  intro _
  apply bind get
  intro q
  exact bind osSemaphoreRelease fun _ => pure

theorem receiveLock : Masked a a receiveLock := by
  apply bind get
  intro q
  apply bind osMutexAcquire
  intro lock
  apply ite
  · apply bind get
    intro q
    exact bind osSemaphoreRelease fun _ => pure
  · exact receiveRead

theorem osQueueReceive {timeout : UInt32} : Masked a a (osQueueReceive timeout) := by
  apply bind get
  intro q
  apply bind osSemaphoreAcquire
  intro item
  exact ite pure receiveLock

theorem gpioWrite {value : Bool} : Masked a a (gpioWrite value) :=
  elsewhere rfl fun _ same => same

theorem spin {n : Nat} : Masked a a (spin n) := by
  induction n with
  | zero => exact pure
  | succ n ih => exact bind preempt fun _ => ih

theorem ultrasonicTrigger : Masked a a ultrasonicTrigger := by
  apply critical
  have arm : Masked true true
      (Routine.assign .capture fun d => { d with waitingForRising := true }) :=
    elsewhere rfl fun _ same => same
  apply bind arm
  intro _
  apply bind osExitCritical
  intro _
  apply bind gpioWrite
  intro _
  exact bind spin fun _ => gpioWrite

/-! ### Every call -/

theorem call {c : Call} : Masked a a c.routine := by
  cases c with
  | mutexAcquire m timeout => exact bind osMutexAcquire fun _ => pure
  | mutexRelease m => exact bind osMutexRelease fun _ => pure
  | semaphoreAcquire x timeout => exact bind osSemaphoreAcquire fun _ => pure
  | semaphoreRelease x => exact bind osSemaphoreRelease fun _ => pure
  | delay ms => exact bind osDelay fun _ => pure

theorem operation {op : Operation} : Masked a a op.routine := by
  cases op with
  | send message timeout => exact bind osQueueSend fun _ => pure
  | receive timeout =>
    apply bind osQueueReceive
    intro out
    split
    · exact pure
    · exact pure

theorem primitive {p : Primitive} : Masked a a p.routine := by
  cases p with
  | call c => exact bind call fun _ => pure
  | queue op => exact bind operation fun _ => pure
  | ultrasonicTrigger => exact ultrasonicTrigger

end Masked

/-- **Every call keeps the interrupt mask.** Whatever the others do that leaves `PRIMASK` as they
find it, a call that returns returns with the `PRIMASK` of its entry, and each of its writes to a
mutex, a semaphore, a wait queue or a task control block is made while `PRIMASK` is 1. -/
theorem masking_preserved (p : Primitive) {others : Others Device} {w w' : World Device Target}
    (keeps : ∀ n d, (others n d).kernel.primask = d.kernel.primask)
    (returns : p.routine others w = some ((), w')) :
    w'.state.kernel.primask = w.state.kernel.primask ∧
      ∃ made, w'.log = made ++ w.log ∧
        ∀ x ∈ made, x.target.isKernel → x.state.kernel.primask = true :=
  Masked.primitive others keeps w () w' returns rfl

/-- A queue and two tasks before the launch, where interrupts are masked already. -/
def bench : Device :=
  { kernel := createAll (opening 2).2.osKernelInit [0, 1]
    queue := (opening 2).1
    waitingForRising := true
    trigPin := false }

/-- A send takes a semaphore and a mutex inside a critical section of its caller. -/
theorem masking_preserved_nested : ∃ w',
    (Primitive.queue (.send 42 0)).routine (fun _ d => d) ⟨bench, [], 0⟩ = some ((), w') ∧
      w'.state.kernel.primask = true ∧ ∃ made, w'.log = made ++ [] ∧
        ∀ x ∈ made, x.target.isKernel → x.state.kernel.primask = true := by
  have returns :
      ((Primitive.queue (.send 42 0)).routine (fun _ d => d) ⟨bench, [], 0⟩).isSome = true := by
    decide +kernel
  obtain ⟨⟨_, w'⟩, done⟩ := Option.isSome_iff_exists.mp returns
  have masked : bench.kernel.primask = true := by decide
  obtain ⟨same, writes⟩ := masking_preserved (.queue (.send 42 0)) (fun _ _ => rfl) done
  exact ⟨w', done, same.trans masked, writes⟩

end Sentinel
