import Sentinel.Critical.Refine

/-! A call of the kernel is atomic. Its statements can be far apart, with interrupts and other
tasks in between, and still all that it does to the kernel is done at one moment. -/

namespace Sentinel

open Programs

/-! ### Masked statements -/

/-- While interrupts are masked nobody comes in between the statements. -/
abbrev Routine.Quiet {α : Type} (p : Routine α) : Prop :=
  p.Alone fun d : Device => d.kernel.primask = true

namespace Routine.Quiet

variable {α β : Type} {p : Routine α} {f : α → Routine β}

theorem preempt : Quiet preempt := by
  intro others w shut
  have unroll : ∀ others, Routine.preempt others w =
      (if w.state.kernel.primask then pure () else Program.letIn : Routine Unit) others w :=
    fun _ => rfl
  have stays : ∀ others, Routine.preempt others w = some ((), w) := by
    intro others
    rw [unroll, if_pos shut]
    rfl
  rw [stays, stays]
  refine ⟨rfl, ?_⟩
  intro a w' done
  obtain ⟨rfl, rfl⟩ := Prod.mk.inj (Option.some.inj done)
  exact ⟨shut, List.suffix_rfl⟩

theorem get {g : Device → α} : Quiet (get g) := by
  apply Program.Alone.bind preempt
  intro _
  exact .look

theorem read {g : Kernel → α} : Quiet (read g) := get

theorem assign {target : Target} {g : Device → Device}
    (kept : ∀ d, d.kernel.primask = true → (g d).kernel.primask = true) :
    Quiet (assign target g) := by
  apply Program.Alone.bind preempt
  intro _
  exact .write kept

theorem assignTcb {t : TaskId} {g : Tcb → Tcb} : Quiet (assignTcb t g) := assign fun _ shut => shut

theorem assignMutex {m : Nat} {g : OsMutex → OsMutex} : Quiet (assignMutex m g) :=
  assign fun _ shut => shut

theorem assignSemaphore {x : Nat} {g : OsSemaphore → OsSemaphore} :
    Quiet (assignSemaphore x g) := assign fun _ shut => shut

theorem assignQueue {o : Waitable} {g : WaitQueue → WaitQueue} : Quiet (assignQueue o g) :=
  assign fun _ shut => shut

theorem current : Quiet current := by
  apply Program.Alone.bind read
  intro pointer
  exact .deref

theorem shiftDown {o : Waitable} {j n : Nat} : Quiet (shiftDown o j n) := by
  induction n generalizing j with
  | zero => exact .pure
  | succ n ih =>
    apply Program.Alone.bind read
    intro next
    apply Program.Alone.bind assignQueue
    intro _
    exact ih

theorem removeFrom {task : TaskId} {o c : Waitable} {i n : Nat} :
    Quiet (removeFrom task o c i n) := by
  induction n generalizing i with
  | zero => exact .pure
  | succ n ih =>
    apply Program.Alone.bind read
    intro entry
    apply Program.Alone.ite
    · apply Program.Alone.bind shiftDown
      intro _
      exact assignQueue
    · exact ih

theorem waitQueueRemove {task : TaskId} : Quiet (waitQueueRemove task) := by
  apply Program.Alone.bind read
  intro tcb
  split
  · apply Program.Alone.bind read
    intro count
    apply Program.Alone.bind removeFrom
    intro _
    apply Program.Alone.bind assignTcb
    intro _
    exact assignTcb
  · exact .pure

theorem wakeTask {task : TaskId} : Quiet (wakeTask task) := by
  apply Program.Alone.bind waitQueueRemove
  intro _
  apply Program.Alone.bind assignTcb
  intro _
  apply Program.Alone.bind assignTcb
  intro _
  exact assignTcb

theorem pickWaiter {o : Waitable} : Quiet (pickWaiter o) := read

theorem blockCurrent {o : Waitable} {max : Nat} {timeout : UInt32} :
    Quiet (blockCurrent o max timeout) := by
  apply Program.Alone.bind read
  intro count
  apply Program.Alone.ite .pure
  apply Program.Alone.bind current
  intro task
  apply Program.Alone.bind assignQueue
  intro _
  apply Program.Alone.bind assignQueue
  intro _
  apply Program.Alone.bind assignTcb
  intro _
  apply Program.Alone.bind assignTcb
  intro _
  apply Program.Alone.bind assignTcb
  intro _
  apply Program.Alone.bind assignTcb
  intro _
  apply Program.Alone.bind assignTcb
  intro _
  exact .pure

theorem donate {m : Nat} : Quiet (donate m) := by
  apply Program.Alone.bind current
  intro task
  apply Program.Alone.bind read
  intro pointer
  apply Program.Alone.bind .deref
  intro owner
  apply Program.Alone.bind read
  intro mine
  apply Program.Alone.bind read
  intro theirs
  exact .ite assignTcb .pure

theorem dropDonation {m : Nat} : Quiet (dropDonation m) := by
  apply Program.Alone.bind read
  intro owner
  split
  · exact assignTcb
  · exact .pure

theorem countUp {x : Nat} : Quiet (countUp x) := by
  apply Program.Alone.bind read
  intro s
  exact .ite assignSemaphore .pure

end Routine.Quiet

/-! ### Before, inside and behind a critical section -/

/-- What a task relies on in the others: when it runs again it finds `PRIMASK`, `kernel_running`
and `current_tcb` as it left them. -/
structure Device.Returned (d d' : Device) : Prop where
  primask : d'.kernel.primask = d.kernel.primask
  kernelRunning : d'.kernel.kernelRunning = d.kernel.kernelRunning
  currentTcb : d'.kernel.currentTcb = d.kernel.currentTcb

/-- The others have been at work from `d` to `d'`. -/
abbrev Meanwhile (R : Device → Device → Prop) : Device → Device → Prop := Relation.ReflTransGen R

/-- The rest of a call, behind its critical section: the others, and the switch that it asks for
if it does. -/
inductive Settles (R : Device → Device → Prop) : Bool → Device → Device → Prop
  | returns {d d' : Device} (between : Meanwhile R d d') : Settles R false d d'
  | switches {d v d' : Device} (before : Meanwhile R d v)
      (after : Meanwhile R { v with kernel := v.kernel.osYield } d') : Settles R true d d'

/-- From `d` to `d'` only the others are at work but for one moment. What happens to the kernel at
that moment is `exec`, which gives `out`. The pending bit of PendSV, if `exec` sets it, can follow
later. -/
def Strikes (R : Device → Device → Prop) (exec : Kernel → Option (Outcome × Kernel)) (d : Device)
    (out : Outcome) (d' : Device) : Prop :=
  ∃ u k switches, Meanwhile R d u ∧
    exec u.kernel = some (out, if switches then k.osYield else k) ∧
    k.pendSv = u.kernel.pendSv ∧ Settles R switches { u with kernel := k } d'

/-- `k` is the kernel that a critical section finds when it is entered in `u`. -/
structure Device.Enters (u : Device) (k : Kernel) : Prop where
  enter : u.kernel.osEnterCritical = (false, k)
  masked : k.primask = true
  pendSv : k.pendSv = u.kernel.pendSv
  currentTcb : k.currentTcb = u.kernel.currentTcb

/-- Nothing is asked of the writes. -/
abbrev Leads {α : Type} (R : Device → Device → Prop) (P : Device → Prop) (p : Routine α)
    (Q : α → Device → Prop) : Prop := Triple R (fun _ _ => True) P p Q

section
variable {R : Device → Device → Prop} {α β : Type} {p : Routine α} {f : α → Routine β} {x : α}
  {d u : Device} {k k' : Kernel} {P : Device → Prop} {Q : β → Device → Prop} {t : TaskId}

theorem Meanwhile.returned (keeps : ∀ d d', R d d' → d.Returned d') (met : Meanwhile R d u) :
    d.Returned u := by
  induction met with
  | refl => exact ⟨rfl, rfl, rfl⟩
  | tail _ last ih =>
    have now := keeps _ _ last
    exact ⟨now.primask.trans ih.primask, now.kernelRunning.trans ih.kernelRunning,
      now.currentTcb.trans ih.currentTcb⟩

/-- A masked statement, with what comes behind it. -/
theorem Routine.Quiet.before (quiet : Quiet p) (acts : Acts p k x k') (masked : k.primask = true)
    (rest : Leads R (fun d => d = { u with kernel := k' }) (f x) Q) :
    Leads R (fun d => d = { u with kernel := k }) (p >>= f) Q := by
  have does : Leads R (fun d => d = { u with kernel := k }) p
      fun y d => y = x ∧ d = { u with kernel := k' } := by
    apply quiet.triple
    · rintro d rfl
      exact masked
    · rintro d rfl
      exact ⟨x, _, acts.ends, rfl, rfl⟩
  apply Triple.bind does
  intro y
  apply Triple.fact
  rintro rfl
  exact rest

theorem Settles.next {asks : Bool} {d₁ d₂ : Device} (settles : Settles R asks d d₁)
    (last : R d₁ d₂) : Settles R asks d d₂ := by
  cases settles with
  | returns between => exact .returns (between.tail last)
  | switches before after => exact .switches before (after.tail last)

theorem Settles.returned (keeps : ∀ d d', R d d' → d.Returned d') {asks : Bool}
    (settles : Settles R asks d u) : d.Returned u := by
  cases settles with
  | returns between => exact between.returned keeps
  | switches before after =>
    have early := before.returned keeps
    have late := after.returned keeps
    exact ⟨late.primask.trans early.primask, late.kernelRunning.trans early.kernelRunning,
      late.currentTcb.trans early.currentTcb⟩

namespace Leads

open Routine

theorem preempt (stable : ∀ d d', R d d' → P d → P d') : Leads R P preempt fun _ => P := by
  have looks : Leads R P (Program.look fun d : Device => d.kernel.primask) fun _ => P :=
    Triple.look fun _ before => before
  apply Triple.bind looks
  intro primask
  apply Triple.ite
  · exact Triple.pure fun _ before => before
  · exact Triple.letIn stable

theorem read {g : Kernel → α} (stable : ∀ d d', R d d' → P d → P d') :
    Leads R P (read g) fun y d => P d ∧ y = g d.kernel := by
  apply Triple.bind (preempt stable)
  intro _
  exact Triple.look fun _ before => ⟨before, rfl⟩

theorem control {g : Kernel → Kernel} (stable : ∀ d d', R d d' → P d → P d') :
    Leads R P (control g) fun _ d => ∃ v, P v ∧ d = { v with kernel := g v.kernel } := by
  apply Triple.bind (preempt stable)
  intro _
  exact Triple.write (fun _ _ => trivial) fun v before => ⟨v, before, rfl⟩

/-- The way into a critical section. -/
theorem critical (keeps : ∀ d d', R d d' → d.Returned d') (unmasked : d.kernel.primask = false)
    {rest : Bool → Routine β} (inside : ∀ u k, Meanwhile R d u → u.Enters k →
      Leads R (fun d' => d' = { u with kernel := k }) (rest false) Q) :
    Leads R (Meanwhile R d) (osEnterCritical >>= rest) Q := by
  have stable : ∀ d₁ d₂, R d₁ d₂ → Meanwhile R d d₁ → Meanwhile R d d₂ :=
    fun _ _ last met => met.tail last
  have saves : Leads R (Meanwhile R d) (Routine.read fun k => k.primask) fun primask d' =>
      primask = false ∧ Meanwhile R d d' := by
    apply Triple.mono (fun _ met => met) (read stable)
    rintro primask d' ⟨met, rfl⟩
    exact ⟨(met.returned keeps).primask.trans unmasked, met⟩
  have enters : Leads R (Meanwhile R d) osEnterCritical fun primask d' => primask = false ∧
      ∃ u, Meanwhile R d u ∧ d' = { u with kernel := { u.kernel with primask := true } } := by
    apply Triple.bind saves
    intro primask
    apply Triple.fact
    rintro rfl
    apply Triple.bind (control stable)
    intro _
    exact Triple.pure fun _ entered => ⟨rfl, entered⟩
  apply Triple.bind enters
  intro primask
  apply Triple.fact
  rintro rfl
  apply Triple.from_each
  intro u
  apply Triple.fact
  intro met
  have open_ : u.kernel.primask = false := (met.returned keeps).primask.trans unmasked
  exact inside u _ met ⟨by rw [Kernel.osEnterCritical, open_], rfl, rfl, rfl⟩

/-- The way out. -/
theorem exits (masked : k.primask = true) :
    Leads R (fun d => d = { u with kernel := k }) (osExitCritical false)
      fun _ => Meanwhile R { u with kernel := k.osExitCritical false } := by
  apply Quiet.preempt.before (fun _ _ _ => ends_preempt) masked
  apply Triple.write
  · exact fun _ _ => trivial
  · rintro d rfl
    exact .refl

/-- The way out by a plain return. -/
theorem leaves {Q : α → Device → Prop} (masked : k.primask = true)
    (post : ∀ d', Settles R false { u with kernel := k.osExitCritical false } d' → Q x d') :
    Leads R (fun d => d = { u with kernel := k }) (do osExitCritical false; Pure.pure x) Q := by
  apply Triple.bind (exits masked)
  intro _
  exact Triple.pure fun d' met => post d' (.returns met)

theorem osYield : Leads R (Meanwhile R d) osYield fun _ => Settles R true d := by
  have stable : ∀ d₁ d₂, R d₁ d₂ → Meanwhile R d d₁ → Meanwhile R d d₂ :=
    fun _ _ last met => met.tail last
  apply Triple.bind (control stable)
  intro _
  apply Triple.letIn
  rintro _ d' last ⟨v, met, rfl⟩
  exact .switches met (.single last)

/-- The end of a call that has parked its task. -/
theorem resumed (keeps : ∀ d d', R d d' → d.Returned d') (here : d.kernel.currentTcb = some t) :
    Leads R (Settles R true d) resumed fun code d' =>
      Settles R true d d' ∧ code = (d'.kernel.osTasks t).waitResult := by
  have stable : ∀ d₁ d₂, R d₁ d₂ → Settles R true d d₁ → Settles R true d d₂ :=
    fun _ _ last settles => settles.next last
  have finds : Leads R (Settles R true d) current fun task d' =>
      task = t ∧ Settles R true d d' := by
    have points : Leads R (Settles R true d) (Routine.read fun k => k.currentTcb)
        fun pointer d' => pointer = some t ∧ Settles R true d d' := by
      apply Triple.mono (fun _ settles => settles) (read stable)
      rintro pointer d' ⟨settles, rfl⟩
      exact ⟨(settles.returned keeps).currentTcb.trans here, settles⟩
    apply Triple.bind points
    intro pointer
    apply Triple.fact
    rintro rfl
    exact Triple.pure fun _ settles => ⟨rfl, settles⟩
  apply Triple.bind finds
  intro task
  apply Triple.fact
  rintro rfl
  exact read stable

end Leads
end

/-! ### The calls -/

section
variable {k k₁ : Kernel} {t owner task : TaskId} {o : Waitable} {m max : Nat} {timeout : UInt32}

/-- The two kernels agree on what the processor looks at. -/
structure Kernel.SameControl (k k' : Kernel) : Prop where
  primask : k'.primask = k.primask
  pendSv : k'.pendSv = k.pendSv
  currentTcb : k'.currentTcb = k.currentTcb

theorem Kernel.donate_control : k.SameControl (k.donate owner t) := by
  unfold donate
  split <;> exact ⟨rfl, rfl, rfl⟩

theorem Kernel.dropDonation_control : k.SameControl (k.dropDonation m) := by
  unfold dropDonation
  split <;> exact ⟨rfl, rfl, rfl⟩

theorem Kernel.blockCurrent_control (parks : k.blockCurrent t o max timeout = some k₁) :
    k.SameControl k₁ := by
  unfold blockCurrent at parks
  dsimp only at parks
  split at parks
  · cases parks
  · obtain rfl := Option.some.inj parks
    exact ⟨rfl, rfl, rfl⟩

theorem Kernel.wakeTask_control : k.SameControl (k.wakeTask task) := by
  unfold wakeTask waitQueueRemove
  dsimp only
  split <;> exact ⟨rfl, rfl, rfl⟩

end

namespace Leads

open Routine

section
variable {R : Device → Device → Prop} {d u : Device} {k k₁ : Kernel} {t : TaskId} {o : Waitable}
  {max m x : Nat} {timeout ms : UInt32}

theorem park_full (masked : k.primask = true) (here : k.currentTcb = some t)
    (full : k.blockCurrent t o max timeout = none) :
    Leads R (fun d => d = { u with kernel := k }) (park o max timeout false) fun code d' =>
      code = .fail ∧ Settles R false { u with kernel := k.osExitCritical false } d' := by
  have blocked := @Acts.blockCurrent k t o max timeout here
  rw [full] at blocked
  apply Quiet.blockCurrent.before blocked masked
  apply Triple.yes (by decide)
  exact leaves masked fun _ settles => ⟨rfl, settles⟩

theorem park_parks (keeps : ∀ d d', R d d' → d.Returned d') (masked : k.primask = true)
    (here : k.currentTcb = some t) (parks : k.blockCurrent t o max timeout = some k₁) :
    Leads R (fun d => d = { u with kernel := k }) (park o max timeout false) fun code d' =>
      code = Outcome.parked.code d'.kernel ∧
        Settles R true { u with kernel := k₁.osExitCritical false } d' := by
  have blocked := @Acts.blockCurrent k t o max timeout here
  rw [parks] at blocked
  have control := Kernel.blockCurrent_control parks
  have still : { u with kernel := k₁.osExitCritical false }.kernel.currentTcb = some t :=
    control.currentTcb.trans here
  apply Quiet.blockCurrent.before blocked masked
  apply Triple.no (by simp)
  apply Triple.bind (exits (control.primask.trans masked))
  intro _
  apply Triple.bind osYield
  intro _
  apply Triple.mono (fun _ settles => settles) (resumed keeps still)
  rintro code d' ⟨settles, rfl⟩
  have runs := (settles.returned keeps).currentTcb.trans still
  exact ⟨by simp [Outcome.code, runs], settles⟩

theorem osSemaphoreAcquire (keeps : ∀ d d', R d d' → d.Returned d')
    (unmasked : d.kernel.primask = false) (here : d.kernel.currentTcb = some t) :
    Leads R (Meanwhile R d) (osSemaphoreAcquire x timeout) fun code d' =>
      ∃ out, Strikes R (fun k => k.osSemaphoreAcquire x timeout) d out d' ∧
        code = out.code d'.kernel := by
  apply critical keeps unmasked
  intro u k met entered
  have here : k.currentTcb = some t :=
    entered.currentTcb.trans ((met.returned keeps).currentTcb.trans here)
  have exec : u.kernel.osSemaphoreAcquire x timeout = u.kernel.osSemaphoreAcquire x timeout := rfl
  conv_rhs at exec =>
    unfold Kernel.osSemaphoreAcquire
    rw [entered.enter]
    dsimp only
  apply Quiet.read.before Acts.read entered.masked
  by_cases token : (k.semaphores x).count > 0
  · rw [if_pos token] at exec
    apply Triple.yes token
    apply Quiet.assignSemaphore.before Acts.assignSemaphore entered.masked
    apply leaves
    · exact entered.masked
    · intro d' settles
      exact ⟨.returned .success, ⟨u, _, false, met, exec, entered.pendSv, settles⟩, rfl⟩
  rw [if_neg token] at exec
  apply Triple.no token
  apply Quiet.read.before Acts.read entered.masked
  by_cases polls : timeout = 0 ∨ ¬ k.kernelRunning
  · rw [if_pos polls] at exec
    apply Triple.yes polls
    apply leaves
    · exact entered.masked
    · intro d' settles
      exact ⟨.returned .timeout, ⟨u, _, false, met, exec, entered.pendSv, settles⟩, rfl⟩
  rw [if_neg polls, here, Option.map_some] at exec
  apply Triple.no polls
  cases parks : k.blockCurrent t (.semaphore x) maxTasks timeout with
  | none =>
    rw [parks] at exec
    apply Triple.mono (fun _ same => same) (park_full entered.masked here parks)
    rintro code d' ⟨rfl, settles⟩
    exact ⟨.returned .fail, ⟨u, _, false, met, exec, entered.pendSv, settles⟩, rfl⟩
  | some k₁ =>
    rw [parks] at exec
    have pends := (Kernel.blockCurrent_control parks).pendSv.trans entered.pendSv
    apply Triple.mono (fun _ same => same) (park_parks keeps entered.masked here parks)
    rintro code d' ⟨rfl, settles⟩
    exact ⟨.parked, ⟨u, _, true, met, exec, pends, settles⟩, rfl⟩

/-- Behind a NULL `owner` the statements do not go on. -/
theorem donate_unowned (masked : k.primask = true) (here : k.currentTcb = some t)
    (nobody : (k.mutexes m).owner = none) :
    Leads R (fun d => d = { u with kernel := k }) (donate m) fun _ _ => False := by
  apply Quiet.current.before (Acts.current here) masked
  apply Quiet.read.before Acts.read masked
  rw [nobody]
  exact Triple.bind (Q := fun _ _ => False) Triple.fault fun _ => Triple.unreachable

theorem osMutexAcquire (keeps : ∀ d d', R d d' → d.Returned d')
    (unmasked : d.kernel.primask = false) (here : d.kernel.currentTcb = some t) :
    Leads R (Meanwhile R d) (osMutexAcquire m timeout) fun code d' =>
      ∃ out, Strikes R (fun k => k.osMutexAcquire m timeout) d out d' ∧
        code = out.code d'.kernel := by
  apply critical keeps unmasked
  intro u k met entered
  have here : k.currentTcb = some t :=
    entered.currentTcb.trans ((met.returned keeps).currentTcb.trans here)
  have exec : u.kernel.osMutexAcquire m timeout = u.kernel.osMutexAcquire m timeout := rfl
  conv_rhs at exec =>
    unfold Kernel.osMutexAcquire
    rw [entered.enter]
    dsimp only
  apply Quiet.read.before Acts.read entered.masked
  by_cases unlocked : (k.mutexes m).lock = 0
  · rw [if_pos unlocked] at exec
    apply Triple.yes unlocked
    apply Quiet.assignMutex.before Acts.assignMutex entered.masked
    apply Quiet.read.before Acts.read
    · exact entered.masked
    apply Quiet.assignMutex.before Acts.assignMutex
    · exact entered.masked
    apply leaves
    · exact entered.masked
    · intro d' settles
      refine ⟨.returned .success, ⟨u, _, false, met, exec, entered.pendSv, ?_⟩, rfl⟩
      simpa [Kernel.setMutex, Kernel.osExitCritical] using settles
  rw [if_neg unlocked] at exec
  apply Triple.no unlocked
  apply Quiet.read.before Acts.read entered.masked
  apply Quiet.read.before Acts.read entered.masked
  by_cases own : (k.mutexes m).owner = k.currentTcb
  · rw [if_pos own] at exec
    apply Triple.yes own
    apply leaves
    · exact entered.masked
    · intro d' settles
      exact ⟨.returned .fail, ⟨u, _, false, met, exec, entered.pendSv, settles⟩, rfl⟩
  rw [if_neg own] at exec
  apply Triple.no own
  apply Quiet.read.before Acts.read entered.masked
  by_cases polls : timeout = 0 ∨ ¬ k.kernelRunning
  · rw [if_pos polls] at exec
    apply Triple.yes polls
    apply leaves
    · exact entered.masked
    · intro d' settles
      exact ⟨.returned .timeout, ⟨u, _, false, met, exec, entered.pendSv, settles⟩, rfl⟩
  rw [if_neg polls, here] at exec
  apply Triple.no polls
  cases held : (k.mutexes m).owner with
  | none =>
    exact Triple.bind (donate_unowned entered.masked here held) fun _ => Triple.unreachable
  | some owner =>
    rw [held] at exec
    have control := @Kernel.donate_control k t owner
    have still := control.currentTcb.trans here
    have masked := control.primask.trans entered.masked
    apply Quiet.donate.before (Acts.donate here held) entered.masked
    cases parks : (k.donate owner t).blockCurrent t (.mutex m) maxWaitingTasks timeout with
    | none =>
      simp only [parks] at exec
      apply Triple.mono (fun _ same => same) (park_full masked still parks)
      rintro code d' ⟨rfl, settles⟩
      have pends := control.pendSv.trans entered.pendSv
      exact ⟨.returned .fail, ⟨u, _, false, met, exec, pends, settles⟩, rfl⟩
    | some k₁ =>
      simp only [parks] at exec
      have pends := (Kernel.blockCurrent_control parks).pendSv.trans
        (control.pendSv.trans entered.pendSv)
      apply Triple.mono (fun _ same => same) (park_parks keeps masked still parks)
      rintro code d' ⟨rfl, settles⟩
      exact ⟨.parked, ⟨u, _, true, met, exec, pends, settles⟩, rfl⟩

/-- The way out of a call that asks for a switch and does not wait for it. -/
theorem yields {Q : Unit → Device → Prop} (masked : k.primask = true)
    (post : ∀ d', Settles R true { u with kernel := k.osExitCritical false } d' → Q () d') :
    Leads R (fun d => d = { u with kernel := k })
      (do osExitCritical false; Routine.osYield) Q := by
  apply Triple.bind (exits masked)
  intro _
  exact Triple.mono (fun _ met => met) osYield fun _ => post

theorem osMutexRelease (keeps : ∀ d d', R d d' → d.Returned d')
    (unmasked : d.kernel.primask = false) :
    Leads R (Meanwhile R d) (osMutexRelease m) fun _ d' =>
      Strikes R (fun k => some (.finished, k.osMutexRelease m)) d .finished d' := by
  apply critical keeps unmasked
  intro u k met entered
  have exec : u.kernel.osMutexRelease m = u.kernel.osMutexRelease m := rfl
  conv_rhs at exec =>
    unfold Kernel.osMutexRelease
    rw [entered.enter]
    dsimp only
  have control := Kernel.dropDonation_control (k := k) (m := m)
  have masked := control.primask.trans entered.masked
  have pends := control.pendSv.trans entered.pendSv
  apply Quiet.dropDonation.before Acts.dropDonation entered.masked
  apply Quiet.pickWaiter.before Acts.pickWaiter masked
  generalize Kernel.pickWaiter _ _ _ = picked at exec ⊢
  cases picked with
  | some next =>
    have woken := @Kernel.wakeTask_control
      ((k.dropDonation m).setMutex m { (k.dropDonation m).mutexes m with owner := some next }) next
    apply Quiet.assignMutex.before Acts.assignMutex masked
    apply Quiet.wakeTask.before Acts.wakeTask
    · exact masked
    apply yields
    · exact woken.primask.trans masked
    · intro d' settles
      exact ⟨u, _, true, met, congrArg (fun k => some (_, k)) exec, woken.pendSv.trans pends, settles⟩
  | none =>
    apply Quiet.assignMutex.before Acts.assignMutex masked
    apply Quiet.assignMutex.before Acts.assignMutex
    · exact masked
    apply Triple.mono (fun _ same => same) (exits _)
    · intro _ d' between
      refine ⟨u, _, false, met, congrArg (fun k => some (_, k)) exec, pends, .returns ?_⟩
      simpa [Kernel.setMutex, Kernel.osExitCritical] using between
    · exact masked

theorem osSemaphoreRelease (keeps : ∀ d d', R d d' → d.Returned d')
    (unmasked : d.kernel.primask = false) :
    Leads R (Meanwhile R d) (osSemaphoreRelease x) fun _ d' =>
      Strikes R (fun k => some (.finished, k.osSemaphoreRelease x)) d .finished d' := by
  apply critical keeps unmasked
  intro u k met entered
  have exec : u.kernel.osSemaphoreRelease x = u.kernel.osSemaphoreRelease x := rfl
  conv_rhs at exec =>
    unfold Kernel.osSemaphoreRelease
    rw [entered.enter]
    dsimp only
  apply Quiet.pickWaiter.before Acts.pickWaiter entered.masked
  generalize Kernel.pickWaiter _ _ _ = picked at exec ⊢
  cases picked with
  | some next =>
    have woken := @Kernel.wakeTask_control k next
    apply Quiet.wakeTask.before Acts.wakeTask entered.masked
    apply yields
    · exact woken.primask.trans entered.masked
    · intro d' settles
      exact ⟨u, _, true, met, congrArg (fun k => some (_, k)) exec,
        woken.pendSv.trans entered.pendSv, settles⟩
  | none =>
    apply Quiet.countUp.before Acts.countUp entered.masked
    have counted : Kernel.SameControl k (if (k.semaphores x).count < (k.semaphores x).maxCount then
        k.setSemaphore x { k.semaphores x with count := (k.semaphores x).count + 1 } else k) := by
      split <;> exact ⟨rfl, rfl, rfl⟩
    apply Triple.mono (fun _ same => same) (exits (counted.primask.trans entered.masked))
    intro _ d' between
    exact ⟨u, _, false, met, congrArg (fun k => some (_, k)) exec,
      counted.pendSv.trans entered.pendSv, .returns between⟩

theorem osDelay (keeps : ∀ d d', R d d' → d.Returned d') (unmasked : d.kernel.primask = false)
    (here : d.kernel.currentTcb = some t) :
    Leads R (Meanwhile R d) (osDelay ms) fun _ d' =>
      ∃ out, Strikes R (Call.delay ms).exec d out d' := by
  have asks : Leads R (Meanwhile R d) (Routine.read fun k => k.kernelRunning) fun running d' =>
      running = d.kernel.kernelRunning ∧ Meanwhile R d d' := by
    apply Triple.mono (fun _ met => met) (read fun _ _ last met => met.tail last)
    rintro running d' ⟨met, rfl⟩
    exact ⟨(met.returned keeps).kernelRunning, met⟩
  apply Triple.bind asks
  intro running
  apply Triple.fact
  rintro rfl
  by_cases off : ¬ d.kernel.kernelRunning ∨ ms = 0
  · apply Triple.yes off
    apply Triple.pure
    intro d' met
    rw [← (met.returned keeps).kernelRunning] at off
    refine ⟨.finished, d', d'.kernel, false, met, ?_, rfl, .returns .refl⟩
    simp only [Call.exec, Kernel.osDelay, if_pos off]
    rfl
  · apply Triple.no off
    apply critical keeps unmasked
    intro u k met entered
    have now := met.returned keeps
    have here : k.currentTcb = some t := entered.currentTcb.trans (now.currentTcb.trans here)
    rw [← now.kernelRunning] at off
    apply Quiet.current.before (Acts.current here) entered.masked
    apply Quiet.assignTcb.before Acts.assignTcb entered.masked
    apply Quiet.assignTcb.before Acts.assignTcb
    · exact entered.masked
    apply Quiet.assignTcb.before Acts.assignTcb
    · exact entered.masked
    apply Quiet.assignTcb.before Acts.assignTcb
    · exact entered.masked
    apply yields
    · exact entered.masked
    · intro d' settles
      refine ⟨.parked, u, Kernel.osExitCritical false (k.setTcb t { k.osTasks t with
        sleepTime := ms
        waitQueue := none
        waitCount := none
        state := .blocked }), true, met, ?_, entered.pendSv, ?_⟩
      · simp only [Call.exec, Kernel.osDelay, if_neg off, entered.enter, here]
        rfl
      · simpa [Kernel.setTcb, Kernel.osExitCritical] using settles

/-- Every call strikes once. -/
theorem call (keeps : ∀ d d', R d d' → d.Returned d') (unmasked : d.kernel.primask = false)
    (here : d.kernel.currentTcb = some t) (c : Call) :
    Leads R (Meanwhile R d) c.routine fun answer d' =>
      ∃ out, Strikes R c.exec d out d' ∧ answer = c.answer out d'.kernel := by
  cases c with
  | mutexAcquire m timeout =>
    apply Triple.bind (osMutexAcquire keeps unmasked here)
    intro code
    apply Triple.pure
    rintro d' ⟨out, strikes, rfl⟩
    exact ⟨out, strikes, rfl⟩
  | mutexRelease m =>
    apply Triple.bind (osMutexRelease keeps unmasked)
    intro _
    exact Triple.pure fun d' strikes => ⟨.finished, strikes, rfl⟩
  | semaphoreAcquire x timeout =>
    apply Triple.bind (osSemaphoreAcquire keeps unmasked here)
    intro code
    apply Triple.pure
    rintro d' ⟨out, strikes, rfl⟩
    exact ⟨out, strikes, rfl⟩
  | semaphoreRelease x =>
    apply Triple.bind (osSemaphoreRelease keeps unmasked)
    intro _
    exact Triple.pure fun d' strikes => ⟨.finished, strikes, rfl⟩
  | delay ms =>
    apply Triple.bind (osDelay keeps unmasked here)
    intro _
    apply Triple.pure
    rintro d' ⟨out, strikes⟩
    exact ⟨out, strikes, rfl⟩

end
end Leads

/-- **Every call is atomic.** Let interrupts and other tasks come in between any two statements,
as often as they like. All that the call does to the kernel is done at one moment between its
entry and its return, as if in one go, and what it returns is what that gives. Only the switch
that it asks for can come later. -/
theorem calls_atomic (c : Call) {others : Others Device} {w w' : World Device Target} {t : TaskId}
    {answer : Outcome} (keeps : ∀ n (d : Device), d.Returned (others n d))
    (unmasked : w.state.kernel.primask = false) (here : w.state.kernel.currentTcb = some t)
    (returns : c.routine others w = some (answer, w')) :
    ∃ out, Strikes (fun d d' => ∃ n, d' = others n d) c.exec w.state out w'.state ∧
      answer = c.answer out w'.state.kernel := by
  have returned : ∀ d d', (∃ n, d' = others n d) → d.Returned d' := by
    rintro d _ ⟨n, rfl⟩
    exact keeps n d
  have leads := Leads.call returned unmasked here c
  exact (leads others (fun n d => ⟨n, rfl⟩) w answer w' returns .refl).1

/-- Two tasks behind the launch, and a semaphore without a token. -/
def launchedBench : Device :=
  { kernel := { createAll (opening 2).2.osKernelInit [0, 1] with
      primask := false
      kernelRunning := true }
    queue := (opening 2).1
    waitingForRising := true
    trigPin := false }

/-- An interrupt handler that puts a token there, the first time that it comes in. -/
def posting : Others Device := fun n d =>
  if n = 0 then { d with kernel := d.kernel.setSemaphore 1 ⟨1, 2⟩ } else d

/-- A poll finds a token that has come after its entry. -/
theorem calls_atomic_posted : ∃ w',
    (Call.semaphoreAcquire 1 0).routine posting ⟨launchedBench, [], 0⟩ =
      some (.returned .success, w') ∧
    ∃ out, Strikes (fun d d' => ∃ n, d' = posting n d) (Call.semaphoreAcquire 1 0).exec
      launchedBench out w'.state ∧
      .returned .success = (Call.semaphoreAcquire 1 0).answer out w'.state.kernel := by
  have succeeds : ((Call.semaphoreAcquire 1 0).routine posting ⟨launchedBench, [], 0⟩).map
      Prod.fst = some (.returned .success) := by decide +kernel
  obtain ⟨⟨answer, w'⟩, returns, rfl⟩ := Option.map_eq_some_iff.mp succeeds
  have keeps : ∀ n (d : Device), d.Returned (posting n d) := by
    intro n d
    unfold posting
    split <;> exact ⟨rfl, rfl, rfl⟩
  have here : launchedBench.kernel.currentTcb = some 0 := by decide
  exact ⟨w', returns, calls_atomic _ keeps rfl here returns⟩

end Sentinel
