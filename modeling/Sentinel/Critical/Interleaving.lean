import Sentinel.Critical.Atomic
import Sentinel.Critical.Masking
import Sentinel.Queue.Lock
import Sentinel.Scheduler.Decision

/-! A queue call under interference. However many others come in between its statements, what it
does is a walk through the frames of the queue model: accesses to the ring and atomic kernel
calls, with the others at work in between. -/

namespace Sentinel

open Programs

/-- The others leave the names of the lock and of the semaphores alone. -/
structure OsMessageQueue.SameHandles (q q' : OsMessageQueue) : Prop where
  lock : q'.lock = q.lock
  emptySlots : q'.emptySlots = q.emptySlots
  filledSlots : q'.filledSlots = q.filledSlots

/-- One step of a queue call, or of the others. -/
inductive Advance (R : Device → Device → Prop) : Frame × Device → Frame × Device → Prop
  | others {f : Frame} {d d' : Device} (work : R d d') : Advance R (f, d) (f, d')
  | access {f f' : Frame} {d : Device} {q : OsMessageQueue}
      (done : f.access d.queue = some (q, f')) : Advance R (f, d) (f', { d with queue := q })
  | call {f : Frame} {d d' : Device} {c : Call} {out : Outcome} (calls : f.call d.queue = some c)
      (strikes : Strikes R c.exec d out d') :
      Advance R (f, d) (f.proceed (c.answer out d'.kernel), d')

section
variable {R : Device → Device → Prop} {d d' u : Device} {k k' : Kernel} {out : Outcome} {c : Call}

/-- A call hands `PRIMASK` back as it found it. -/
theorem exec_primask (done : c.exec k = some (out, k')) : k'.primask = k.primask := by
  obtain ⟨log, moment, ends⟩ := Call.routine_exec done ⟨fun _ => 0, 0, 0, 0, 0, 0, 0⟩ true true [] 0
  exact (Masked.call (a := k.primask) _ (fun _ _ => rfl) _ _ _ ends rfl).1

theorem Strikes.control (keeps : ∀ d d', R d d' → d.Returned d')
    (strikes : Strikes R c.exec d out d') :
    d'.kernel.primask = d.kernel.primask ∧ d'.kernel.currentTcb = d.kernel.currentTcb := by
  obtain ⟨u, k, switches, met, exec, _, settles⟩ := strikes
  have before := met.returned keeps
  have behind := settles.returned keeps
  have primask := exec_primask exec
  have current := (Kernel.exec_calm exec).current
  cases switches <;>
    exact ⟨behind.primask.trans (primask.trans before.primask),
      behind.currentTcb.trans (current.trans before.currentTcb)⟩

theorem OsMessageQueue.SameHandles.trans {q q₁ q₂ : OsMessageQueue} (first : q.SameHandles q₁)
    (second : q₁.SameHandles q₂) : q.SameHandles q₂ :=
  ⟨second.lock.trans first.lock, second.emptySlots.trans first.emptySlots,
    second.filledSlots.trans first.filledSlots⟩

theorem Meanwhile.handles (fixed : ∀ d d', R d d' → d.queue.SameHandles d'.queue) (met : Meanwhile R d u) :
    d.queue.SameHandles u.queue := by
  induction met with
  | refl => exact ⟨rfl, rfl, rfl⟩
  | tail _ last ih => exact ih.trans (fixed _ _ last)

theorem Strikes.handles (fixed : ∀ d d', R d d' → d.queue.SameHandles d'.queue)
    (strikes : Strikes R c.exec d out d') : d.queue.SameHandles d'.queue := by
  obtain ⟨u, k, switches, met, exec, _, settles⟩ := strikes
  apply (met.handles fixed).trans
  cases settles with
  | returns between =>
    have kept := between.handles fixed
    exact kept
  | switches before after =>
    have early := before.handles fixed
    have late := after.handles fixed
    exact early.trans late

end

/-! ### Walks -/

/-- A task that runs with interrupts enabled, and the queue by the names of its objects. -/
structure Device.Serves (d : Device) (t : TaskId) (d' : Device) : Prop where
  primask : d'.kernel.primask = false
  currentTcb : d'.kernel.currentTcb = some t
  handles : d.queue.SameHandles d'.queue

/-- What the task relies on: the others, and the state that it starts in. -/
structure Polite (R : Device → Device → Prop) (start : Frame × Device) (t : TaskId) : Prop where
  returned : ∀ d d', R d d' → d.Returned d'
  handles : ∀ d d', R d d' → d.queue.SameHandles d'.queue
  serves : start.2.Serves t start.2

/-- From the start of a call to the frame `f`. -/
def Walk (R : Device → Device → Prop) (start : Frame × Device) (f : Frame) (d : Device) : Prop :=
  Relation.ReflTransGen (Advance R) start (f, d)

section
variable {R : Device → Device → Prop} {start : Frame × Device} {f f' : Frame} {d d' : Device}
  {t : TaskId}

theorem Polite.walk (polite : Polite R start t) (walk : Walk R start f d) :
    start.2.Serves t d := by
  unfold Walk at walk
  generalize here : (f, d) = place at walk
  induction walk generalizing f d with
  | refl =>
    subst here
    exact polite.serves
  | tail _ last ih =>
    cases last with
    | others work =>
      cases here
      have before := ih rfl
      have now := polite.returned _ _ work
      exact ⟨now.primask.trans before.primask, now.currentTcb.trans before.currentTcb,
        before.handles.trans (polite.handles _ _ work)⟩
    | access done =>
      cases here
      have before := ih rfl
      have kept := (Frame.access_keeps done).2.2.2
      exact ⟨before.primask, before.currentTcb,
        before.handles.trans ⟨kept.1, kept.2.1, kept.2.2⟩⟩
    | call calls strikes =>
      cases here
      have before := ih rfl
      have control := strikes.control polite.returned
      exact ⟨control.1.trans before.primask, control.2.trans before.currentTcb,
        before.handles.trans (strikes.handles polite.handles)⟩

theorem Walk.stable (d d' : Device) (work : R d d') (walk : Walk R start f d) :
    Walk R start f d' := walk.tail (.others work)

/-- The names of the queue are those that it has had from the start. -/
theorem Device.Serves.call_eq {q : OsMessageQueue} (serves : d.Serves t d')
    (names : d.queue.SameHandles q) (f : Frame) : f.call d'.queue = f.call q :=
  Frame.call_congr (serves.handles.lock.trans names.lock.symm)
    (serves.handles.emptySlots.trans names.emptySlots.symm)
    (serves.handles.filledSlots.trans names.filledSlots.symm) f

end

namespace Leads

open Routine

section
variable {R : Device → Device → Prop} {start : Frame × Device} {f f' : Frame} {t : TaskId}
  {α : Type} {q : OsMessageQueue} {c : Call}

theorem get_walk {g : Device → α} :
    Leads R (Walk R start f) (get g) fun y d => y = g d ∧ Walk R start f d := by
  apply Triple.bind (preempt Walk.stable)
  intro _
  exact Triple.look fun _ walk => ⟨rfl, walk⟩

/-- An access to the ring. -/
theorem access_walk {g : OsMessageQueue → OsMessageQueue}
    (done : ∀ q, f.access q = some (g q, f')) :
    Leads R (Walk R start f) (assignRing g) fun _ => Walk R start f' := by
  apply Triple.bind (preempt Walk.stable)
  intro _
  apply Triple.write
  · exact fun _ _ => trivial
  · intro d walk
    exact walk.tail (.access (done d.queue))

theorem skipOldest {hadSlot : Bool} :
    Leads R (Walk R start (if hadSlot then .sendUnlock hadSlot else .sendTail))
      (skipOldest hadSlot) fun _ => Walk R start (.sendUnlock hadSlot) := by
  cases hadSlot with
  | true => exact Triple.no (by decide) (Triple.pure fun _ walk => walk)
  | false => exact Triple.yes (by decide) (access_walk fun _ => rfl)

section
variable (polite : Polite R start t)

include polite

/-- The queue, where a name is read from it. -/
theorem queue_walk : Leads R (Walk R start f) (get fun d => d.queue) fun q d =>
    start.2.queue.SameHandles q ∧ Walk R start f d := by
  apply Triple.mono (fun _ walk => walk) get_walk
  rintro q d ⟨rfl, walk⟩
  exact ⟨(polite.walk walk).handles, walk⟩

theorem acquire_walk {p : Routine Code} (names : start.2.queue.SameHandles q)
    (calls : f.call q = some c) (answers : ∀ out k, c.answer out k = .returned (out.code k))
    (strikes : ∀ d, d.kernel.primask = false → d.kernel.currentTcb = some t →
      Leads R (Meanwhile R d) p fun code d' =>
        ∃ out, Strikes R c.exec d out d' ∧ code = out.code d'.kernel) :
    Leads R (Walk R start f) p fun code => Walk R start (f.proceed (.returned code)) := by
  apply Triple.snapshot
  intro d walk
  have now := polite.walk walk
  apply Triple.mono _ (strikes d now.primask now.currentTcb)
  · rintro code d' ⟨out, strikes, rfl⟩
    rw [← answers]
    exact walk.tail (.call ((now.call_eq names f).trans calls) strikes)
  · rintro _ rfl
    exact .refl

theorem release_walk {p : Routine Unit} (names : start.2.queue.SameHandles q)
    (calls : f.call q = some c) (answers : ∀ k, c.answer .finished k = .finished)
    (strikes : ∀ d, d.kernel.primask = false →
      Leads R (Meanwhile R d) p fun _ d' => Strikes R c.exec d .finished d') :
    Leads R (Walk R start f) p fun _ => Walk R start (f.proceed .finished) := by
  apply Triple.snapshot
  intro d walk
  have now := polite.walk walk
  apply Triple.mono _ (strikes d now.primask)
  · intro _ d' strikes
    rw [← answers d'.kernel]
    exact walk.tail (.call ((now.call_eq names f).trans calls) strikes)
  · rintro _ rfl
    exact .refl

theorem lock_walk {timeout : UInt32} (names : start.2.queue.SameHandles q)
    (calls : f.call q = some (.mutexAcquire q.lock timeout)) :
    Leads R (Walk R start f) (Routine.osMutexAcquire q.lock timeout)
      fun code => Walk R start (f.proceed (.returned code)) :=
  acquire_walk polite names calls (fun _ _ => rfl) fun _ => osMutexAcquire polite.returned

theorem take_walk {x : Nat} {timeout : UInt32} (names : start.2.queue.SameHandles q)
    (calls : f.call q = some (.semaphoreAcquire x timeout)) :
    Leads R (Walk R start f) (Routine.osSemaphoreAcquire x timeout)
      fun code => Walk R start (f.proceed (.returned code)) :=
  acquire_walk polite names calls (fun _ _ => rfl) fun _ => osSemaphoreAcquire polite.returned

theorem unlock_walk (names : start.2.queue.SameHandles q)
    (calls : f.call q = some (.mutexRelease q.lock)) :
    Leads R (Walk R start f) (Routine.osMutexRelease q.lock)
      fun _ => Walk R start (f.proceed .finished) :=
  release_walk polite names calls (fun _ => rfl) fun _ => osMutexRelease polite.returned

theorem post_walk {x : Nat} (names : start.2.queue.SameHandles q)
    (calls : f.call q = some (.semaphoreRelease x)) :
    Leads R (Walk R start f) (Routine.osSemaphoreRelease x)
      fun _ => Walk R start (f.proceed .finished) :=
  release_walk polite names calls (fun _ => rfl) fun _ => osSemaphoreRelease polite.returned

/-! ### `os_queue_send` -/

theorem giveBack {hadSlot : Bool} :
    Leads R (Walk R start (if hadSlot then .sendGiveBack else .returning (.sent .fail)))
      (giveBack hadSlot) fun _ => Walk R start (.returning (.sent .fail)) := by
  apply Triple.bind (queue_walk polite)
  intro q
  apply Triple.fact
  intro names
  cases hadSlot with
  | true => exact Triple.yes rfl (post_walk polite names rfl)
  | false => exact Triple.no (by decide) (Triple.pure fun _ walk => walk)

theorem postFilled {hadSlot : Bool} :
    Leads R (Walk R start (if hadSlot then .sendPost else .returning (.sent .success)))
      (postFilled hadSlot) fun _ => Walk R start (.returning (.sent .success)) := by
  apply Triple.bind (queue_walk polite)
  intro q
  apply Triple.fact
  intro names
  cases hadSlot with
  | true => exact Triple.yes rfl (post_walk polite names rfl)
  | false => exact Triple.no (by decide) (Triple.pure fun _ walk => walk)

theorem sendWrite {message : UInt32} {hadSlot : Bool} :
    Leads R (Walk R start (.sendWrite message hadSlot)) (sendWrite message hadSlot)
      fun code => Walk R start (.returning (.sent code)) := by
  apply Triple.bind (access_walk fun _ => rfl)
  intro _
  apply Triple.bind (access_walk fun _ => rfl)
  intro _
  apply Triple.bind skipOldest
  intro _
  apply Triple.bind (queue_walk polite)
  intro q
  apply Triple.fact
  intro names
  apply Triple.bind (unlock_walk polite names rfl)
  intro _
  apply Triple.bind (postFilled polite)
  intro _
  exact Triple.pure fun _ walk => walk

theorem sendLock {message : UInt32} {hadSlot : Bool} :
    Leads R (Walk R start (.sendLock message hadSlot)) (sendLock message hadSlot)
      fun code => Walk R start (.returning (.sent code)) := by
  apply Triple.bind (queue_walk polite)
  intro q
  apply Triple.fact
  intro names
  apply Triple.bind (lock_walk polite names rfl)
  intro code
  by_cases locked : code = .success
  · subst locked
    exact Triple.no (by decide) (sendWrite polite)
  · have refused : (Frame.sendLock message hadSlot).proceed (.returned code) =
        if hadSlot then .sendGiveBack else .returning (.sent .fail) := by
      simp [Frame.proceed, locked]
    rw [refused]
    apply Triple.yes locked
    apply Triple.bind (giveBack polite)
    intro _
    exact Triple.pure fun _ walk => walk

theorem osQueueSend {message timeout : UInt32} :
    Leads R (Walk R start (.sendSlot message timeout)) (osQueueSend message timeout)
      fun code => Walk R start (.returning (.sent code)) := by
  apply Triple.bind (queue_walk polite)
  intro q
  apply Triple.fact
  intro names
  apply Triple.bind (take_walk polite names rfl)
  intro code
  have had : (Frame.sendSlot message timeout).proceed (.returned code) =
      .sendLock message (code = .success) := by simp [Frame.proceed]
  rw [had]
  exact sendLock polite

/-! ### `os_queue_receive` -/

theorem receiveRead : Leads R (Walk R start .receiveRead) receiveRead
    fun out => Walk R start (.returning (asReply out)) := by
  have reads : Leads R (Walk R start .receiveRead) (get fun d => d.queue.buffer d.queue.tail)
      fun message => Walk R start (.receiveTail message) := by
    apply Triple.mono (fun _ walk => walk) get_walk
    rintro message d ⟨rfl, walk⟩
    exact walk.tail (.access rfl)
  apply Triple.bind reads
  intro message
  apply Triple.bind (access_walk fun _ => rfl)
  intro _
  apply Triple.bind (queue_walk polite)
  intro q
  apply Triple.fact
  intro names
  apply Triple.bind (unlock_walk polite names rfl)
  intro _
  apply Triple.bind (queue_walk polite)
  intro q'
  apply Triple.fact
  intro names'
  apply Triple.bind (post_walk polite names' rfl)
  intro _
  exact Triple.pure fun _ walk => walk

theorem receiveLock : Leads R (Walk R start .receiveLock) receiveLock
    fun out => Walk R start (.returning (asReply out)) := by
  apply Triple.bind (queue_walk polite)
  intro q
  apply Triple.fact
  intro names
  apply Triple.bind (lock_walk polite names rfl)
  intro code
  by_cases locked : code = .success
  · subst locked
    exact Triple.no (by decide) (receiveRead polite)
  · have refused : Frame.receiveLock.proceed (.returned code) = .receiveGiveBack := by
      simp [Frame.proceed, locked]
    rw [refused]
    apply Triple.yes locked
    apply Triple.bind (queue_walk polite)
    intro q'
    apply Triple.fact
    intro names'
    apply Triple.bind (post_walk polite names' rfl)
    intro _
    exact Triple.pure fun _ walk => walk

theorem osQueueReceive {timeout : UInt32} :
    Leads R (Walk R start (.receiveSlot timeout)) (osQueueReceive timeout)
      fun out => Walk R start (.returning (asReply out)) := by
  apply Triple.bind (queue_walk polite)
  intro q
  apply Triple.fact
  intro names
  apply Triple.bind (take_walk polite names rfl)
  intro code
  by_cases got : code = .success
  · subst got
    exact Triple.no (by decide) (receiveLock polite)
  · have missed : (Frame.receiveSlot timeout).proceed (.returned code) =
        .returning (.missed .timeout) := by simp [Frame.proceed, got]
    rw [missed]
    exact Triple.yes got (Triple.pure fun _ walk => walk)

theorem operation (op : Operation) : Leads R (Walk R start op.start) op.routine
    fun reply => Walk R start (.returning reply) := by
  cases op with
  | send message timeout =>
    apply Triple.bind (osQueueSend polite)
    intro code
    exact Triple.pure fun _ walk => walk
  | receive timeout =>
    apply Triple.bind (osQueueReceive polite)
    intro out
    obtain ⟨code, message⟩ := out
    cases message with
    | none => exact Triple.pure fun _ walk => walk
    | some message => exact Triple.pure fun _ walk => walk

end
end
end Leads

/-- **Every queue call is a walk through its frames.** Let interrupts and other tasks come in
between any two statements. From its entry to its return the call makes one access to the ring or
one atomic kernel call at a time, those that the frames of the queue model say, and its reply is
the one they end in. -/
theorem queue_calls_interleave (op : Operation) {others : Others Device}
    {w w' : World Device Target} {t : TaskId} {reply : Reply}
    (keeps : ∀ n (d : Device), d.Returned (others n d))
    (fixed : ∀ n (d : Device), d.queue.SameHandles (others n d).queue)
    (unmasked : w.state.kernel.primask = false) (here : w.state.kernel.currentTcb = some t)
    (returns : op.routine others w = some (reply, w')) :
    Relation.ReflTransGen (Advance fun d d' => ∃ n, d' = others n d) (op.start, w.state)
      (.returning reply, w'.state) := by
  have polite : Polite (fun d d' => ∃ n, d' = others n d) (op.start, w.state) t := by
    refine ⟨?_, ?_, unmasked, here, ⟨rfl, rfl, rfl⟩⟩
    · rintro d _ ⟨n, rfl⟩
      exact keeps n d
    · rintro d _ ⟨n, rfl⟩
      exact fixed n d
  have leads := Leads.operation polite op
  exact (leads others (fun n d => ⟨n, rfl⟩) w reply w' returns .refl).1

/-- A message that another task sends, the first time that it comes in. -/
def arriving : Others Device := fun n d =>
  if n = 0 then
    { d with
      kernel := d.kernel.setSemaphore 1 ⟨1, 2⟩
      queue := { d.queue with buffer := Function.update d.queue.buffer 0 42, head := 1 } }
  else d

/-- A poll of an empty queue receives a message that has come after its entry. -/
theorem queue_calls_interleave_arriving : ∃ w',
    (Operation.receive 0).routine arriving ⟨launchedBench, [], 0⟩ = some (.received 42, w') ∧
    Relation.ReflTransGen (Advance fun d d' => ∃ n, d' = arriving n d)
      ((Operation.receive 0).start, launchedBench) (.returning (.received 42), w'.state) := by
  have receives : ((Operation.receive 0).routine arriving ⟨launchedBench, [], 0⟩).map
      Prod.fst = some (.received 42) := by decide +kernel
  obtain ⟨⟨reply, w'⟩, returns, rfl⟩ := Option.map_eq_some_iff.mp receives
  have keeps : ∀ n (d : Device), d.Returned (arriving n d) := by
    intro n d
    unfold arriving
    split <;> exact ⟨rfl, rfl, rfl⟩
  have fixed : ∀ n (d : Device), d.queue.SameHandles (arriving n d).queue := by
    intro n d
    unfold arriving
    split <;> exact ⟨rfl, rfl, rfl⟩
  have here : launchedBench.kernel.currentTcb = some 0 := by decide
  exact ⟨w', returns, queue_calls_interleave _ keeps fixed rfl here returns⟩

end Sentinel
