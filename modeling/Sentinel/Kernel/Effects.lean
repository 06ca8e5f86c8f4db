import Sentinel.Kernel.Soundness

/-! What one step can do to a task that waits, and to the mutexes. Every later
invariant about waiting, ownership or priority is kept for these reasons. -/

namespace Sentinel

namespace Board

/-- The step gives `o` away: a release of the mutex makes `t` its owner, or a post
leaves `t` its token. -/
def Serves (b : Board) (e : Event) (d : Board) (t : TaskId) : Waitable → Prop
  | .mutex m => ∃ u, e = .call u (.mutexRelease m) .finished ∧ b.Runs u ∧ b.inside u = none ∧
      (d.mutexes m).owner = some t
  | .semaphore x => b.Posts e x ∧ b.first (.semaphore x) = some t

/-- The wait of `t` in the call `c` is over, and `c` has not returned yet. -/
structure Woken (b : Board) (t : TaskId) (c : Call) : Prop where
  inside : b.inside t = some c
  off : (b.tcb t).waitQueue = none

/-- How a task comes to be woken. -/
inductive Wakes (b : Board) (e : Event) (d : Board) (t : TaskId) (c : Call) (o : Waitable) : Prop
  | before (woken : b.Woken t c) (kept : (d.tcb t).waitResult = (b.tcb t).waitResult)
  | served (queued : t ∈ b.waiters o) (inside : b.inside t = some c)
      (result : (d.tcb t).waitResult = .success) (serves : b.Serves e d t o)
  | expired (queued : t ∈ b.waiters o) (inside : b.inside t = some c)
      (result : (d.tcb t).waitResult = .timeout) (tick : e = .tick) (due : b.Due t)

section
variable (b : Board) (m : Nat) (t : TaskId)

@[simp] theorem settle_taskCount : (b.settle m).taskCount = b.taskCount := by
  unfold settle
  split <;> rfl

@[simp] theorem settle_semaphores : (b.settle m).semaphores = b.semaphores := by
  unfold settle
  split <;> rfl

@[simp] theorem settle_inside : (b.settle m).inside = b.inside := by
  unfold settle
  split <;> rfl

theorem settle_tcb : (b.settle m).tcb t = { b.tcb t with
    currentPriority := if (b.mutexes m).owner = some t then (b.tcb t).basePriority
      else b.priority t } := by
  unfold settle
  split
  · rename_i owner held
    by_cases self : t = owner
    · simp [self, held]
    · simp [self, held, Ne.symm self]
  · rename_i nobody
    simp [nobody]

end

/-- A task has one call to wait in, so it waits on the object of that call. -/
theorem Sound.waits {idle : TaskId} {b : Board} (sound : b.Sound idle) {t : TaskId} {c : Call}
    {o p : Waitable} (queued : t ∈ b.waiters p) (inside : b.inside t = some c)
    (on : c.waitsOn = some o) : p = o := by
  obtain ⟨live, off⟩ := sound.queued p t queued
  obtain ⟨c', inside', on'⟩ := sound.waiting t p live off
  obtain rfl : c = c' := Option.some.inj (inside.symm.trans inside')
  exact Option.some.inj (on'.symm.trans on)

theorem Sound.owner_of_opened {idle : TaskId} {b : Board} (sound : b.Sound idle) {m : Nat}
    (opened : (b.mutexes m).lock = 0) : (b.mutexes m).owner = none := by
  rcases sound.locked m with unlocked | locked
  · rw [unlocked]
  · omega

theorem Wakes.of_grant {idle : TaskId} {b d : Board} (sound : b.Sound idle) {e : Event}
    {t next : TaskId} {c : Call} {o p : Waitable} (woken : d.Woken t c) (on : c.waitsOn = some o)
    (queued : next ∈ b.waiters p) (serves : b.Serves e d next p) (inside : d.inside = b.inside)
    (result : (d.tcb next).waitResult = .success)
    (others : t ≠ next → (d.tcb t).waitQueue = (b.tcb t).waitQueue ∧
      (d.tcb t).waitResult = (b.tcb t).waitResult) : b.Wakes e d t c o := by
  have here : b.inside t = some c := inside ▸ woken.inside
  by_cases self : t = next
  · subst self
    obtain rfl := sound.waits queued here on
    exact .served queued here result serves
  · obtain ⟨off, kept⟩ := others self
    exact .before ⟨here, off ▸ woken.off⟩ kept

end Board

open Board in
/-- A task found woken after a step was so before, or was served, or ran out of time. -/
theorem BoardStep.wakes {idle : TaskId} {b d : Board} {e : Event} (h : BoardStep idle b e d)
    (sound : b.Sound idle) {t : TaskId} {c : Call} {o : Waitable} (on : c.waitsOn = some o)
    (woken : d.Woken t c) : b.Wakes e d t c o := by
  cases h with
  | lock | reenter | pollMutex | take | pollSemaphore | put | drop | noSleep =>
    exact .before ⟨woken.inside, woken.off⟩ rfl
  | @waitMutex u m n owner runs free locked held other patient awake =>
    have self : t ≠ u := fun same => by simpa [park, same] using woken.off
    have inside : b.inside t = some c := by simpa [park, lend, self] using woken.inside
    by_cases lent : t = owner
    · subst lent
      exact .before ⟨inside, by simpa [park, lend, self] using woken.off⟩ (by simp [park, lend, self])
    · exact .before ⟨inside, by simpa [park, lend, self, lent] using woken.off⟩
        (by simp [park, lend, self, lent])
  | @unlock u m runs free nobody =>
    exact .before ⟨by simpa [setMutex] using woken.inside,
      by simpa [setMutex, settle_tcb] using woken.off⟩ (by simp [setMutex, settle_tcb])
  | @handOver u m next runs free found =>
    have queued : next ∈ b.waiters (.mutex m) := by simpa using mem_of_first found
    refine .of_grant sound woken on queued ⟨u, rfl, runs, free, by simp [grant, setMutex]⟩
      (by simp [grant, setMutex]) (by simp [grant]) fun self => ?_
    simp [grant, setMutex, settle_tcb, self]
  | @waitSemaphore u x n runs free empty patient awake =>
    have self : t ≠ u := fun same => by simpa [park, same] using woken.off
    exact .before ⟨by simpa [park, self] using woken.inside,
      by simpa [park, self] using woken.off⟩ (by simp [park, self])
  | @hand e x next posts found =>
    refine .of_grant sound woken on (mem_of_first found) ⟨posts, found⟩ rfl (by simp [grant])
      fun self => ?_
    simp [grant, self]
  | @sleep u ms runs free patient awake =>
    by_cases self : t = u
    · have : c = .delay ms := by simpa [Board.sleep, self, eq_comm] using woken.inside
      simp [this, Call.waitsOn] at on
    · exact .before ⟨by simpa [Board.sleep, self] using woken.inside,
        by simpa [Board.sleep, self] using woken.off⟩ (by simp [Board.sleep, self])
  | @resume u c' runs parked =>
    have self : t ≠ u := fun same => by simpa [same] using woken.inside
    exact .before ⟨by simpa [self] using woken.inside, woken.off⟩ rfl
  | tick =>
    have inside : b.inside t = some c := woken.inside
    have live := sound.callers t (by simp [inside])
    have block : b.tick.tcb t = elapse (b.tcb t) := by simp [Board.tick, live]
    have off := woken.off
    rw [block] at off
    cases on' : (b.tcb t).waitQueue with
    | none => exact .before ⟨inside, on'⟩ (by simp [block, on'])
    | some p =>
      have queued := sound.parked p t live on'
      obtain rfl := sound.waits queued inside on
      have timer : (b.tcb t).sleepTime = 1 := by
        by_contra other
        simp [other, on'] at off
      exact .expired queued inside (by simp [block, timer, on']) rfl ⟨live, timer⟩
  | @pass best picks =>
    exact .before ⟨woken.inside, by simpa [dispatch_tcb] using woken.off⟩ (by simp [dispatch_tcb])

/-- Only a task in no call makes one. -/
theorem BoardStep.of_call {idle : TaskId} {b d : Board} {t : TaskId} {c : Call} {out : Outcome}
    (h : BoardStep idle b (.call t c out) d) : b.Runs t ∧ b.inside t = none := by
  cases h with
  | hand posts | put posts | drop posts =>
    rcases posts with posts | ⟨u, same, runs, free⟩
    · cases posts
    · cases same
      exact ⟨runs, free⟩
  | lock runs free | reenter runs free | pollMutex runs free | waitMutex runs free
    | unlock runs free | handOver runs free | take runs free | pollSemaphore runs free
    | waitSemaphore runs free | sleep runs free | noSleep runs free => exact ⟨runs, free⟩

/-- A return after a wait hands back what the wait left. -/
theorem BoardStep.of_resume {idle : TaskId} {b d : Board} {t : TaskId} {c : Call} {out : Outcome}
    (h : BoardStep idle b (.resume t c out) d) : b.Runs t ∧ b.inside t = some c ∧
      out = c.result (b.tcb t) ∧ d = { b with inside := Function.update b.inside t none } := by
  cases h with
  | hand posts | put posts | drop posts => rcases posts with posts | ⟨_, posts, _⟩ <;> cases posts
  | resume runs parked => exact ⟨runs, parked, rfl, rfl⟩

/-- A pass dispatches the task that the scheduler picks. -/
theorem BoardStep.of_pass {idle : TaskId} {b d : Board} (h : BoardStep idle b .pass d) :
    ∃ best, b.Picks best ∧ d = b.dispatch best := by
  cases h with
  | hand posts | put posts | drop posts => rcases posts with posts | ⟨_, posts, _⟩ <;> cases posts
  | pass picks => exact ⟨_, picks, rfl⟩

/-- The task that returns from a wait had been woken. -/
theorem BoardStep.woken_of_resume {idle : TaskId} {b d : Board} {t : TaskId} {c : Call}
    {out : Outcome} (h : BoardStep idle b (.resume t c out) d) (sound : b.Sound idle) :
    b.Woken t c :=
  ⟨h.of_resume.2.1, (sound.runs_apart h.of_resume.1).1⟩

/-- A task is in a call because it was in it before, or has just been parked in it. -/
theorem BoardStep.of_inside {idle : TaskId} {b d : Board} {e : Event} (h : BoardStep idle b e d)
    {t : TaskId} {c : Call} (inside : d.inside t = some c) :
    b.inside t = some c ∨ e = .call t c .parked := by
  cases h with
  | @waitMutex u m n owner | @waitSemaphore u x n | @sleep u ms =>
    by_cases self : t = u
    · subst self
      simp only [Board.park, Board.sleep, Function.update_self, Option.some.injEq] at inside
      exact .inr (by rw [inside])
    · exact .inl (by simpa [Board.park, Board.lend, Board.sleep, self] using inside)
  | @resume u c' runs parked =>
    have self : t ≠ u := fun same => by simp [same] at inside
    exact .inl (by simpa [self] using inside)
  | unlock => exact .inl (by simpa [Board.setMutex] using inside)
  | handOver => exact .inl (by simpa [Board.setMutex, Board.grant] using inside)
  | lock | reenter | pollMutex | take | pollSemaphore | hand | put | drop | noSleep | tick | pass =>
    exact .inl inside

open Board in
/-- A task stays in its call until it returns from it. -/
theorem BoardStep.inside_kept {idle : TaskId} {b d : Board} {e : Event} (h : BoardStep idle b e d)
    {t : TaskId} {c : Call} (inside : b.inside t = some c)
    (silent : ∀ c out, e ≠ .resume t c out) : d.inside t = some c := by
  have busy : ∀ u, b.inside u = none → t ≠ u := fun u free same => by simp [same, free] at inside
  cases h with
  | waitMutex _ free | waitSemaphore _ free | sleep _ free =>
    simpa [park, lend, Board.sleep, busy _ free] using inside
  | unlock | handOver => simpa [setMutex, grant] using inside
  | @resume u c' =>
    have self : t ≠ u := fun same => silent _ _ (by rw [same])
    simpa [self] using inside
  | lock | reenter | pollMutex | take | pollSemaphore | hand | put | drop | noSleep | tick | pass =>
    exact inside

open Board in
/-- A woken task stays woken, with the result it has, until it returns. -/
theorem BoardStep.keeps_woken {idle : TaskId} {b d : Board} {e : Event} (h : BoardStep idle b e d)
    (sound : b.Sound idle) {t : TaskId} {c : Call} {o : Waitable} (on : c.waitsOn = some o)
    (woken : b.Woken t c) (silent : ∀ c out, e ≠ .resume t c out) :
    d.Woken t c ∧ (d.tcb t).waitResult = (b.tcb t).waitResult := by
  have stays : d.Woken t c := by
    have ⟨inside, off⟩ := woken
    refine ⟨h.inside_kept inside silent, ?_⟩
    have busy : ∀ u, b.inside u = none → t ≠ u := fun u free same => by simp [same, free] at inside
    cases h with
    | lock | reenter | pollMutex | take | pollSemaphore | put | drop | noSleep | resume => exact off
    | @waitMutex u m n owner _ free =>
      by_cases lent : t = owner
      · subst lent
        simpa [park, lend, busy u free] using off
      · simpa [park, lend, busy u free, lent] using off
    | waitSemaphore _ free | sleep _ free => simpa [park, Board.sleep, busy _ free] using off
    | unlock => simpa [setMutex, settle_tcb] using off
    | @handOver u m next =>
      by_cases self : t = next
      · simp [grant, self]
      · simpa [grant, setMutex, settle_tcb, self] using off
    | @hand e x next =>
      by_cases self : t = next
      · simp [grant, self]
      · simpa [grant, self] using off
    | tick =>
      have live := sound.callers t (by simp [inside])
      simp [Board.tick, live, off]
    | pass => simpa [dispatch_tcb] using off
  refine ⟨stays, ?_⟩
  cases h.wakes sound on stays with
  | before _ kept => exact kept
  | served queued | expired queued =>
    have := (sound.queued _ _ queued).2
    simp [woken.off] at this

/-- A waiting task that leaves its queue is woken. -/
theorem BoardStep.woken_of_left {idle : TaskId} {b d : Board} {e : Event}
    (h : BoardStep idle b e d) (sound : b.Sound idle) {t : TaskId} {o : Waitable}
    (queued : t ∈ b.waiters o) (left : t ∉ d.waiters o) :
    ∃ c, c.waitsOn = some o ∧ d.Woken t c := by
  have after := h.sound sound
  obtain ⟨live, on'⟩ := sound.queued o t queued
  obtain ⟨c, inside, on⟩ := sound.waiting t o live on'
  have inside' : d.inside t = some c := h.inside_kept inside fun c' out event => by
    subst event
    exact (sound.runs_apart h.of_resume.1).2.2 o queued
  refine ⟨c, on, inside', ?_⟩
  cases off : (d.tcb t).waitQueue with
  | none => rfl
  | some p =>
    have there := after.parked p t (after.callers t (by simp [inside'])) off
    exact absurd (after.waits there inside' on ▸ there) left

/-- What a step can do to one mutex. -/
inductive MutexEffect (m : Nat) (b : Board) (e : Event) (d : Board) : Prop
  | kept (same : d.mutexes m = b.mutexes m) (unreleased : ∀ t out, e ≠ .call t (.mutexRelease m) out)
      (untaken : ∀ t n, e ≠ .call t (.mutexAcquire m n) (.returned .success))
  | locked (t : TaskId) (n : UInt32) (event : e = .call t (.mutexAcquire m n) (.returned .success))
      (runs : b.Runs t) (free : b.inside t = none) (opened : (b.mutexes m).lock = 0)
      (after : d.mutexes m = ⟨1, some t⟩)
  | unlocked (t : TaskId) (event : e = .call t (.mutexRelease m) .finished) (runs : b.Runs t)
      (free : b.inside t = none) (nobody : b.waiters (.mutex m) = []) (after : d.mutexes m = ⟨0, none⟩)
  | handed (t next : TaskId) (event : e = .call t (.mutexRelease m) .finished) (runs : b.Runs t)
      (free : b.inside t = none) (queued : next ∈ b.waiters (.mutex m))
      (after : d.mutexes m = ⟨(b.mutexes m).lock, some next⟩)

open Board in
theorem BoardStep.mutexEffect {idle : TaskId} {b d : Board} {e : Event} (h : BoardStep idle b e d)
    (m : Nat) : MutexEffect m b e d := by
  cases h with
  | @lock t m' n runs free opened =>
    by_cases here : m' = m
    · subst here
      exact .locked t n rfl runs free opened (by simp [setMutex])
    · exact .kept (by simp [setMutex, Ne.symm here]) (by simp) (by simp [here])
  | @unlock t m' runs free nobody =>
    by_cases here : m' = m
    · subst here
      exact .unlocked t rfl runs free nobody (by simp [setMutex])
    · exact .kept (by simp [setMutex, Ne.symm here]) (by simp [here]) (by simp)
  | @handOver t m' next runs free found =>
    by_cases here : m' = m
    · subst here
      exact .handed t next rfl runs free (by simpa using mem_of_first found)
        (by simp [setMutex, grant])
    · exact .kept (by simp [setMutex, grant, Ne.symm here]) (by simp [here]) (by simp)
  | hand posts | put posts | drop posts =>
    rcases posts with rfl | ⟨t, rfl, _⟩ <;> exact .kept rfl (by simp) (by simp)
  | reenter | pollMutex | waitMutex | take | pollSemaphore | waitSemaphore | sleep | noSleep
    | resume | tick | pass => exact .kept rfl (by simp) (by simp)

/-- The event releases semaphore `x`, from a task or from an interrupt. -/
def Event.releases (x : Nat) : Event → Bool
  | .call _ (.semaphoreRelease z) _ | .post z => z = x
  | _ => false

/-- What a step can do to one semaphore. -/
inductive SemaphoreEffect (x : Nat) (b : Board) (e : Event) (d : Board) : Prop
  | kept (quiet : e.releases x = false)
      (untaken : ∀ t n, e ≠ .call t (.semaphoreAcquire x n) (.returned .success))
      (same : d.semaphores x = b.semaphores x)
      (queue : (b.semaphores x).count = 0 ∨ ∀ t ∈ d.waiters (.semaphore x), t ∈ b.waiters (.semaphore x))
  | taken (t : TaskId) (n : UInt32) (event : e = .call t (.semaphoreAcquire x n) (.returned .success))
      (token : 0 < (b.semaphores x).count)
      (after : d.semaphores x = ⟨(b.semaphores x).count - 1, (b.semaphores x).maxCount⟩)
      (queue : d.waiters = b.waiters)
  | handed (next : TaskId) (release : e.releases x) (first : b.first (.semaphore x) = some next)
      (same : d.semaphores x = b.semaphores x)
      (queue : d.waiters (.semaphore x) = (b.waiters (.semaphore x)).erase next)
  | posted (release : e.releases x) (nobody : b.waiters (.semaphore x) = [])
      (room : (b.semaphores x).count < (b.semaphores x).maxCount)
      (after : d.semaphores x = ⟨(b.semaphores x).count + 1, (b.semaphores x).maxCount⟩)
      (queue : d.waiters = b.waiters)
  | dropped (release : e.releases x) (nobody : b.waiters (.semaphore x) = [])
      (full : (b.semaphores x).maxCount ≤ (b.semaphores x).count)
      (same : d.semaphores x = b.semaphores x) (queue : d.waiters = b.waiters)

theorem Board.Posts.releases {b : Board} {e : Event} {x : Nat} (posts : b.Posts e x) (z : Nat) :
    e.releases z = decide (x = z) := by
  rcases posts with rfl | ⟨t, rfl, _⟩ <;> rfl

theorem Board.Posts.untaken {b : Board} {e : Event} {x : Nat} (posts : b.Posts e x) (z : Nat)
    (t : TaskId) (n : UInt32) : e ≠ .call t (.semaphoreAcquire z n) (.returned .success) := by
  rcases posts with rfl | ⟨u, rfl, _⟩ <;> simp

open Board in
theorem BoardStep.semaphoreEffect {idle : TaskId} {b d : Board} {e : Event}
    (h : BoardStep idle b e d) (x : Nat) : SemaphoreEffect x b e d := by
  cases h with
  | lock | reenter | pollMutex | pollSemaphore | sleep | noSleep | resume | pass =>
    exact .kept rfl (by simp) rfl (.inr fun _ h => h)
  | waitMutex =>
    exact .kept rfl (by simp) rfl (.inr fun _ h => by simpa [park, lend] using h)
  | unlock =>
    exact .kept rfl (by simp) (by simp [setMutex]) (.inr fun _ h => by simpa [setMutex] using h)
  | handOver =>
    exact .kept rfl (by simp) (by simp [setMutex, grant])
      (.inr fun _ h => List.mem_of_mem_erase (by simpa [setMutex, grant] using h))
  | tick => exact .kept rfl (by simp) rfl (.inr fun _ h => List.mem_of_mem_filter h)
  | @take t z n runs free token =>
    by_cases here : z = x
    · subst here
      exact .taken t n rfl token (by simp [setCount]) rfl
    · exact .kept rfl (by simp [here]) (by simp [setCount, Ne.symm here]) (.inr fun _ h => h)
  | @waitSemaphore t z n runs free empty =>
    by_cases here : z = x
    · subst here
      exact .kept rfl (by simp) rfl (.inl empty)
    · exact .kept rfl (by simp) rfl (.inr fun _ h => by simpa [park, Ne.symm here] using h)
  | @hand e z next posts found =>
    by_cases here : z = x
    · subst here
      exact .handed next (by simp [posts.releases]) found rfl rfl
    · exact .kept (by simp [posts.releases, here]) (posts.untaken x) rfl
        (.inr fun _ h => List.mem_of_mem_erase h)
  | @put e z posts nobody room =>
    by_cases here : z = x
    · subst here
      exact .posted (by simp [posts.releases]) nobody room (by simp [setCount]) rfl
    · exact .kept (by simp [posts.releases, here]) (posts.untaken x)
        (by simp [setCount, Ne.symm here]) (.inr fun _ h => h)
  | @drop e z posts nobody full =>
    by_cases here : z = x
    · subst here
      exact .dropped (by simp [posts.releases]) nobody full rfl rfl
    · exact .kept (by simp [posts.releases, here]) (posts.untaken x) rfl (.inr fun _ h => h)

/-- What a step can do to the priorities, the owners and the queues of the mutexes. -/
inductive PriorityEffect (b : Board) (e : Event) (d : Board) : Prop
  | still (untimed : e ≠ .tick) (unreleased : ∀ t m out, e ≠ .call t (.mutexRelease m) out)
      (priority : d.priority = b.priority) (mutexes : d.mutexes = b.mutexes)
      (queues : ∀ m, d.waiters (.mutex m) = b.waiters (.mutex m))
  | ticked (event : e = .tick) (priority : d.priority = b.priority) (mutexes : d.mutexes = b.mutexes)
      (queues : ∀ m, d.waiters (.mutex m) = (b.waiters (.mutex m)).filter fun t => ¬ b.Due t)
  | locked (m : Nat) (t : TaskId) (n : UInt32)
      (event : e = .call t (.mutexAcquire m n) (.returned .success))
      (opened : (b.mutexes m).lock = 0) (runs : b.Runs t) (priority : d.priority = b.priority)
      (mutexes : d.mutexes = Function.update b.mutexes m ⟨1, some t⟩)
      (queues : ∀ m, d.waiters (.mutex m) = b.waiters (.mutex m))
  | waited (m : Nat) (t : TaskId) (n : UInt32) (owner : TaskId)
      (event : e = .call t (.mutexAcquire m n) .parked) (runs : b.Runs t)
      (held : (b.mutexes m).owner = some owner) (other : owner ≠ t)
      (priority : d.priority =
        Function.update b.priority owner (max (b.priority owner) (b.priority t)))
      (mutexes : d.mutexes = b.mutexes)
      (queues : ∀ m', d.waiters (.mutex m') =
        if m' = m then b.waiters (.mutex m) ++ [t] else b.waiters (.mutex m'))
  | unlocked (m : Nat) (t : TaskId) (event : e = .call t (.mutexRelease m) .finished)
      (runs : b.Runs t) (nobody : b.waiters (.mutex m) = [])
      (priority : d.priority = (b.settle m).priority)
      (mutexes : d.mutexes = Function.update b.mutexes m ⟨0, none⟩)
      (queues : ∀ m, d.waiters (.mutex m) = b.waiters (.mutex m))
  | handed (m : Nat) (t next : TaskId) (event : e = .call t (.mutexRelease m) .finished)
      (runs : b.Runs t) (first : (b.settle m).first (.mutex m) = some next)
      (priority : d.priority = (b.settle m).priority)
      (mutexes : d.mutexes = Function.update b.mutexes m ⟨(b.mutexes m).lock, some next⟩)
      (queues : ∀ m, d.waiters (.mutex m) = (b.waiters (.mutex m)).erase next)

namespace Board

/-- A field that an update leaves alone. -/
theorem field_update {β : Type} (g : Tcb → β) (f : TaskId → Tcb) (t u : TaskId) (x : Tcb)
    (same : g x = g (f t)) : g (Function.update f t x u) = g (f u) := by
  by_cases self : u = t
  · subst self
    simpa using same
  · simp [self]

@[simp] theorem park_priority (b : Board) (t : TaskId) (o : Waitable) (n : UInt32) (c : Call) :
    (b.park t o n c).priority = b.priority :=
  funext fun u => field_update Tcb.currentPriority b.tcb t u _ rfl

@[simp] theorem grant_priority (b : Board) (t : TaskId) : (b.grant t).priority = b.priority :=
  funext fun u => field_update Tcb.currentPriority b.tcb t u _ rfl

@[simp] theorem sleep_priority (b : Board) (t : TaskId) (n : UInt32) (c : Call) :
    (b.sleep t n c).priority = b.priority :=
  funext fun u => field_update Tcb.currentPriority b.tcb t u _ rfl

@[simp] theorem park_base (b : Board) (t u : TaskId) (o : Waitable) (n : UInt32) (c : Call) :
    ((b.park t o n c).tcb u).basePriority = (b.tcb u).basePriority :=
  field_update Tcb.basePriority b.tcb t u _ rfl

@[simp] theorem grant_base (b : Board) (t u : TaskId) :
    ((b.grant t).tcb u).basePriority = (b.tcb u).basePriority :=
  field_update Tcb.basePriority b.tcb t u _ rfl

@[simp] theorem sleep_base (b : Board) (t u : TaskId) (n : UInt32) (c : Call) :
    ((b.sleep t n c).tcb u).basePriority = (b.tcb u).basePriority :=
  field_update Tcb.basePriority b.tcb t u _ rfl

@[simp] theorem lend_base (b : Board) (t u caller : TaskId) :
    ((b.lend t caller).tcb u).basePriority = (b.tcb u).basePriority :=
  field_update Tcb.basePriority b.tcb t u _ rfl

@[simp] theorem tick_priority (b : Board) : b.tick.priority = b.priority := by
  funext u
  simp only [priority, Board.tick]
  split <;> simp

@[simp] theorem dispatch_priority (b : Board) (best : TaskId) :
    (b.dispatch best).priority = b.priority := by
  funext u
  simp [priority, dispatch_tcb]

theorem lend_priority (b : Board) (owner caller : TaskId) : (b.lend owner caller).priority =
    Function.update b.priority owner (max (b.priority owner) (b.priority caller)) := by
  funext u
  by_cases self : u = owner
  · subst self
    simp [lend, priority]
  · simp [lend, priority, self]

theorem settle_priority (b : Board) (m : Nat) (t : TaskId) : (b.settle m).priority t =
    if (b.mutexes m).owner = some t then (b.tcb t).basePriority else b.priority t := by
  simp [priority, settle_tcb]

/-- Whoever waits after a task has joined a queue is that task or waited before. -/
theorem mem_of_joined {b d : Board} {m : Nat} {t : TaskId}
    (queues : ∀ m', d.waiters (.mutex m') =
      if m' = m then b.waiters (.mutex m) ++ [t] else b.waiters (.mutex m'))
    {m' : Nat} {w : TaskId} (queued : w ∈ d.waiters (.mutex m')) :
    w ∈ b.waiters (.mutex m') ∨ m' = m ∧ w = t := by
  rw [queues] at queued
  by_cases here : m' = m
  · rw [if_pos here, List.mem_append, List.mem_singleton] at queued
    exact queued.imp (fun old => here ▸ old) fun new => ⟨here, new⟩
  · rw [if_neg here] at queued
    exact .inl queued

/-- Without an owner among them, the waiters are ranked as before the release. -/
theorem first_settle {idle : TaskId} {b : Board} (sound : b.Sound idle) {m : Nat} {next : TaskId}
    (first : (b.settle m).first (.mutex m) = some next) :
    next ∈ b.waiters (.mutex m) ∧
      ∀ w ∈ b.waiters (.mutex m), b.priority w ≤ b.priority next := by
  have queued : next ∈ b.waiters (.mutex m) := by simpa using mem_of_first first
  have same : ∀ w ∈ b.waiters (.mutex m), (b.settle m).priority w = b.priority w := fun w hw => by
    rw [settle_priority, if_neg fun own => (sound.owner m w own).2 hw]
  refine ⟨queued, fun w hw => ?_⟩
  have most : (b.settle m).priority w ≤ (b.settle m).priority next :=
    List.le_of_mem_argmax (by simpa using hw) first
  rwa [same w hw, same next queued] at most

end Board

open Board in
theorem BoardStep.priorityEffect {idle : TaskId} {b d : Board} {e : Event}
    (h : BoardStep idle b e d) (sound : b.Sound idle) : PriorityEffect b e d := by
  cases h with
  | reenter | pollMutex | take | pollSemaphore | noSleep | resume =>
    exact .still (by simp) (by simp) rfl rfl fun _ => rfl
  | put posts | drop posts =>
    rcases posts with rfl | ⟨_, rfl, _⟩ <;> exact .still (by simp) (by simp) rfl rfl fun _ => rfl
  | lock runs free opened =>
    exact .locked _ _ _ rfl opened runs rfl rfl fun _ => rfl
  | @waitMutex t m n owner runs free locked held other =>
    refine .waited m t n owner rfl runs held other ?_ rfl fun m' => ?_
    · rw [park_priority, lend_priority]
    · by_cases here : m' = m
      · simp [park, lend, here]
      · simp [park, lend, here]
  | unlock runs free nobody =>
    exact .unlocked _ _ rfl runs nobody rfl (by simp [setMutex]) fun _ => by simp [setMutex]
  | handOver runs free found =>
    refine .handed _ _ _ rfl runs found ?_ (by simp [grant, setMutex]) fun _ => by
      simp [grant, setMutex]
    rw [grant_priority]
    rfl
  | @waitSemaphore t x n =>
    exact .still (by simp) (by simp) (park_priority _ _ _ _ _) rfl fun _ => by simp [park]
  | @hand e x next posts found =>
    have queue : ∀ m, (b.grant next).waiters (.mutex m) = b.waiters (.mutex m) := fun m =>
      List.erase_of_not_mem fun queued => by
        have here := (sound.queued _ _ (mem_of_first found)).2
        cases here.symm.trans (sound.queued _ _ queued).2
    rcases posts with rfl | ⟨_, rfl, _⟩ <;>
      exact .still (by simp) (by simp) (grant_priority _ _) rfl queue
  | sleep =>
    exact .still (by simp) (by simp) (sleep_priority _ _ _ _) rfl fun _ => rfl
  | tick => exact .ticked rfl (tick_priority _) rfl fun _ => rfl
  | pass => exact .still (by simp) (by simp) (dispatch_priority _ _) rfl fun _ => rfl

open Board in
/-- Base priorities never change, and no task comes or goes. -/
theorem BoardStep.base_kept {idle : TaskId} {b d : Board} {e : Event} (h : BoardStep idle b e d) :
    d.taskCount = b.taskCount ∧ ∀ t, (d.tcb t).basePriority = (b.tcb t).basePriority := by
  cases h with
  | lock | reenter | pollMutex | take | pollSemaphore | put | drop | noSleep | resume =>
    exact ⟨rfl, fun _ => rfl⟩
  | waitMutex | waitSemaphore | hand | sleep => exact ⟨rfl, fun t => by simp⟩
  | unlock => exact ⟨by simp [setMutex], fun t => by simp [setMutex, settle_tcb]⟩
  | handOver => exact ⟨by simp [setMutex, grant], fun t => by simp [setMutex, settle_tcb]⟩
  | tick =>
    refine ⟨rfl, fun t => ?_⟩
    simp only [Board.tick]
    split <;> simp
  | pass => exact ⟨rfl, fun t => by simp [dispatch_tcb]⟩

end Sentinel
