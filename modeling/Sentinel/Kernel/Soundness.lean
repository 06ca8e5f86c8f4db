import Sentinel.Kernel.Board

/-! The invariant that ties the control blocks to the wait queues, and its
preservation by every step of the board. -/

namespace Sentinel

/-- The object on whose queue a call parks its task. -/
def Call.waitsOn : Call → Option Waitable
  | .mutexAcquire m _ => some (.mutex m)
  | .semaphoreAcquire x _ => some (.semaphore x)
  | _ => none

namespace Board

structure Sound (idle : TaskId) (b : Board) : Prop where
  launched : b.launched = true
  current : ∃ c, b.current = some c ∧ b.Live c
  running : ∀ t, b.Live t → (b.tcb t).state = .running → b.current = some t
  active : ∀ t, b.Live t → (b.tcb t).state ≠ .suspended
  pointers : ∀ t, b.Live t → (b.tcb t).waitCount = (b.tcb t).waitQueue
  queued : ∀ o t, t ∈ b.waiters o → b.Live t ∧ (b.tcb t).waitQueue = some o
  parked : ∀ o t, b.Live t → (b.tcb t).waitQueue = some o → t ∈ b.waiters o
  distinct : ∀ o, (b.waiters o).Nodup
  blocked : ∀ t, b.Live t → ((b.tcb t).state = .blocked ↔
    (b.tcb t).sleepTime ≠ 0 ∨ (b.tcb t).waitQueue ≠ none)
  locked : ∀ m, b.mutexes m = ⟨0, none⟩ ∨ (b.mutexes m).lock = 1
  ownerless : ∀ m, (b.mutexes m).owner = none → b.waiters (.mutex m) = []
  owner : ∀ m t, (b.mutexes m).owner = some t → b.Live t ∧ t ∉ b.waiters (.mutex m)
  within : ∀ t, b.Live t → (b.tcb t).state = .blocked → b.inside t ≠ none
  waiting : ∀ t o, b.Live t → (b.tcb t).waitQueue = some o →
    ∃ c, b.inside t = some c ∧ c.waitsOn = some o
  callers : ∀ t, b.inside t ≠ none → b.Live t
  idleAwake : b.Live idle ∧ (b.tcb idle).state ≠ .blocked

/-- What the invariant says of the control block of one task by itself. -/
structure Block (b : Board) (t : TaskId) : Prop where
  running : (b.tcb t).state = .running → b.current = some t
  active : (b.tcb t).state ≠ .suspended
  pointers : (b.tcb t).waitCount = (b.tcb t).waitQueue
  blocked : (b.tcb t).state = .blocked ↔ (b.tcb t).sleepTime ≠ 0 ∨ (b.tcb t).waitQueue ≠ none
  within : (b.tcb t).state = .blocked → b.inside t ≠ none

theorem Block.congr {b c : Board} {t : TaskId} (block : b.Block t) (tcb : c.tcb t = b.tcb t)
    (current : c.current = b.current) (inside : c.inside t = b.inside t) : c.Block t := by
  obtain ⟨running, active, pointers, blocked, within⟩ := block
  constructor <;> rw [tcb]
  · rwa [current]
  · exact active
  · exact pointers
  · exact blocked
  · rwa [inside]

namespace Sound

variable {idle : TaskId} {b : Board}

theorem block (sound : b.Sound idle) {t : TaskId} (live : b.Live t) : b.Block t :=
  ⟨sound.running t live, sound.active t live, sound.pointers t live, sound.blocked t live,
    sound.within t live⟩

theorem runs_live (sound : b.Sound idle) {t : TaskId} (runs : b.Runs t) : b.Live t := by
  obtain ⟨c, hc, live⟩ := sound.current
  have same : t = c := Option.some.inj (runs.1.symm.trans hc)
  exact same ▸ live

/-- A running task is on no queue and has no timer. -/
theorem runs_apart (sound : b.Sound idle) {t : TaskId} (runs : b.Runs t) :
    (b.tcb t).waitQueue = none ∧ (b.tcb t).sleepTime = 0 ∧ ∀ o, t ∉ b.waiters o := by
  have live := sound.runs_live runs
  have awake : ¬ ((b.tcb t).sleepTime ≠ 0 ∨ (b.tcb t).waitQueue ≠ none) := by
    rw [← sound.blocked t live, runs.2]
    decide
  simp only [not_or, ne_eq, not_not] at awake
  refine ⟨awake.2, awake.1, fun o queued => ?_⟩
  have := (sound.queued o t queued).2
  simp [awake.2] at this

/-- Nothing here speaks of priorities, of results, or of the pending switch. -/
theorem congr {c : Board} (sound : b.Sound idle) (frame : c = { b with tcb := c.tcb, switch := c.switch })
    (same : ∀ t, (c.tcb t).state = (b.tcb t).state ∧ (c.tcb t).sleepTime = (b.tcb t).sleepTime ∧
      (c.tcb t).waitQueue = (b.tcb t).waitQueue ∧ (c.tcb t).waitCount = (b.tcb t).waitCount) :
    c.Sound idle := by
  rw [frame]
  constructor <;> simp only [Live, same]
  exacts [sound.launched, sound.current, sound.running, sound.active, sound.pointers, sound.queued, sound.parked,
    sound.distinct, sound.blocked, sound.locked, sound.ownerless, sound.owner, sound.within,
    sound.waiting, sound.callers, sound.idleAwake]

theorem lend (sound : b.Sound idle) (owner caller : TaskId) : (b.lend owner caller).Sound idle := by
  apply sound.congr rfl
  intro t
  by_cases h : t = owner
  · subst h
    simp [Board.lend]
  · simp [Board.lend, h]

theorem settle (sound : b.Sound idle) (m : Nat) : (b.settle m).Sound idle := by
  unfold Board.settle
  split
  · rename_i owner _
    apply sound.congr rfl
    intro t
    by_cases h : t = owner
    · subst h
      simp
    · simp [h]
  · exact sound

theorem setCount (sound : b.Sound idle) (x n : Nat) : (b.setCount x n).Sound idle :=
  { sound with }

/-- A live task off the queue of `m` can own it. -/
theorem assign (sound : b.Sound idle) {m : Nat} {t : TaskId} (live : b.Live t)
    (apart : t ∉ b.waiters (.mutex m)) : (b.setMutex m ⟨1, some t⟩).Sound idle :=
  { sound with
    locked := fun n => by
      by_cases h : n = m
      · exact .inr (by simp [setMutex, h])
      · simpa [setMutex, h] using sound.locked n
    ownerless := fun n none => by
      by_cases h : n = m
      · simp [setMutex, h] at none
      · exact sound.ownerless n (by simpa [setMutex, h] using none)
    owner := fun n x own => by
      by_cases h : n = m
      · subst h
        have same : t = x := by simpa [setMutex] using own
        exact same ▸ ⟨live, apart⟩
      · exact sound.owner n x (by simpa [setMutex, h] using own) }

theorem unlocked (sound : b.Sound idle) {m : Nat} (nobody : b.waiters (.mutex m) = []) :
    (b.setMutex m ⟨0, none⟩).Sound idle :=
  { sound with
    locked := fun n => by
      by_cases h : n = m
      · exact .inl (by simp [setMutex, h])
      · simpa [setMutex, h] using sound.locked n
    ownerless := fun n none => by
      by_cases h : n = m
      · exact h ▸ nobody
      · exact sound.ownerless n (by simpa [setMutex, h] using none)
    owner := fun n x own => by
      by_cases h : n = m
      · simp [setMutex, h] at own
      · exact sound.owner n x (by simpa [setMutex, h] using own) }

theorem park (sound : b.Sound idle) {t : TaskId} {o : Waitable} {n : UInt32} {c : Call}
    (runs : b.Runs t) (awake : t ≠ idle) (on : c.waitsOn = some o)
    (other : ∀ m, o = .mutex m → ∃ owner, (b.mutexes m).owner = some owner ∧ owner ≠ t) :
    (b.park t o n c).Sound idle := by
  have live := sound.runs_live runs
  obtain ⟨noQueue, noTimer, apart⟩ := sound.runs_apart runs
  have apart' : ∀ x p, x ∈ b.waiters p → x ≠ t := fun x p hx same => apart p (same ▸ hx)
  have blocks : ∀ x, b.Live x → (b.park t o n c).Block x := by
    intro x hx
    by_cases self : x = t
    · constructor <;> simp [Board.park, self]
    · exact (sound.block hx).congr (by simp [Board.park, self]) rfl (by simp [Board.park, self])
  refine { sound with
    queued := ?queued
    parked := ?parked
    distinct := ?distinct
    ownerless := ?ownerless
    owner := ?owner
    waiting := ?waiting
    callers := ?callers
    running := fun x hx => (blocks x hx).running
    active := fun x hx => (blocks x hx).active
    pointers := fun x hx => (blocks x hx).pointers
    blocked := fun x hx => (blocks x hx).blocked
    within := fun x hx => (blocks x hx).within
    idleAwake := ?idleAwake }
  case callers =>
    intro x hx
    by_cases self : x = t
    · exact self ▸ live
    · exact sound.callers x (by simpa [Board.park, self] using hx)
  case queued =>
    intro p x hx
    by_cases here : p = o
    · subst here
      simp only [Board.park, Function.update_self, List.mem_append, List.mem_singleton] at hx ⊢
      rcases hx with hx | rfl
      · rw [Function.update_of_ne (apart' x p hx)]
        exact sound.queued p x hx
      · exact ⟨live, by simp⟩
    · simp only [Board.park, Function.update_of_ne here] at hx ⊢
      rw [Function.update_of_ne (apart' x p hx)]
      exact sound.queued p x hx
  case parked =>
    intro p x hx on
    by_cases self : x = t
    · subst self
      have same : o = p := by simpa [Board.park] using on
      simp [Board.park, same]
    · have old := sound.parked p x hx (by simpa [Board.park, self] using on)
      by_cases here : p = o
      · subst here
        simp [Board.park, old]
      · simpa [Board.park, here] using old
  case distinct =>
    intro p
    by_cases here : p = o
    · subst here
      simpa [Board.park] using (sound.distinct p).concat (apart p)
    · simpa [Board.park, here] using sound.distinct p
  case ownerless =>
    intro m none
    by_cases here : o = .mutex m
    · obtain ⟨owner, own, _⟩ := other m here
      simp [Board.park, own] at none
    · simpa [Board.park, Ne.symm here] using sound.ownerless m none
  case owner =>
    intro m x own
    have old := sound.owner m x own
    refine ⟨old.1, ?_⟩
    by_cases here : o = .mutex m
    · obtain ⟨owner, own', ne⟩ := other m here
      obtain rfl : owner = x := Option.some.inj (own'.symm.trans own)
      subst here
      simp [Board.park, old.2, ne]
    · simpa [Board.park, Ne.symm here] using old.2
  case waiting =>
    intro x p hx on'
    by_cases self : x = t
    · subst self
      have same : o = p := by simpa [Board.park] using on'
      exact ⟨c, by simp [Board.park], same ▸ on⟩
    · simpa [Board.park, self] using sound.waiting x p hx (by simpa [Board.park, self] using on')
  case idleAwake => simpa [Board.park, Live, Ne.symm awake] using sound.idleAwake

/-- A waiting task leaves its queue with what it waited for. -/
theorem grant (sound : b.Sound idle) {t : TaskId} {o : Waitable} (queued : t ∈ b.waiters o) :
    (b.grant t).Sound idle := by
  obtain ⟨live, on⟩ := sound.queued o t queued
  have asleep : (b.tcb t).state = .blocked := (sound.blocked t live).mpr (.inr (by simp [on]))
  have other : t ≠ idle := fun same => sound.idleAwake.2 (same ▸ asleep)
  have left : ∀ p x, x ∈ (b.waiters p).erase t ↔ x ≠ t ∧ x ∈ b.waiters p :=
    fun p x => (sound.distinct p).mem_erase_iff
  have blocks : ∀ x, b.Live x → (b.grant t).Block x := by
    intro x hx
    by_cases self : x = t
    · constructor <;> simp [Board.grant, self]
    · exact (sound.block hx).congr (by simp [Board.grant, self]) rfl rfl
  refine { sound with
    queued := ?queued
    parked := ?parked
    distinct := fun p => (sound.distinct p).erase t
    ownerless := fun m none => by simp [Board.grant, sound.ownerless m none]
    owner := fun m x own => ⟨(sound.owner m x own).1, fun hx =>
      (sound.owner m x own).2 (List.mem_of_mem_erase hx)⟩
    idleAwake := by simpa [Board.grant, Live, Ne.symm other] using sound.idleAwake
    running := fun x hx => (blocks x hx).running
    active := fun x hx => (blocks x hx).active
    pointers := fun x hx => (blocks x hx).pointers
    blocked := fun x hx => (blocks x hx).blocked
    within := fun x hx => (blocks x hx).within
    waiting := ?waiting }
  case queued =>
    intro p x hx
    obtain ⟨ne, hx⟩ := (left p x).mp hx
    simpa [Board.grant, Live, ne] using sound.queued p x hx
  case parked =>
    intro p x hx on
    by_cases self : x = t
    · simp [Board.grant, self] at on
    · exact (left p x).mpr ⟨self, sound.parked p x hx (by simpa [Board.grant, self] using on)⟩
  case waiting =>
    intro x p hx on
    by_cases self : x = t
    · simp [Board.grant, self] at on
    · exact sound.waiting x p hx (by simpa [Board.grant, self] using on)

theorem sleep (sound : b.Sound idle) {t : TaskId} {ms : UInt32} {c : Call} (runs : b.Runs t)
    (awake : t ≠ idle) (patient : ms ≠ 0) : (b.sleep t ms c).Sound idle := by
  have live := sound.runs_live runs
  obtain ⟨_, _, apart⟩ := sound.runs_apart runs
  have blocks : ∀ x, b.Live x → (b.sleep t ms c).Block x := by
    intro x hx
    by_cases self : x = t
    · constructor <;> simp [Board.sleep, self, patient]
    · exact (sound.block hx).congr (by simp [Board.sleep, self]) rfl (by simp [Board.sleep, self])
  refine { sound with
    queued := fun p x hx => by
      have ne : x ≠ t := fun same => apart p (same ▸ hx)
      simpa [Board.sleep, Live, ne] using sound.queued p x hx
    parked := fun p x hx on => by
      by_cases self : x = t
      · simp [Board.sleep, self] at on
      · exact sound.parked p x hx (by simpa [Board.sleep, self] using on)
    idleAwake := by simpa [Board.sleep, Live, Ne.symm awake] using sound.idleAwake
    waiting := fun x p hx on => by
      by_cases self : x = t
      · simp [Board.sleep, self] at on
      · simpa [Board.sleep, self] using
          sound.waiting x p hx (by simpa [Board.sleep, self] using on)
    callers := fun x hx => by
      by_cases self : x = t
      · exact self ▸ live
      · exact sound.callers x (by simpa [Board.sleep, self] using hx)
    running := fun x hx => (blocks x hx).running
    active := fun x hx => (blocks x hx).active
    pointers := fun x hx => (blocks x hx).pointers
    blocked := fun x hx => (blocks x hx).blocked
    within := fun x hx => (blocks x hx).within }

/-- A task returns from the call it was parked in. -/
theorem leave (sound : b.Sound idle) {t : TaskId} (runs : b.Runs t) :
    Sound idle { b with inside := Function.update b.inside t none } := by
  obtain ⟨noQueue, _, _⟩ := sound.runs_apart runs
  refine { sound with
    within := fun x hx asleep => ?_
    waiting := fun x o hx on => ?_
    callers := fun x hx => sound.callers x fun none => hx ?_ }
  · have ne : x ≠ t := by
      rintro rfl
      rw [runs.2] at asleep
      cases asleep
    simpa [ne] using sound.within x hx asleep
  · have ne : x ≠ t := by
      rintro rfl
      rw [noQueue] at on
      cases on
    simpa [ne] using sound.waiting x o hx on
  · by_cases self : x = t
    · simp [self]
    · simpa [self] using none

theorem runnable_apart (sound : b.Sound idle) {t : TaskId} (live : b.Live t)
    (runnable : b.Runnable t) : (b.tcb t).sleepTime = 0 ∧ (b.tcb t).waitQueue = none := by
  have awake : (b.tcb t).state ≠ .blocked := by
    rcases runnable with h | h <;> simp [h]
  have := mt (sound.blocked t live).mpr awake
  simpa only [not_or, ne_eq, not_not] using this

theorem dispatch (sound : b.Sound idle) {best : TaskId} (picks : b.Picks best) :
    (b.dispatch best).Sound idle := by
  obtain ⟨timer, apart⟩ := sound.runnable_apart picks.live picks.runnable
  have blocks : ∀ x, ((b.dispatch best).tcb x).state = .blocked ↔
      x ≠ best ∧ (b.tcb x).state = .blocked := by
    intro x
    rw [dispatch_tcb]
    by_cases self : x = best
    · simp [self]
    · by_cases old : b.current = some x ∧ (b.tcb x).state = .running
      · simp [self, old]
      · simp [self, old]
  refine ⟨sound.launched, ⟨best, rfl, picks.live⟩, ?running, ?active, ?pointers, ?queued, ?parked, sound.distinct,
    ?blocked, sound.locked, sound.ownerless, sound.owner, ?within, ?waiting, sound.callers, ?idleAwake⟩
  case running =>
    intro x hx run
    by_cases self : x = best
    · rw [self]
      rfl
    · have old : (b.tcb x).state = .running ∧ b.current ≠ some x := by
        rw [dispatch_tcb] at run
        simp only [self, if_false] at run
        split at run
        · cases run
        · rename_i h
          exact ⟨run, fun c => h ⟨c, run⟩⟩
      exact absurd (sound.running x hx old.1) old.2
  case active =>
    intro x hx
    have := sound.active x hx
    rw [dispatch_tcb]
    dsimp only
    split_ifs <;> simp [this]
  case pointers =>
    intro x hx
    simpa [dispatch_tcb] using sound.pointers x hx
  case queued =>
    intro o x hx
    rw [dispatch_tcb]
    exact sound.queued o x hx
  case parked =>
    intro o x hx on
    exact sound.parked o x hx (by simpa [dispatch_tcb] using on)
  case blocked =>
    intro x hx
    rw [blocks, sound.blocked x hx, dispatch_tcb]
    constructor
    · exact fun h => h.2
    · intro h
      refine ⟨?_, h⟩
      rintro rfl
      simp [timer, apart] at h
  case within =>
    intro x hx asleep
    exact sound.within x hx ((blocks x).mp asleep).2
  case waiting =>
    intro x o hx on
    exact sound.waiting x o hx (by simpa [dispatch_tcb] using on)
  case idleAwake =>
    exact ⟨sound.idleAwake.1, fun asleep => sound.idleAwake.2 ((blocks idle).mp asleep).2⟩

/-- Those whose timer runs out leave their queue; the others only count down. -/
theorem tick (sound : b.Sound idle) : b.tick.Sound idle := by
  have block : ∀ x, b.Live x → b.tick.tcb x = elapse (b.tcb x) := fun x hx => by
    simp [Board.tick, hx]
  have left : ∀ o x, x ∈ b.tick.waiters o ↔ x ∈ b.waiters o ∧ ¬ b.Due x := by
    simp [Board.tick]
  have timed : ∀ x, b.Live x → (b.tcb x).sleepTime ≠ 0 → (b.tcb x).state = .blocked :=
    fun x hx timer => (sound.blocked x hx).mpr (.inl timer)
  have due : ∀ x, b.Live x → (b.Due x ↔ (b.tcb x).sleepTime = 1) := fun x hx => by
    simp [Due, hx]
  refine ⟨sound.launched, sound.current, ?running, ?active, ?pointers, ?queued, ?parked,
    fun o => (sound.distinct o).filter _, ?blocked, sound.locked, ?ownerless, ?owner,
    ?within, ?waiting, sound.callers, ?idleAwake⟩
  case queued =>
    intro o x hx
    obtain ⟨hx, notDue⟩ := (left o x).mp hx
    obtain ⟨live, on⟩ := sound.queued o x hx
    rw [due x live] at notDue
    refine ⟨live, ?_⟩
    rw [block x live]
    simp [notDue, on]
  case parked =>
    intro o x hx on
    rw [block x hx] at on
    by_cases timer : (b.tcb x).sleepTime = 1
    · simp [timer] at on
    · refine (left o x).mpr ⟨sound.parked o x hx (by simpa [timer] using on), ?_⟩
      rwa [due x hx]
  case ownerless =>
    intro m none
    simp [Board.tick, sound.ownerless m none]
  case owner =>
    intro m x own
    obtain ⟨live, apart⟩ := sound.owner m x own
    exact ⟨live, fun hx => apart ((left _ x).mp hx).1⟩
  case running =>
    intro x hx run
    rw [block x hx] at run
    apply sound.running x hx
    by_cases timer : (b.tcb x).sleepTime = 1
    · simp [timer] at run
    · simpa [timer] using run
  case active =>
    intro x hx
    rw [block x hx]
    by_cases timer : (b.tcb x).sleepTime = 1
    · simp [timer]
    · simpa [timer] using sound.active x hx
  case pointers =>
    intro x hx
    simp [block x hx, sound.pointers x hx]
  case blocked =>
    intro x hx
    rw [block x hx]
    by_cases timer : (b.tcb x).sleepTime = 1
    · simp [timer]
    · have old := sound.blocked x hx
      by_cases zero : (b.tcb x).sleepTime = 0
      · simpa [timer, zero] using old
      · have more : (b.tcb x).sleepTime - 1 ≠ 0 := fun h => timer (by
          have := UInt32.sub_add_cancel (b.tcb x).sleepTime 1
          rw [h] at this
          exact this.symm)
        simp [timer, zero, more, timed x hx zero]
  case within =>
    intro x hx asleep
    rw [block x hx] at asleep
    apply sound.within x hx
    by_cases timer : (b.tcb x).sleepTime = 1
    · simp [timer] at asleep
    · simpa [timer] using asleep
  case waiting =>
    intro x o hx on
    rw [block x hx] at on
    apply sound.waiting x o hx
    by_cases timer : (b.tcb x).sleepTime = 1
    · simp [timer] at on
    · simpa [timer] using on
  case idleAwake =>
    refine ⟨sound.idleAwake.1, ?_⟩
    rw [block idle sound.idleAwake.1]
    by_cases timer : (b.tcb idle).sleepTime = 1
    · simp [timer]
    · simpa [timer] using sound.idleAwake.2

/-- Whoever waits for a mutex waits for its owner. -/
theorem locked_of_waiter (sound : b.Sound idle) {m : Nat} {t : TaskId}
    (queued : t ∈ b.waiters (.mutex m)) : (b.mutexes m).lock = 1 := by
  rcases sound.locked m with h | h
  · have := sound.ownerless m (by simp [h])
    simp [this] at queued
  · exact h

end Sound

theorem mem_of_first {b : Board} {o : Waitable} {t : TaskId} (found : b.first o = some t) :
    t ∈ b.waiters o := List.argmax_mem found

@[simp] theorem settle_waiters (b : Board) (m : Nat) : (b.settle m).waiters = b.waiters := by
  unfold settle
  split <;> rfl

@[simp] theorem settle_mutexes (b : Board) (m : Nat) : (b.settle m).mutexes = b.mutexes := by
  unfold settle
  split <;> rfl

end Board

open Board in
theorem BoardStep.sound {idle : TaskId} {b c : Board} {e : Event} (h : BoardStep idle b e c)
    (sound : b.Sound idle) : c.Sound idle := by
  cases h with
  | lock runs free opened =>
    exact sound.assign (sound.runs_live runs) ((sound.runs_apart runs).2.2 _)
  | reenter | pollMutex | pollSemaphore | noSleep | drop => exact sound
  | @waitMutex t m n owner runs free locked held other patient awake =>
    refine (sound.lend owner t).park ⟨runs.1, ?_⟩ awake rfl ?_
    · simpa [Board.lend, Ne.symm other] using runs.2
    · rintro _ ⟨⟩
      exact ⟨owner, held, other⟩
  | unlock runs free nobody => exact (sound.settle _).unlocked (by simpa using nobody)
  | @handOver t m next runs free found =>
    have queued : next ∈ (b.settle m).waiters (.mutex m) := mem_of_first found
    have settled := sound.settle m
    have lock : (b.mutexes m).lock = 1 := sound.locked_of_waiter (by simpa using queued)
    have granted := settled.grant queued
    rw [lock]
    exact granted.assign (settled.queued _ _ queued).1 (settled.distinct _).not_mem_erase
  | take | put => exact sound.setCount _ _
  | waitSemaphore runs free empty patient awake => exact sound.park runs awake rfl (by simp)
  | hand posts found => exact sound.grant (mem_of_first found)
  | sleep runs free patient awake => exact sound.sleep runs awake patient
  | resume runs parked => exact sound.leave runs
  | tick => exact sound.tick
  | pass picks => exact sound.dispatch picks

end Sentinel
