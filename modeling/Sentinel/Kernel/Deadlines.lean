import Sentinel.Kernel.Boot
import Sentinel.Kernel.Effects

/-! Deadlines. A task that waits is woken on its own tick and on no other, unless a
release picks it first, and then no tick touches it any more. -/

namespace Sentinel

open Runs (Transition Run)

/-- After how many ticks a parked call gives up. -/
def Call.deadline : Call → Option Nat
  | .mutexAcquire _ timeout | .semaphoreAcquire _ timeout =>
    if timeout = waitForever then none else some timeout.toNat
  | .delay ms => some ms.toNat
  | .mutexRelease _ | .semaphoreRelease _ => none

/-- The ticks of a stretch of a run. -/
def ticks (past : History) : Nat := past.countP fun x => x.event = .tick

/-- A release takes `t` off a queue. -/
def HandsTo (t : TaskId) (x : Transition System Event) : Prop :=
  x.event ≠ .tick ∧ ∃ o, t ∈ x.pre.kernel.waiters o ∧ t ∉ x.post.kernel.waiters o

/-- What a step does to the control block of a task in a call. -/
inductive BlockEffect (t : TaskId) (b : Board) (e : Event) (d : Board) : Prop
  | kept (untimed : e ≠ .tick)
      (block : d.tcb t = { b.tcb t with
        currentPriority := (d.tcb t).currentPriority
        state := (d.tcb t).state })
      (state : (d.tcb t).state = (b.tcb t).state ∨ b.Runnable t ∧ d.Runnable t)
  | granted (untimed : e ≠ .tick) (o : Waitable) (queued : t ∈ b.waiters o)
      (block : d.tcb t = { b.tcb t with
        currentPriority := (d.tcb t).currentPriority
        waitQueue := none
        waitCount := none
        sleepTime := 0
        waitResult := .success
        state := .ready })
  | ticked (event : e = .tick) (block : d.tcb t = Board.elapse (b.tcb t))

section
variable {idle : TaskId} {b d : Board} {e : Event} {t : TaskId} {c : Call}

theorem BlockEffect.still (untimed : e ≠ .tick)
    (block : d.tcb t = { b.tcb t with currentPriority := (d.tcb t).currentPriority }) :
    BlockEffect t b e d := by
  have state : (d.tcb t).state = (b.tcb t).state := by rw [block]
  exact .kept untimed (by rw [state]; exact block) (.inl state)

theorem Board.Posts.untimed {x : Nat} (posts : b.Posts e x) : e ≠ .tick := by
  rcases posts with rfl | ⟨_, rfl, _⟩ <;> simp

open Board in
theorem BoardStep.blockEffect (h : BoardStep idle b e d) (sound : b.Sound idle)
    (inside : b.inside t = some c) : BlockEffect t b e d := by
  have busy : ∀ u, b.inside u = none → t ≠ u := by
    intro u free same
    simp [same, free] at inside
  cases h with
  | lock | reenter | pollMutex | take | pollSemaphore | noSleep | resume =>
    exact .still (by simp) rfl
  | put posts | drop posts => exact .still posts.untimed rfl
  | @waitMutex u m n owner runs free =>
    by_cases lent : t = owner
    · subst lent
      exact .still (by simp) (by simp [park, lend, busy u free])
    · exact .still (by simp) (by simp [park, lend, busy u free, lent])
  | unlock => exact .still (by simp) (by simp [setMutex, settle_tcb])
  | @handOver u m next runs free found =>
    by_cases self : t = next
    · subst self
      have queued : t ∈ b.waiters (.mutex m) := by simpa using mem_of_first found
      exact .granted (by simp) _ queued (by simp [grant, setMutex, settle_tcb])
    · exact .still (by simp) (by simp [grant, setMutex, settle_tcb, self])
  | @waitSemaphore u x n runs free => exact .still (by simp) (by simp [park, busy u free])
  | @hand e x next posts found =>
    by_cases self : t = next
    · subst self
      exact .granted posts.untimed _ (mem_of_first found) (by simp [grant])
    · exact .still posts.untimed (by simp [grant, self])
  | @sleep u ms runs free => exact .still (by simp) (by simp [Board.sleep, busy u free])
  | tick =>
    have live : b.Live t := sound.callers t (by simp [inside])
    exact .ticked rfl (by simp [Board.tick, live])
  | @pass best picks =>
    have state : ((b.dispatch best).tcb t).state = (b.tcb t).state ∨
        b.Runnable t ∧ (b.dispatch best).Runnable t := by
      by_cases self : t = best
      · subst self
        exact .inr ⟨picks.runnable, .inr (by simp [dispatch_tcb])⟩
      · by_cases demoted : b.current = some t ∧ (b.tcb t).state = .running
        · exact .inr ⟨.inr demoted.2, .inl (by simp [dispatch_tcb, self, demoted])⟩
        · exact .inl (by simp [dispatch_tcb, self, demoted])
    exact .kept (by simp) (by simp [dispatch_tcb]) state

namespace Board

/-- The task `t` is in the call `c`, which no release has ended, and has seen `k` ticks. -/
structure Counts (b : Board) (t : TaskId) (c : Call) (k : Nat) : Prop where
  inside : b.inside t = some c
  waits : ∀ n, c.deadline = some n → k < n → (b.tcb t).state = .blocked ∧
    (b.tcb t).sleepTime.toNat = n - k ∧ (b.tcb t).waitQueue = c.waitsOn
  expired : ∀ n, c.deadline = some n → n ≤ k → b.Runnable t ∧ (b.tcb t).sleepTime = 0 ∧
    (b.tcb t).waitQueue = none ∧ (c.waitsOn ≠ none → (b.tcb t).waitResult = .timeout)
  endless : c.deadline = none → (b.tcb t).state = .blocked ∧ (b.tcb t).sleepTime = 0 ∧
    (b.tcb t).waitQueue = c.waitsOn

/-- A release has ended the wait of `t`, which has not returned yet. -/
structure Handed (b : Board) (t : TaskId) : Prop where
  inside : b.inside t ≠ none
  runnable : b.Runnable t
  sleepTime : (b.tcb t).sleepTime = 0
  waitQueue : (b.tcb t).waitQueue = none
  waitResult : (b.tcb t).waitResult = .success

end Board

open Board in
theorem Board.park_counts {o : Waitable} {n : UInt32} (on : c.waitsOn = some o)
    (deadline : c.deadline = if n = waitForever then none else some n.toNat) (patient : n ≠ 0) :
    (b.park t o n c).Counts t c 0 := by
  refine ⟨by simp [park], ?_, ?_, ?_⟩
  · intro m limit _
    rw [deadline] at limit
    split at limit
    · cases limit
    · rename_i finite
      obtain rfl := Option.some.inj limit
      simp [park, finite, on]
  · intro m limit none
    rw [deadline] at limit
    split at limit
    · cases limit
    · obtain rfl := Option.some.inj limit
      exact absurd (UInt32.toNat.inj (Nat.le_zero.mp none)) patient
  · intro forever
    rw [deadline] at forever
    split at forever
    · rename_i endless
      simp [park, endless, on]
    · cases forever

open Board in
theorem BoardStep.counts (h : BoardStep idle b (.call t c .parked) d) : d.Counts t c 0 := by
  cases h with
  | hand posts | put posts | drop posts => rcases posts with posts | ⟨_, posts, _⟩ <;> cases posts
  | waitMutex _ _ _ _ _ patient => exact park_counts rfl rfl patient
  | waitSemaphore _ _ _ patient => exact park_counts rfl rfl patient
  | @sleep _ ms _ _ patient =>
    refine ⟨by simp [Board.sleep], ?_, ?_, ?_⟩
    · intro n limit _
      obtain rfl := Option.some.inj limit
      simp [Board.sleep, Call.waitsOn]
    · intro n limit none
      obtain rfl := Option.some.inj limit
      exact absurd (UInt32.toNat.inj (Nat.le_zero.mp none)) patient
    · intro forever
      cases forever

/-- One tick of a timer that has not run out. -/
theorem elapse_waits {x : Tcb} {n : Nat} (blocked : x.state = .blocked)
    (timer : x.sleepTime.toNat = n + 2) : (Board.elapse x).state = .blocked ∧
      (Board.elapse x).sleepTime.toNat = n + 1 ∧ (Board.elapse x).waitQueue = x.waitQueue := by
  have off : x.sleepTime ≠ 0 := by
    intro zero
    simp [zero] at timer
  have more : x.sleepTime ≠ 1 := by
    intro one
    simp [one] at timer
  have one : (1 : UInt32) ≤ x.sleepTime := by
    rw [UInt32.le_iff_toNat_le, timer]
    exact Nat.le_add_left 1 (n + 1)
  simp [off, more, blocked, UInt32.toNat_sub_of_le _ _ one, timer]

theorem elapse_expires {x : Tcb} (timer : x.sleepTime = 1) : (Board.elapse x).state = .ready ∧
    (Board.elapse x).sleepTime = 0 ∧ (Board.elapse x).waitQueue = none ∧
      (x.waitQueue ≠ none → (Board.elapse x).waitResult = .timeout) := by
  refine ⟨by simp [timer], by simp [timer], by simp [timer], ?_⟩
  intro on
  simp [timer, on]

theorem elapse_off {x : Tcb} (timer : x.sleepTime = 0) : Board.elapse x = x := by
  simp [Board.elapse, timer]

open Board in
/-- One step of a wait that no release ends. -/
theorem BoardStep.counts_next {k : Nat} (h : BoardStep idle b e d) (sound : b.Sound idle)
    (counts : b.Counts t c k) (silent : ∀ c out, e ≠ .resume t c out)
    (alone : e = .tick ∨ ∀ o, t ∈ b.waiters o → t ∈ d.waiters o) :
    d.Counts t c (k + if e = .tick then 1 else 0) := by
  have inside := h.inside_kept counts.inside silent
  cases h.blockEffect sound counts.inside with
  | kept untimed block state =>
    have runnable : b.Runnable t → d.Runnable t := by
      intro before
      rcases state with same | ⟨_, after⟩
      · simpa only [Runnable, same] using before
      · exact after
    have blocked : (b.tcb t).state = .blocked → (d.tcb t).state = .blocked := by
      intro before
      rcases state with same | ⟨ready | running, _⟩
      · rw [same, before]
      · cases before.symm.trans ready
      · cases before.symm.trans running
    have fields : (d.tcb t).sleepTime = (b.tcb t).sleepTime ∧
        (d.tcb t).waitQueue = (b.tcb t).waitQueue ∧
          (d.tcb t).waitResult = (b.tcb t).waitResult := by
      rw [block]
      exact ⟨rfl, rfl, rfl⟩
    obtain ⟨timer, queue, result⟩ := fields
    rw [if_neg untimed]
    refine ⟨inside, ?_, ?_, ?_⟩
    · intro n limit early
      rw [timer, queue]
      exact (counts.waits n limit early).imp_left blocked
    · intro n limit late
      rw [timer, queue, result]
      exact (counts.expired n limit late).imp_left runnable
    · intro forever
      rw [timer, queue]
      exact (counts.endless forever).imp_left blocked
  | granted untimed o queued block =>
    rcases alone with tick | stays
    · exact absurd tick untimed
    · have live := (h.sound sound).queued o t (stays o queued)
      rw [block] at live
      cases live.2
  | ticked event block =>
    rw [if_pos event]
    refine ⟨inside, ?_, ?_, ?_⟩
    · intro n limit early
      obtain ⟨blocked, timer, queue⟩ := counts.waits n limit (by omega)
      rw [block]
      obtain ⟨m, rfl⟩ : ∃ m, n = k + (m + 2) := ⟨n - k - 2, by omega⟩
      rw [Nat.add_sub_cancel_left] at timer
      obtain ⟨blocked, timer, same⟩ := elapse_waits blocked timer
      exact ⟨blocked, by omega, same.trans queue⟩
    · intro n limit late
      rw [Runnable, block]
      by_cases now : n = k + 1
      · obtain ⟨_, timer, queue⟩ := counts.waits n limit (by omega)
        have one : (b.tcb t).sleepTime = 1 := UInt32.toNat.inj (by
          rw [timer, now, Nat.add_sub_cancel_left]
          rfl)
        obtain ⟨ready, off, left, result⟩ := elapse_expires one
        exact ⟨.inl ready, off, left, fun on => result (queue ▸ on)⟩
      · obtain ⟨runnable, timer, rest⟩ := counts.expired n limit (by omega)
        rw [elapse_off timer]
        exact ⟨runnable, timer, rest⟩
    · intro forever
      obtain ⟨blocked, timer, rest⟩ := counts.endless forever
      rw [block, elapse_off timer]
      exact ⟨blocked, timer, rest⟩

open Board in
theorem BoardStep.handed_next (h : BoardStep idle b e d) (sound : b.Sound idle)
    (handed : b.Handed t) (silent : ∀ c out, e ≠ .resume t c out) :
    d.Handed t ∧ (e = .tick → d.tcb t = b.tcb t) := by
  obtain ⟨c, inside⟩ := Option.ne_none_iff_exists'.mp handed.inside
  obtain ⟨_, runnable, timer, off, result⟩ := handed
  have inside' : d.inside t ≠ none := by simp [h.inside_kept inside silent]
  cases h.blockEffect sound inside with
  | kept untimed block state =>
    have after : d.Runnable t := by
      rcases state with same | ⟨_, after⟩
      · simpa only [Runnable, same] using runnable
      · exact after
    refine ⟨⟨inside', after, ?_, ?_, ?_⟩, fun tick => absurd tick untimed⟩
    · rw [block]
      exact timer
    · rw [block]
      exact off
    · rw [block]
      exact result
  | granted untimed o queued =>
    cases off.symm.trans (sound.queued o t queued).2
  | ticked event block =>
    rw [elapse_off timer] at block
    exact ⟨⟨inside', by rwa [Runnable, block], by rwa [block], by rwa [block], by rwa [block]⟩,
      fun _ => block⟩

open Board in
/-- A task that a release takes off its queue has been handed what it waits for. -/
theorem BoardStep.handed_of_left (h : BoardStep idle b e d) (sound : b.Sound idle)
    (untimed : e ≠ .tick) {o : Waitable} (queued : t ∈ b.waiters o) (left : t ∉ d.waiters o) :
    d.Handed t := by
  obtain ⟨c, on, woken⟩ := h.woken_of_left sound queued left
  obtain ⟨live, here⟩ := sound.queued o t queued
  obtain ⟨c', inside, _⟩ := sound.waiting t o live here
  cases h.blockEffect sound inside with
  | kept _ block =>
    have off := woken.off
    rw [block] at off
    cases here.symm.trans off
  | granted _ _ _ block =>
    have inside' : d.inside t ≠ none := by simp [woken.inside]
    refine ⟨inside', .inl ?_, ?_, ?_, ?_⟩ <;> rw [block]
  | ticked event => exact absurd event untimed

end

section
variable {idle : TaskId} {recent older : History} {u s : System} {t : TaskId} {c : Call}
  {y : Transition System Event}

theorem ticks_cons (x : Transition System Event) (past : History) :
    ticks (x :: past) = ticks past + if x.event = .tick then 1 else 0 := by
  simp [ticks, List.countP_cons]

theorem Trace.counts (early : Trace idle older u) (late : Run (· = u) (Step idle) recent s)
    (start : u.board.Counts t c 0) (silent : ∀ x ∈ recent, ∀ c out, x.event ≠ .resume t c out)
    (alone : ∀ x ∈ recent, ¬ HandsTo t x) : s.board.Counts t c (ticks recent) := by
  induction late with
  | start same => exact same ▸ start
  | @next recent s s' e late step ih =>
    have sound : s.board.Sound idle := Trace.sound (early.append late)
    have counts := ih (fun x there => silent x (List.mem_cons_of_mem _ there))
      fun x there => alone x (List.mem_cons_of_mem _ there)
    rw [ticks_cons]
    apply (step.refines sound).counts_next sound counts (silent _ List.mem_cons_self)
    by_cases tick : e = .tick
    · exact .inl tick
    · apply Or.inr
      intro o queued
      by_contra left
      exact alone _ List.mem_cons_self ⟨tick, o, queued, left⟩

theorem Trace.handed (early : Trace idle older u) (late : Run (· = u) (Step idle) recent s)
    (start : u.board.Handed t) (silent : ∀ x ∈ recent, ∀ c out, x.event ≠ .resume t c out) :
    s.board.Handed t ∧ ∀ x ∈ recent, x.event = .tick →
      x.post.kernel.osTasks t = x.pre.kernel.osTasks t := by
  induction late with
  | start same => exact ⟨same ▸ start, fun x there => absurd there List.not_mem_nil⟩
  | @next recent s s' e late step ih =>
    have sound : s.board.Sound idle := Trace.sound (early.append late)
    obtain ⟨handed, before⟩ := ih fun x there => silent x (List.mem_cons_of_mem _ there)
    obtain ⟨after, untouched⟩ :=
      (step.refines sound).handed_next sound handed (silent _ List.mem_cons_self)
    refine ⟨after, ?_⟩
    intro x there
    rcases List.mem_cons.mp there with rfl | there
    · exact untouched
    · exact before x there

/-- A task blocks at `y` in the call `c` and has not returned from it. -/
structure Blocks (t : TaskId) (c : Call) (recent : History) (y : Transition System Event) : Prop where
  parks : y.event = .call t c .parked
  unreturned : ∀ x ∈ recent, ∀ c out, x.event ≠ .resume t c out

theorem Trace.counts_of_blocks (run : Trace idle (recent ++ y :: older) s)
    (blocks : Blocks t c recent y) (alone : ∀ x ∈ recent, ¬ HandsTo t x) :
    s.board.Counts t c (ticks recent) := by
  obtain ⟨before, step, late⟩ := run.transition
  rw [blocks.parks] at step
  have start := (step.refines (Trace.sound before)).counts
  exact Trace.counts (.next before step) late start blocks.unreturned alone

open Board in
theorem Board.Sound.waiting_on {b : Board} (sound : b.Sound idle) {o : Waitable} {k : Nat}
    (counts : b.Counts t c k) (on : c.waitsOn = some o) (queue : (b.tcb t).waitQueue = c.waitsOn) :
    t ∈ b.waiters o :=
  sound.parked o t (sound.callers t (by simp [counts.inside])) (queue.trans on)

/-- A call that parks for ever parks on a queue. -/
theorem BoardStep.waitsOn_of_endless {b d : Board}
    (h : BoardStep idle b (.call t c .parked) d) (forever : c.deadline = none) :
    ∃ o, c.waitsOn = some o := by
  cases c with
  | mutexAcquire m => exact ⟨.mutex m, rfl⟩
  | semaphoreAcquire x => exact ⟨.semaphore x, rfl⟩
  | delay => cases forever
  | mutexRelease | semaphoreRelease =>
    cases h with
    | hand posts | put posts | drop posts => rcases posts with posts | ⟨_, posts, _⟩ <;> cases posts

/-- **Deadlines are exact**, and a wait ends in one way only. -/
theorem deadlines (run : Trace idle (recent ++ y :: older) s) (blocks : Blocks t c recent y) :
    ((∀ x ∈ recent, ¬ HandsTo t x) →
      (∀ n, c.deadline = some n → ticks recent < n →
        (s.kernel.osTasks t).state = .blocked ∧
          ∀ o, c.waitsOn = some o → t ∈ s.kernel.waiters o) ∧
      (∀ n, c.deadline = some n → n ≤ ticks recent → s.kernel.Runnable t ∧
        (∀ o, t ∉ s.kernel.waiters o) ∧
          (c.waitsOn ≠ none → (s.kernel.osTasks t).waitResult = .timeout)) ∧
      (∀ n x rest, c.deadline = some n → recent = x :: rest → x.event = .tick → ticks recent = n →
        (x.pre.kernel.osTasks t).state = .blocked ∧ (s.kernel.osTasks t).state = .ready) ∧
      (c.deadline = none → (s.kernel.osTasks t).state = .blocked ∧
        ∃ o, c.waitsOn = some o ∧ t ∈ s.kernel.waiters o)) ∧
    ∀ later x earlier, recent = later ++ x :: earlier → HandsTo t x →
      s.kernel.Runnable t ∧ (s.kernel.osTasks t).waitResult = .success ∧
        ∀ z ∈ later, z.event = .tick → z.post.kernel.osTasks t = z.pre.kernel.osTasks t := by
  have sound : s.board.Sound idle := Trace.sound run
  refine ⟨fun alone => ⟨?_, ?_, ?_, ?_⟩, ?_⟩
  · intro n limit early
    have counts := Trace.counts_of_blocks run blocks alone
    obtain ⟨blocked, _, queue⟩ := counts.waits n limit early
    exact ⟨blocked, fun o on => sound.waiting_on counts on queue⟩
  · intro n limit late
    have counts := Trace.counts_of_blocks run blocks alone
    obtain ⟨runnable, _, off, result⟩ := counts.expired n limit late
    refine ⟨runnable, ?_, result⟩
    intro o queued
    cases off.symm.trans (sound.queued o t queued).2
  · intro n x rest limit list tick due
    subst list
    rw [ticks_cons, if_pos tick] at due
    have run' : Trace idle ([] ++ x :: (rest ++ y :: older)) s := run
    obtain ⟨before, step, stopped⟩ := run'.transition
    cases stopped with
    | start same =>
      subst same
      have short : Blocks t c rest y :=
        ⟨blocks.parks, fun z there => blocks.unreturned z (List.mem_cons_of_mem _ there)⟩
      have counts := Trace.counts_of_blocks before short
        fun z there => alone z (List.mem_cons_of_mem _ there)
      obtain ⟨blocked, timer, _⟩ := counts.waits n limit (by omega)
      have one : (x.pre.board.tcb t).sleepTime = 1 := UInt32.toNat.inj (by
        rw [timer, ← due, Nat.add_sub_cancel_left]
        rfl)
      refine ⟨blocked, ?_⟩
      cases (step.refines (Trace.sound before)).blockEffect (Trace.sound before) counts.inside with
      | kept untimed | granted untimed => exact absurd tick untimed
      | ticked event block => exact (congrArg _ block).trans (elapse_expires one).1
  · intro forever
    have counts := Trace.counts_of_blocks run blocks alone
    obtain ⟨blocked, _, queue⟩ := counts.endless forever
    obtain ⟨before, step, _⟩ := run.transition
    rw [blocks.parks] at step
    obtain ⟨o, on⟩ := (step.refines (Trace.sound before)).waitsOn_of_endless forever
    exact ⟨blocked, o, on, sound.waiting_on counts on queue⟩
  · intro later x earlier list hands
    subst list
    obtain ⟨untimed, o, queued, left⟩ := hands
    have whole : later ++ x :: earlier ++ y :: older = later ++ x :: (earlier ++ y :: older) := by simp
    rw [whole] at run
    obtain ⟨before, step, late⟩ := run.transition
    have handed := (step.refines (Trace.sound before)).handed_of_left (Trace.sound before) untimed
      queued left
    obtain ⟨after, untouched⟩ := Trace.handed (.next before step) late handed fun z there =>
      blocks.unreturned z (by simp [there])
    exact ⟨after.runnable, after.waitResult, untouched⟩

end

/-- Task 1 acquires an empty semaphore with a timeout of two ticks; the second one wakes it. -/
theorem deadlines_expired : ∃ recent y s, Trace 0 (recent ++ [y]) s ∧
    Blocks 1 (.semaphoreAcquire 0 2) recent y ∧ ticks recent = 2 ∧
      (s.kernel.osTasks 1).state = .ready ∧ (s.kernel.osTasks 1).waitResult = .timeout := by
  obtain ⟨past, s, run, played⟩ := rehearse_run
    (show rehearse 0 (fun _ => ⟨0, 1⟩) [0, 1] (fun _ _ => true)
      (fun past _ => past.map (·.event) = [.tick, .tick, .call 1 (.semaphoreAcquire 0 2) .parked])
      [.call 1 (.semaphoreAcquire 0 2) .parked, .tick, .tick] by decide +kernel)
  have trace : Trace 0 past s := run.weaken (fun _ h => h.launched) fun _ _ _ h => h.1
  obtain ⟨second, past, rfl, tick₂, played⟩ := List.map_eq_cons_iff.mp (of_decide_eq_true played)
  obtain ⟨first, past, rfl, tick₁, played⟩ := List.map_eq_cons_iff.mp played
  obtain ⟨y, past, rfl, parks, played⟩ := List.map_eq_cons_iff.mp played
  obtain rfl := List.map_eq_nil_iff.mp played
  have all : ∀ x ∈ [second, first], x.event = .tick := by simp [tick₁, tick₂]
  have blocks : Blocks 1 (.semaphoreAcquire 0 2) [second, first] y := by
    refine ⟨parks, ?_⟩
    intro x there c out returns
    cases (all x there).symm.trans returns
  have due : ticks [second, first] = 2 := by simp [ticks, tick₁, tick₂]
  have trace' : Trace 0 ([second, first] ++ [y]) s := trace
  obtain ⟨alone, _⟩ := deadlines trace' blocks
  obtain ⟨_, late, exact, _⟩ := alone fun x there hands => hands.1 (all x there)
  obtain ⟨_, ready⟩ := exact 2 second [first] rfl rfl tick₂ due
  obtain ⟨_, _, result⟩ := late 2 rfl due.ge
  exact ⟨_, y, s, trace', blocks, due, ready, result (by simp [Call.waitsOn])⟩

end Sentinel
