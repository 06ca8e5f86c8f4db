import Mathlib.Algebra.BigOperators.Fin
import Sentinel.Kernel.Effects
import Sentinel.Kernel.Boot

/-! Token conservation. A token is in the count of its semaphore, or in the control
block of a woken task, or has been returned to its taker; a release adds one
unless the semaphore is full. -/

namespace Sentinel

open Runs (Transition Run)

/-- The tokens of `x` that one step gives to `t`: an acquire takes one at once, or a
release takes the waiting task off the queue. -/
def Board.tokens (x : Nat) (t : TaskId) (b : Board) (e : Event) (d : Board) : Nat :=
  match e with
  | .call u (.semaphoreAcquire z _) (.returned .success) => if u = t ∧ z = x then 1 else 0
  | e =>
    if e.releases x ∧ t ∈ b.waiters (.semaphore x) ∧ t ∉ d.waiters (.semaphore x) then 1 else 0

/-- The release that one step makes of `x`, unless it is dropped: nobody waits and the
count is at its bound. -/
def Board.released (x : Nat) (b : Board) (e : Event) : Nat :=
  if e.releases x ∧ ¬ (b.waiters (.semaphore x) = [] ∧
    (b.semaphores x).count = (b.semaphores x).maxCount) then 1 else 0

namespace History

def granted (x : Nat) (past : History) : Nat :=
  (past.map fun y => ∑ t, Board.tokens x t y.pre.board y.event y.post.board).sum

def released (x : Nat) (past : History) : Nat :=
  (past.map fun y => Board.released x y.pre.board y.event).sum

/-- The tokens of `x` given to `t` since its latest call of an acquire of `x`. -/
def received (x : Nat) (t : TaskId) : History → Nat
  | [] => 0
  | y :: past =>
    Board.tokens x t y.pre.board y.event y.post.board +
      match y.event with
      | .call u (.semaphoreAcquire z _) _ => if u = t ∧ z = x then 0 else received x t past
      | _ => received x t past

end History

/-- The bound on the count, and no token beside a waiter. -/
structure Board.Stocked (x : Nat) (b : Board) : Prop where
  bounded : (b.semaphores x).count ≤ (b.semaphores x).maxCount
  scarce : b.waiters (.semaphore x) ≠ [] → (b.semaphores x).count = 0

section
variable {idle : TaskId} {b d : Board} {e : Event} {x : Nat}

theorem BoardStep.stocked (h : BoardStep idle b e d) (stocked : b.Stocked x) : d.Stocked x := by
  obtain ⟨bounded, scarce⟩ := stocked
  cases h.semaphoreEffect x with
  | kept _ _ same queue =>
    refine ⟨by rwa [same], fun some => ?_⟩
    rw [same]
    obtain ⟨t, ht⟩ := List.exists_mem_of_ne_nil _ some
    rcases queue with empty | fewer
    · exact empty
    · exact scarce (List.ne_nil_of_mem (fewer t ht))
  | taken t n _ token after queue =>
    refine ⟨by simp only [after]; omega, fun some => ?_⟩
    rw [queue] at some
    have := scarce some
    omega
  | handed next _ first same =>
    have empty := scarce (List.ne_nil_of_mem (Board.mem_of_first first))
    exact ⟨by rwa [same], fun _ => by rwa [same]⟩
  | posted _ nobody room after queue =>
    exact ⟨by simp only [after]; omega, fun some => absurd (queue ▸ nobody) some⟩
  | dropped _ nobody _ same queue =>
    exact ⟨by rwa [same], fun some => absurd (queue ▸ nobody) some⟩

theorem BoardStep.maxCount_kept (h : BoardStep idle b e d) :
    (d.semaphores x).maxCount = (b.semaphores x).maxCount := by
  cases h.semaphoreEffect x with
  | kept _ _ same | handed _ _ _ same | dropped _ _ _ same => rw [same]
  | taken _ _ _ _ after | posted _ _ _ after => rw [after]

theorem Board.tokens_of_quiet (quiet : e.releases x = false)
    (untaken : ∀ t n, e ≠ .call t (.semaphoreAcquire x n) (.returned .success)) (t : TaskId) :
    Board.tokens x t b e d = 0 := by
  unfold Board.tokens
  split
  · rename_i u z n
    refine if_neg fun here => untaken u n ?_
    rw [here.2]
  · simp [quiet]

theorem Board.tokens_of_release (release : e.releases x) (t : TaskId) :
    Board.tokens x t b e d =
      if t ∈ b.waiters (.semaphore x) ∧ t ∉ d.waiters (.semaphore x) then 1 else 0 := by
  unfold Board.tokens
  split
  · simp [Event.releases] at release
  · simp [release]

/-- What a step adds to the count, it does not grant, and the other way round. -/
theorem BoardStep.balance (h : BoardStep idle b e d) (sound : b.Sound idle)
    (stocked : b.Stocked x) :
    (b.semaphores x).count + Board.released x b e =
      (d.semaphores x).count + ∑ t, Board.tokens x t b e d := by
  cases h.semaphoreEffect x with
  | kept quiet untaken same =>
    have none : ∀ t, Board.tokens x t b e d = 0 := Board.tokens_of_quiet quiet untaken
    simp [none, same, Board.released, quiet]
  | taken u n event token after =>
    subst event
    have one : ∀ t, Board.tokens x t b (.call u (.semaphoreAcquire x n) (.returned .success)) d =
        if u = t then 1 else 0 := fun t => by simp [Board.tokens]
    simp only [one, Finset.sum_ite_eq, Finset.mem_univ, if_true, after, Board.released,
      Event.releases, Bool.false_eq_true, false_and, if_false]
    omega
  | handed next release first same queue =>
    have queued := Board.mem_of_first first
    have one : ∀ t, Board.tokens x t b e d = if next = t then 1 else 0 := fun t => by
      by_cases self : next = t
      · subst self
        have left : next ∉ (b.waiters (.semaphore x)).erase next :=
          (sound.distinct _).not_mem_erase
        simp [Board.tokens_of_release release, queue, queued, left]
      · simp [Board.tokens_of_release release, queue, self, List.mem_erase_of_ne (Ne.symm self)]
    have kept : Board.released x b e = 1 :=
      if_pos ⟨release, fun full => List.ne_nil_of_mem queued full.1⟩
    simp [one, same, kept]
  | posted release nobody room after queue =>
    have none : ∀ t, Board.tokens x t b e d = 0 := fun t => by
      simp [Board.tokens_of_release release, nobody]
    have kept : Board.released x b e = 1 := if_pos ⟨release, fun full => by omega⟩
    simp [none, after, kept]
  | dropped release nobody full same =>
    have none : ∀ t, Board.tokens x t b e d = 0 := fun t => by
      simp [Board.tokens_of_release release, nobody]
    have lost : Board.released x b e = 0 :=
      if_neg fun kept => kept.2 ⟨nobody, le_antisymm stocked.bounded full⟩
    simp [none, same, lost]

/-- What a waiting or woken task has been given by its call so far. -/
structure Board.Credited (x : Nat) (t : TaskId) (b : Board) (received : Nat) : Prop where
  waiting : t ∈ b.waiters (.semaphore x) → received = 0
  woken : ∀ n, b.Woken t (.semaphoreAcquire x n) →
    (b.tcb t).waitResult = .success ∧ received = 1 ∨
    (b.tcb t).waitResult = .timeout ∧ received = 0

/-- No token goes to a task that was not waiting, unless it took one itself. -/
theorem Board.tokens_of_busy {t : TaskId} (apart : t ∉ b.waiters (.semaphore x))
    (busy : ∀ n out, e ≠ .call t (.semaphoreAcquire x n) out) : Board.tokens x t b e d = 0 := by
  unfold Board.tokens
  split
  · rename_i u z n
    refine if_neg fun here => busy n (.returned .success) ?_
    rw [here.1, here.2]
  · simp [apart]

theorem Board.tokens_of_queued {t : TaskId} (queued : t ∈ d.waiters (.semaphore x))
    (busy : ∀ n out, e ≠ .call t (.semaphoreAcquire x n) out) : Board.tokens x t b e d = 0 := by
  unfold Board.tokens
  split
  · rename_i u z n
    refine if_neg fun here => busy n (.returned .success) ?_
    rw [here.1, here.2]
  · simp [queued]

theorem BoardStep.credited (h : BoardStep idle b e d) (sound : b.Sound idle) {t : TaskId}
    {received : Nat} (credited : b.Credited x t received)
    (busy : ∀ n out, e ≠ .call t (.semaphoreAcquire x n) out) :
    d.Credited x t (Board.tokens x t b e d + received) := by
  have after := h.sound sound
  constructor
  · intro queued
    rw [Board.tokens_of_queued queued busy, Nat.zero_add]
    apply credited.waiting
    obtain ⟨live, on'⟩ := after.queued _ _ queued
    obtain ⟨c, inside, on⟩ := after.waiting t _ live on'
    have before : b.inside t = some c := (h.of_inside inside).resolve_right fun parked => by
      cases c with
      | semaphoreAcquire z n =>
        obtain rfl : z = x := by simpa [Call.waitsOn] using on
        exact busy n _ parked
      | mutexAcquire | mutexRelease | semaphoreRelease | delay => simp [Call.waitsOn] at on
    have silent : ∀ c' out, e ≠ .resume t c' out := by
      rintro c' out rfl
      simp [h.of_resume.2.2.2] at inside
    cases off : (b.tcb t).waitQueue with
    | none =>
      have woken := (h.keeps_woken sound on ⟨before, off⟩ silent).1
      cases woken.off.symm.trans on'
    | some p =>
      have there := sound.parked p t (sound.callers t (by simp [before])) off
      exact sound.waits there before on ▸ there
  · intro n woken
    have left : t ∉ d.waiters (.semaphore x) := fun queued => by
      cases woken.off.symm.trans (after.queued _ _ queued).2
    cases h.wakes sound rfl woken with
    | before old kept =>
      have apart : t ∉ b.waiters (.semaphore x) := fun queued => by
        cases old.off.symm.trans (sound.queued _ _ queued).2
      rw [kept, Board.tokens_of_busy apart busy, Nat.zero_add]
      exact credited.woken n old
    | served queued _ result serves =>
      have one : Board.tokens x t b e d = 1 := by
        simp [Board.tokens_of_release (show e.releases x by simp [serves.1.releases]), queued, left]
      exact .inl ⟨result, by rw [one, credited.waiting queued]⟩
    | expired queued _ result tick _ =>
      have none : Board.tokens x t b e d = 0 := by simp [tick, Board.tokens, Event.releases]
      exact .inr ⟨result, by rw [none, credited.waiting queued]⟩

/-- A fresh call starts a fresh account. -/
theorem BoardStep.credited_call {t : TaskId} {n : UInt32} {out : Outcome}
    (h : BoardStep idle b (.call t (.semaphoreAcquire x n) out) d) (sound : b.Sound idle) :
    d.Credited x t (Board.tokens x t b (.call t (.semaphoreAcquire x n) out) d) := by
  obtain ⟨runs, free⟩ := h.of_call
  constructor
  · intro queued
    cases out with
    | returned code =>
      cases h with
      | hand posts | put posts | drop posts => rcases posts with posts | ⟨_, posts, _⟩ <;> cases posts
      | take => exact absurd queued ((sound.runs_apart runs).2.2 _)
      | pollSemaphore => simp [Board.tokens, Event.releases]
    | finished | parked => simp [Board.tokens, Event.releases]
  · intro n' woken
    cases h.wakes sound rfl woken with
    | before old => cases free.symm.trans old.inside
    | served _ inside | expired _ inside => simp [free] at inside

/-- Success is returned to a call that was given one token, a timeout to one given none. -/
theorem BoardStep.returns_tokens (h : BoardStep idle b e d) (sound : b.Sound idle) {t : TaskId}
    {n : UInt32} {code : Code} {received : Nat} (credited : b.Credited x t received)
    (returns : e.Returns t (.semaphoreAcquire x n) code) :
    let given := Board.tokens x t b e d +
      if e = .resume t (.semaphoreAcquire x n) (.returned code) then received else 0
    code = .success ∧ given = 1 ∨ code = .timeout ∧ given = 0 := by
  rcases returns with rfl | rfl
  · cases h with
    | hand posts | put posts | drop posts => rcases posts with posts | ⟨_, posts, _⟩ <;> cases posts
    | take => simp [Board.tokens]
    | pollSemaphore => simp [Board.tokens, Event.releases]
  · have woken := credited.woken n (h.woken_of_resume sound)
    obtain ⟨_, _, out, rfl⟩ := h.of_resume
    obtain rfl : code = (b.tcb t).waitResult := by simpa [Call.result] using out
    simpa [Board.tokens, Event.releases] using woken

end

section
variable {idle : TaskId} {past : History} {s : System} {x initial maxCount : Nat}

/-- A launched system in which `x` has been initialised and not used yet. -/
def LaunchedWith (x initial maxCount : Nat) (idle : TaskId) (s : System) : Prop :=
  Launched idle s ∧ s.kernel.semaphores x = ⟨initial, maxCount⟩

theorem LaunchedWith.trace (run : Run (LaunchedWith x initial maxCount idle) (Step idle) past s) :
    Trace idle past s := run.weaken (fun _ h => h.1) fun _ _ _ h => h

theorem Launched.stocked (launched : Launched idle s)
    (stock : s.kernel.semaphores x = ⟨initial, maxCount⟩) (fits : initial ≤ maxCount) :
    s.board.Stocked x := by
  have stock : s.board.semaphores x = ⟨initial, maxCount⟩ := stock
  exact ⟨by rwa [stock], fun some => absurd (launched.apart _) some⟩

theorem History.stocked (run : Run (LaunchedWith x initial maxCount idle) (Step idle) past s)
    (fits : initial ≤ maxCount) : s.board.Stocked x := by
  induction run with
  | start launched => exact launched.1.stocked launched.2 fits
  | next run step ih => exact (step.refines (LaunchedWith.trace run).sound).stocked ih

theorem History.maxCount_kept (run : Run (LaunchedWith x initial maxCount idle) (Step idle) past s) :
    (s.kernel.semaphores x).maxCount = maxCount := by
  induction run with
  | start launched => exact congrArg OsSemaphore.maxCount launched.2
  | next run step ih => exact (step.refines (LaunchedWith.trace run).sound).maxCount_kept.trans ih

theorem History.balance (run : Run (LaunchedWith x initial maxCount idle) (Step idle) past s)
    (fits : initial ≤ maxCount) :
    initial + past.released x = (s.kernel.semaphores x).count + past.granted x := by
  induction run with
  | start launched => simp [launched.2, released, granted]
  | @next past s s' e run step ih =>
    have sound := (LaunchedWith.trace run).sound
    have step := (step.refines sound).balance sound (stocked run fits)
    have before : s.board.semaphores x = s.kernel.semaphores x := rfl
    have after : s'.board.semaphores x = s'.kernel.semaphores x := rfl
    simp only [released, granted, List.map_cons, List.sum_cons] at ih ⊢
    rw [before, after] at step
    omega

theorem History.credited (run : Run (LaunchedWith x initial maxCount idle) (Step idle) past s)
    (t : TaskId) : s.board.Credited x t (past.received x t) := by
  induction run with
  | start launched =>
    refine ⟨fun queued => ?_, fun n woken => ?_⟩
    · simp [launched.1.apart] at queued
    · obtain ⟨⟨_, _, _, _, nobody⟩, _⟩ := launched
      cases (nobody t).symm.trans woken.inside
  | @next past s s' e run step ih =>
    have sound := (LaunchedWith.trace run).sound
    have board := step.refines sound
    simp only [received]
    split
    · rename_i u z n out event
      split
      · rename_i here
        obtain ⟨rfl, rfl⟩ := here
        exact board.credited_call sound
      · rename_i other
        apply board.credited sound ih
        intro n' out'
        rintro ⟨⟩
        exact other ⟨rfl, rfl⟩
    · rename_i other
      exact board.credited sound ih fun n out event => other t x n out event

theorem History.received_of_returns {y : Transition System Event} {older : History} {t : TaskId}
    {n : UInt32} {code : Code} (returns : y.event.Returns t (.semaphoreAcquire x n) code) :
    received x t (y :: older) = Board.tokens x t y.pre.board y.event y.post.board +
      if y.event = .resume t (.semaphoreAcquire x n) (.returned code) then received x t older
      else 0 := by
  rcases returns with event | event
  · simp [received, event]
  · simp [received, event]

/-- The result that a task was woken with stands until the task returns. -/
theorem Trace.result_kept {recent older : History} {u : System} (early : Trace idle older u)
    (late : Run (· = u) (Step idle) recent s) {t : TaskId} {c : Call} {o : Waitable}
    (on : c.waitsOn = some o) (woken : u.board.Woken t c)
    (silent : ∀ z ∈ recent, ∀ c out, z.event ≠ .resume t c out) :
    s.board.Woken t c ∧ (s.kernel.osTasks t).waitResult = (u.kernel.osTasks t).waitResult := by
  induction late with
  | start same =>
    subst same
    exact ⟨woken, rfl⟩
  | @next recent s s' e late step ih =>
    have trace : Trace idle (recent ++ older) s := early.append late
    obtain ⟨before, same⟩ := ih fun z hz => silent z (List.mem_cons_of_mem _ hz)
    have kept := (step.refines trace.sound).keeps_woken trace.sound on before
      (silent _ List.mem_cons_self)
    exact ⟨kept.1, kept.2.trans same⟩

/-- **Token conservation.** -/
theorem token_conservation
    (run : Run (LaunchedWith x initial maxCount idle) (Step idle) past s)
    (fits : initial ≤ maxCount) :
    (s.kernel.semaphores x).count ≤ maxCount ∧
    (s.kernel.waiters (.semaphore x) ≠ [] → (s.kernel.semaphores x).count = 0) ∧
    initial + past.released x = (s.kernel.semaphores x).count + past.granted x ∧
    (∀ recent y older t n code, past = recent ++ y :: older →
      y.event.Returns t (.semaphoreAcquire x n) code →
      code ≠ .fail ∧ (code = .success ↔ History.received x t (y :: older) = 1) ∧
        (code = .timeout ↔ History.received x t (y :: older) = 0)) ∧
    (∀ recent y older t, past = recent ++ y :: older →
      t ∈ y.pre.kernel.waiters (.semaphore x) → t ∉ y.post.kernel.waiters (.semaphore x) →
      (∀ z ∈ recent, ∀ c out, z.event ≠ .resume t c out) →
      (s.kernel.osTasks t).waitResult = (y.post.kernel.osTasks t).waitResult) := by
  obtain ⟨bounded, scarce⟩ := History.stocked run fits
  refine ⟨?bounded, scarce, History.balance run fits, ?returns, ?stored⟩
  case bounded =>
    have bound : (s.board.semaphores x).maxCount = maxCount := History.maxCount_kept run
    rw [bound] at bounded
    exact bounded
  case returns =>
    rintro recent y older t n code rfl returns
    obtain ⟨before, step, _⟩ := run.transition
    have sound := (LaunchedWith.trace before).sound
    have given := (step.refines sound).returns_tokens sound (History.credited before t) returns
    rw [History.received_of_returns returns]
    rcases given with ⟨rfl, given⟩ | ⟨rfl, given⟩
    · simp [given]
    · simp [given]
  case stored =>
    rintro recent y older t rfl queued left silent
    obtain ⟨before, step, late⟩ := run.transition
    have sound := (LaunchedWith.trace before).sound
    obtain ⟨c, on, woken⟩ := (step.refines sound).woken_of_left sound queued left
    exact (Trace.result_kept (LaunchedWith.trace (.next before step)) late on woken silent).2

/-- Two tasks wait, three posts come: two tokens are handed over and one is kept. -/
theorem token_conservation_handed : ∃ past s,
    Run (LaunchedWith 0 0 1 0) (Step 0) past s ∧ History.released 0 past = 3 ∧
      History.granted 0 past = 2 ∧ (s.kernel.semaphores 0).count = 1 := by
  obtain ⟨past, s, run, counts⟩ := rehearse_run
    (show rehearse 0 (fun _ => ⟨0, 1⟩) [0, 1, 2] (fun _ _ => true)
      (fun past _ => History.released 0 past = 3 ∧ History.granted 0 past = 2)
      [.call 2 (.semaphoreAcquire 0 5) .parked, .pass,
        .call 1 (.semaphoreAcquire 0 waitForever) .parked, .pass, .tick, .post 0, .pass,
        .resume 2 (.semaphoreAcquire 0 5) (.returned .success), .post 0, .post 0] by
      decide +kernel)
  have run' : Run (LaunchedWith 0 0 1 0) (Step 0) past s :=
    run.weaken (fun _ h => ⟨h.launched, by simp [h.semaphores]⟩) fun _ _ _ h => h.1
  obtain ⟨released, granted⟩ := of_decide_eq_true counts
  have balance := (token_conservation run' (by decide)).2.2.1
  refine ⟨past, s, run', released, granted, ?_⟩
  omega

end

end Sentinel
