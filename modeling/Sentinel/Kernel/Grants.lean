import Mathlib.Data.List.Pairwise
import Sentinel.Kernel.Boot
import Sentinel.Kernel.Effects

/-! Who is served next. The place of a task in a wait queue stands for the moment
at which it blocked, whatever the ticks and the releases take out around it. -/

namespace Sentinel

open Runs (Transition Run)

/-- The event releases the mutex or the semaphore. -/
def Event.frees : Waitable → Event → Bool
  | .mutex m, .call _ (.mutexRelease z) _ => z = m
  | .semaphore x, e => e.releases x
  | _, _ => false

/-- The task blocks. -/
def Event.parks (t : TaskId) : Event → Bool
  | .call u _ out => u = t ∧ out = .parked
  | _ => false

/-- The step at which `t` last blocked, counted from the launch. -/
def arrival (t : TaskId) : History → Nat
  | [] => 0
  | x :: older => if x.event.parks t then older.length + 1 else arrival t older

/-- What a step can do to one wait queue. -/
inductive QueueEffect (o : Waitable) (b : Board) (e : Event) (d : Board) : Prop
  | joined (t : TaskId) (c : Call) (event : e = .call t c .parked) (on : c.waitsOn = some o)
      (after : d.waiters o = b.waiters o ++ [t])
  | thinned (after : (d.waiters o).Sublist (b.waiters o))

/-- The step gives `o` to `next` and leaves every other waiter as it is. -/
structure Grants (o : Waitable) (next : TaskId) (b d : Board) : Prop where
  queue : d.waiters o = (b.waiters o).erase next
  ready : (d.tcb next).state = .ready
  waitQueue : (d.tcb next).waitQueue = none
  waitResult : (d.tcb next).waitResult = .success
  others : ∀ t ∈ b.waiters o, t ≠ next → d.tcb t = b.tcb t
  mutex : ∀ m, o = .mutex m → d.mutexes m = ⟨1, some next⟩
  semaphore : ∀ x, o = .semaphore x → d.semaphores x = b.semaphores x

section
variable {idle : TaskId} {b d : Board} {e : Event} {o : Waitable}

open Board in
theorem BoardStep.queueEffect (h : BoardStep idle b e d) (o : Waitable) : QueueEffect o b e d := by
  cases h with
  | lock | reenter | pollMutex | take | pollSemaphore | put | drop | sleep | noSleep | resume
    | pass => exact .thinned (.refl _)
  | @waitMutex t m n owner =>
    by_cases here : o = .mutex m
    · subst here
      exact .joined t _ rfl rfl (by simp [park, lend])
    · exact .thinned (by simp [park, lend, here])
  | @waitSemaphore t x n =>
    by_cases here : o = .semaphore x
    · subst here
      exact .joined t _ rfl rfl (by simp [park])
    · exact .thinned (by simp [park, here])
  | unlock => exact .thinned (by simp [setMutex])
  | handOver =>
    apply QueueEffect.thinned
    simpa [grant, setMutex] using List.erase_sublist
  | hand => exact .thinned List.erase_sublist
  | tick => exact .thinned List.filter_sublist

namespace Board

theorem Posts.frees {x : Nat} (posts : b.Posts e x) (frees : e.frees o) : o = .semaphore x := by
  cases o with
  | mutex m => rcases posts with rfl | ⟨t, rfl, _⟩ <;> cases frees
  | semaphore z =>
    have here : e.releases z = true := frees
    rw [posts.releases] at here
    rw [of_decide_eq_true here]

theorem Sound.settle_waiter (sound : b.Sound idle) {m : Nat} {t : TaskId}
    (queued : t ∈ b.waiters (.mutex m)) : (b.settle m).tcb t = b.tcb t := by
  rw [settle_tcb, if_neg fun own => (sound.owner m t own).2 queued]

end Board

open Board in
/-- A release that finds waiters serves the one that the scan of the queue finds first. -/
theorem BoardStep.grants (h : BoardStep idle b e d) (sound : b.Sound idle) (frees : e.frees o)
    (waiting : b.waiters o ≠ []) {pos : TaskId → Nat}
    (rises : (b.waiters o).Pairwise fun u v => pos u < pos v) :
    ∃ next ∈ b.waiters o, Grants o next b d ∧ ∀ t ∈ b.waiters o,
      b.priority t ≤ b.priority next ∧ (b.priority t = b.priority next → pos next ≤ pos t) := by
  cases h with
  | lock | reenter | pollMutex | waitMutex | take | pollSemaphore | waitSemaphore | sleep | noSleep
    | resume | tick | pass => cases o <;> cases frees
  | @unlock t m runs free nobody =>
    cases o with
    | mutex z =>
      obtain rfl : m = z := of_decide_eq_true frees
      exact absurd nobody waiting
    | semaphore => cases frees
  | put posts nobody | drop posts nobody =>
    obtain rfl := posts.frees frees
    exact absurd nobody waiting
  | @handOver t m next runs free found =>
    cases o with
    | mutex z =>
      obtain rfl : m = z := of_decide_eq_true frees
      obtain ⟨queued, best⟩ := Cells.argmax_nearest (by simpa using rises) found
      rw [settle_waiters] at queued best
      have rank : ∀ w ∈ b.waiters (.mutex m), (b.settle m).priority w = b.priority w :=
        fun w there => congrArg Tcb.currentPriority (sound.settle_waiter there)
      refine ⟨next, queued, ⟨?_, ?_, ?_, ?_, ?_, ?_, ?_⟩, ?_⟩
      · simp [grant, setMutex]
      · simp [grant]
      · simp [grant]
      · simp [grant]
      · intro w there other
        simpa [grant, setMutex, other] using sound.settle_waiter there
      · intro z same
        obtain rfl := Waitable.mutex.inj same
        simp [grant, setMutex, sound.locked_of_waiter queued]
      · intro x other
        cases other
      · intro w there
        rw [← rank w there, ← rank next queued]
        exact best w there
    | semaphore => cases frees
  | @hand e x next posts found =>
    obtain rfl := posts.frees frees
    obtain ⟨queued, best⟩ := Cells.argmax_nearest rises found
    refine ⟨next, queued, ⟨rfl, ?_, ?_, ?_, ?_, ?_, ?_⟩, best⟩
    · simp [grant]
    · simp [grant]
    · simp [grant]
    · intro w there other
      simp [grant, other]
    · intro m other
      cases other
    · intro z same
      rfl

end

theorem Event.parks_iff {e : Event} {t : TaskId} :
    e.parks t = true ↔ ∃ c, e = .call t c .parked := by
  cases e with
  | call u c out => simp [parks, and_comm]
  | resume | post | tick | pass => simp [parks]

section
variable {idle : TaskId} {b d : Board} {e : Event} {o : Waitable} {t : TaskId}

theorem BoardStep.joins {c : Call} (h : BoardStep idle b (.call t c .parked) d)
    (on : c.waitsOn = some o) : t ∈ d.waiters o := by
  cases h with
  | hand posts | put posts | drop posts => rcases posts with posts | ⟨_, posts, _⟩ <;> cases posts
  | waitMutex | waitSemaphore =>
    obtain rfl := Option.some.inj on
    simp [Board.park]
  | sleep => cases on

/-- A task that waits does not block again. -/
theorem BoardStep.quiet (h : BoardStep idle b e d) (sound : b.Sound idle)
    (queued : t ∈ b.waiters o) : e.parks t = false := by
  by_contra parks
  obtain ⟨c, rfl⟩ := Event.parks_iff.mp (Bool.eq_true_of_not_eq_false parks)
  exact (sound.runs_apart h.of_call.1).2.2 o queued

/-- A task that leaves a queue between two ticks is taken off by a release. -/
theorem BoardStep.frees_of_left (h : BoardStep idle b e d) (sound : b.Sound idle)
    (untimed : e ≠ .tick) (queued : t ∈ b.waiters o) (left : t ∉ d.waiters o) : e.frees o := by
  obtain ⟨c, on, woken⟩ := h.woken_of_left sound queued left
  cases h.wakes sound on woken with
  | before woken =>
    have here := (sound.queued o t queued).2
    cases here.symm.trans woken.off
  | expired _ _ _ tick => exact absurd tick untimed
  | served _ _ _ serves =>
    cases o with
    | mutex m =>
      obtain ⟨u, rfl, _⟩ := serves
      simp [Event.frees]
    | semaphore x => simp [Event.frees, serves.1.releases]

end

section
variable {idle : TaskId} {past recent older : History} {s u : System} {t : TaskId}
  {x : Transition System Event}

theorem arrival_le (t : TaskId) (past : History) : arrival t past ≤ past.length := by
  induction past with
  | nil => exact Nat.le_refl 0
  | cons x older ih =>
    simp only [arrival, List.length_cons]
    split
    · exact Nat.le_refl _
    · exact Nat.le_succ_of_le ih

theorem arrival_quiet (quiet : ∀ x ∈ recent, x.event.parks t = false) :
    arrival t (recent ++ older) = arrival t older := by
  induction recent with
  | nil => rfl
  | cons x recent ih =>
    have here := quiet x List.mem_cons_self
    simpa [arrival, here] using ih fun y there => quiet y (List.mem_cons_of_mem _ there)

theorem arrival_after (parks : x.event.parks t) :
    older.length < arrival t (recent ++ x :: older) := by
  induction recent with
  | nil => simp [arrival, parks]
  | cons y recent ih =>
    simp only [List.cons_append, arrival]
    split
    · simp only [List.length_append, List.length_cons]
      omega
    · exact ih

/-- A queue lists its tasks in the order in which they blocked. -/
theorem Trace.arrivals (run : Trace idle past s) (o : Waitable) :
    (s.board.waiters o).Pairwise fun u v => arrival u past < arrival v past := by
  induction run with
  | start h =>
    rw [h.apart]
    exact .nil
  | @next past s s' e run step ih =>
    have sound : s.board.Sound idle := Trace.sound run
    have move := step.refines sound
    have same : ∀ u ∈ s.board.waiters o, arrival u (⟨s, e, s'⟩ :: past) = arrival u past := by
      intro u queued
      simp [arrival, move.quiet sound queued]
    have old : (s.board.waiters o).Pairwise fun u v =>
        arrival u (⟨s, e, s'⟩ :: past) < arrival v (⟨s, e, s'⟩ :: past) := by
      apply ih.imp_of_mem
      intro u v hu hv before
      rwa [same u hu, same v hv]
    cases move.queueEffect o with
    | joined t c event on after =>
      rw [after]
      apply List.pairwise_append.mpr
      refine ⟨old, List.pairwise_singleton _ _, ?_⟩
      intro u queued v new
      obtain rfl := List.mem_singleton.mp new
      have now : arrival v (⟨s, e, s'⟩ :: past) = past.length + 1 := by
        simp [arrival, Event.parks_iff.mpr ⟨c, event⟩]
      rw [same u queued, now]
      exact Nat.lt_succ_of_le (arrival_le u past)
    | thinned after => exact old.sublist after

/-- Whoever is still in a queue keeps its place among those who are, and newcomers
stand behind. -/
theorem Trace.keeps_order (early : Trace idle older u)
    (late : Run (· = u) (Step idle) recent s) (o : Waitable) :
    ∃ kept arrived, s.board.waiters o = kept ++ arrived ∧ kept.Sublist (u.board.waiters o) ∧
      (∀ t ∈ kept, ∀ x ∈ recent, x.event.parks t = false) ∧
      ∀ t ∈ arrived, ∃ x ∈ recent, x.event.parks t := by
  induction late with
  | start same =>
    subst same
    exact ⟨_, [], (List.append_nil _).symm, .refl _, by simp, by simp⟩
  | @next recent s s' e late step ih =>
    have sound : s.board.Sound idle := Trace.sound (early.append late)
    have move := step.refines sound
    obtain ⟨kept, arrived, queue, order, quiet, parked⟩ := ih
    have quiet' : ∀ t ∈ kept, ∀ x ∈ (⟨s, e, s'⟩ : Transition System Event) :: recent,
        x.event.parks t = false := by
      intro t there x step
      rcases List.mem_cons.mp step with rfl | before
      · exact move.quiet sound (o := o) (queue ▸ List.mem_append_left _ there)
      · exact quiet t there x before
    have parked' : ∀ t ∈ arrived, ∃ x ∈ (⟨s, e, s'⟩ : Transition System Event) :: recent,
        x.event.parks t := by
      intro t there
      obtain ⟨x, before, parks⟩ := parked t there
      exact ⟨x, List.mem_cons_of_mem _ before, parks⟩
    cases move.queueEffect o with
    | joined t c event on after =>
      refine ⟨kept, arrived ++ [t], ?_, order, quiet', ?_⟩
      · rw [after, queue, List.append_assoc]
      · intro v there
        rcases List.mem_append.mp there with before | new
        · exact parked' v before
        · obtain rfl := List.mem_singleton.mp new
          exact ⟨_, List.mem_cons_self, Event.parks_iff.mpr ⟨c, event⟩⟩
    | thinned after =>
      rw [queue] at after
      obtain ⟨stay, stay', split, fewer, fewer'⟩ := List.sublist_append_iff.mp after
      exact ⟨stay, stay', split, fewer.trans order,
        fun v there => quiet' v (fewer.subset there),
        fun v there => parked' v (fewer'.subset there)⟩

/-- A task in a queue stays there and blocks nowhere else, or is taken off at some step. -/
theorem Trace.stays {o : Waitable} (early : Trace idle older u)
    (late : Run (· = u) (Step idle) recent s) (queued : t ∈ u.board.waiters o) :
    (t ∈ s.board.waiters o ∧ ∀ x ∈ recent, x.event.parks t = false) ∨
      ∃ x ∈ recent, t ∈ x.pre.board.waiters o ∧ t ∉ x.post.board.waiters o := by
  induction late with
  | start same => exact .inl ⟨same ▸ queued, by simp⟩
  | @next recent s s' e late step ih =>
    rcases ih with ⟨still, quiet⟩ | ⟨x, there, left⟩
    · by_cases after : t ∈ s'.board.waiters o
      · have sound : s.board.Sound idle := Trace.sound (early.append late)
        refine .inl ⟨after, ?_⟩
        intro x there
        rcases List.mem_cons.mp there with rfl | before
        · exact (step.refines sound).quiet sound still
        · exact quiet x before
      · exact .inr ⟨_, List.mem_cons_self, still, after⟩
    · exact .inr ⟨x, List.mem_cons_of_mem _ there, left⟩

theorem Trace.move (run : Trace idle past s) (there : x ∈ past) :
    x.pre.board.Sound idle ∧ BoardStep idle x.pre.board x.event x.post.board := by
  obtain ⟨_, before, step⟩ := run.mem there
  exact ⟨Trace.sound before, step.refines (Trace.sound before)⟩

/-- The priority that decides who is served first. -/
abbrev System.priority (s : System) (t : TaskId) : Nat := (s.kernel.osTasks t).currentPriority

/-- **Grant order.** A release serves the waiter of greatest priority, among equals the
one that blocked first; those who stay in a queue keep their order; so of two waiters of
equal priority the second is not served before the first has been. -/
theorem grant_order {e : Event} {s' : System} (run : Trace idle past s) (step : Step idle s e s')
    (o : Waitable) :
    (e.frees o → s.kernel.waiters o ≠ [] → ∃ next ∈ s.kernel.waiters o,
      Grants o next s.board s'.board ∧ ∀ t ∈ s.kernel.waiters o,
        s.priority t ≤ s.priority next ∧
          (s.priority t = s.priority next → t ≠ next → arrival next past < arrival t past)) ∧
    (∀ recent x older, past = recent ++ x :: older →
      ∃ kept arrived, s.kernel.waiters o = kept ++ arrived ∧
        kept.Sublist (x.post.kernel.waiters o) ∧
        (∀ t ∈ kept, ∀ y ∈ recent, y.event.parks t = false) ∧
        ∀ t ∈ arrived, ∃ y ∈ recent, y.event.parks t) ∧
    ∀ recent y middle z older a b c, past = recent ++ y :: middle ++ z :: older →
      z.event = .call a c .parked → c.waitsOn = some o → y.event.parks b →
      (∀ x ∈ recent ++ y :: middle, x.event = .tick →
        a ∈ x.pre.kernel.waiters o → a ∈ x.post.kernel.waiters o) →
      s.priority a = s.priority b →
      e.frees o → b ∈ s.kernel.waiters o → b ∉ s'.kernel.waiters o →
      ∃ x ∈ recent ++ y :: middle, x.event.frees o ∧
        a ∈ x.pre.kernel.waiters o ∧ a ∉ x.post.kernel.waiters o := by
  have sound : s.board.Sound idle := Trace.sound run
  have served : e.frees o → s.kernel.waiters o ≠ [] → ∃ next ∈ s.kernel.waiters o,
      Grants o next s.board s'.board ∧ ∀ t ∈ s.kernel.waiters o,
        s.priority t ≤ s.priority next ∧
          (s.priority t = s.priority next → t ≠ next → arrival next past < arrival t past) := by
    intro frees waiting
    have rises := run.arrivals o
    obtain ⟨next, queued, grants, best⟩ := (step.refines sound).grants sound frees waiting rises
    refine ⟨next, queued, grants, ?_⟩
    intro t there
    obtain ⟨most, nearest⟩ := best t there
    refine ⟨most, ?_⟩
    intro tie other
    have apart : (s.board.waiters o).Pairwise fun u v => arrival u past ≠ arrival v past :=
      rises.imp Nat.ne_of_lt
    have symm : Std.Symm fun u v => arrival u past ≠ arrival v past := ⟨fun _ _ => Ne.symm⟩
    exact lt_of_le_of_ne (nearest tie) (apart.forall queued there (Ne.symm other))
  refine ⟨served, ?_, ?_⟩
  · intro recent x older split
    subst split
    obtain ⟨before, step, late⟩ := run.transition
    exact Trace.keeps_order (.next before step) late o
  · intro recent y middle z older a b c split first on parks patient tie frees queued left
    subst split
    obtain ⟨before, step₁, late⟩ := run.transition
    rw [first] at step₁
    have joined := (step₁.refines (Trace.sound before)).joins on
    rcases Trace.stays (.next before step₁) late joined with ⟨waits, quiet⟩ | ⟨x, there, here, gone⟩
    · exfalso
      obtain ⟨next, _, grants, best⟩ := served frees (List.ne_nil_of_mem queued)
      have chosen : b = next := by
        by_contra other
        apply left
        have stays : b ∈ s'.board.waiters o := by
          rw [grants.queue]
          exact (List.mem_erase_of_ne other).mpr queued
        exact stays
      subst chosen
      have other : a ≠ b := by
        rintro rfl
        rw [quiet y (by simp)] at parks
        cases parks
      have ahead := (best a waits).2 tie other
      have late : arrival a (recent ++ y :: middle ++ z :: older) = older.length + 1 := by
        rw [arrival_quiet quiet]
        simp [arrival, Event.parks_iff.mpr ⟨c, first⟩]
      rw [late, List.append_assoc, List.cons_append] at ahead
      have later : (middle ++ z :: older).length <
          arrival b (recent ++ y :: (middle ++ z :: older)) := arrival_after parks
      simp only [List.length_append, List.length_cons] at later
      omega
    · have untimed : x.event ≠ .tick := fun tick => gone (patient x there tick here)
      obtain ⟨sound, move⟩ := Trace.move run (List.mem_append_left _ there)
      exact ⟨x, there, move.frees_of_left sound untimed here gone, here, gone⟩

end

/-- Tasks 1 and 2, of the same priority, wait for a token. The first to block gets it. -/
theorem grant_order_tied : ∃ past s s', Trace 0 past s ∧ Step 0 s (.post 0) s' ∧
    s.kernel.waiters (.semaphore 0) = [1, 2] ∧ s.priority 1 = s.priority 2 ∧
      Grants (.semaphore 0) 1 s.board s'.board := by
  obtain ⟨past, s, run, played⟩ := rehearse_run
    (show rehearse 0 (fun _ => ⟨0, 1⟩) [0, 1, 1] (fun _ _ => true)
      (fun past s => s.kernel.waiters (.semaphore 0) = [1, 2] ∧ s.priority 1 = s.priority 2 ∧
        arrival 1 past < arrival 2 past)
      [.call 1 (.semaphoreAcquire 0 5) .parked, .pass,
        .call 2 (.semaphoreAcquire 0 waitForever) .parked, .pass] by decide +kernel)
  obtain ⟨queue, tie, before⟩ := of_decide_eq_true played
  have trace : Trace 0 past s := run.weaken (fun _ h => h.launched) fun _ _ _ h => h.1
  obtain ⟨serves, _⟩ := grant_order trace (.post 0) (.semaphore 0)
  obtain ⟨next, there, grants, best⟩ := serves rfl (by simp [queue])
  refine ⟨past, s, _, trace, .post 0, queue, tie, ?_⟩
  rw [queue] at there best
  rcases List.mem_pair.mp there with rfl | rfl
  · exact grants
  · have := (best 1 List.mem_cons_self).2 tie (by decide)
    omega

end Sentinel
