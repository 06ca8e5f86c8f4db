import Mathlib.Logic.Relation
import Sentinel.Mutex.Inheritance

/-! Inheritance along chains of tasks that wait while they own mutexes. A donation is
made when a task blocks and reaches the owner only, so it does not travel on to
the mutex that this owner itself waits for. -/

namespace Sentinel

open Runs (Transition Run)

/-- Only owners release, and only a mutex that is the last one they own. -/
def ReleasesLast (s : System) (e : Event) : Prop :=
  ∀ t m out, e = .call t (.mutexRelease m) out → (s.kernel.mutexes m).owner = some t ∧
    ∀ m', m' ≠ m → (s.kernel.mutexes m').owner ≠ some t

/-- The priority that `t` had when it last blocked. -/
def entered (t : TaskId) : History → Nat
  | [] => 0
  | x :: past =>
    match x.event with
    | .call u _ .parked => if u = t then (x.pre.kernel.osTasks t).currentPriority else entered t past
    | _ => entered t past

/-- The waiters of a mutex still have the priority `f` they came with, and its owner
runs at least at that. -/
structure Board.Covers (f : TaskId → Nat) (b : Board) : Prop where
  waiter : ∀ m w, w ∈ b.waiters (.mutex m) → f w ≤ b.priority w
  owner : ∀ m u w, (b.mutexes m).owner = some u → w ∈ b.waiters (.mutex m) → f w ≤ b.priority u

section
variable {idle : TaskId} {b d : Board} {e : Event} {f g : TaskId → Nat}

/-- Nobody joins a queue. An owner is the same as before and as urgent, or else covers the
waiters anyway. -/
theorem Board.Covers.shrink (covers : b.Covers f)
    (kept : ∀ m w, w ∈ d.waiters (.mutex m) →
      w ∈ b.waiters (.mutex m) ∧ g w = f w ∧ d.priority w = b.priority w)
    (owner : ∀ m u w, (d.mutexes m).owner = some u → w ∈ d.waiters (.mutex m) →
      (b.mutexes m).owner = some u ∧ d.priority u = b.priority u ∨ f w ≤ d.priority u) :
    d.Covers g := by
  constructor
  · intro m w queued
    obtain ⟨old, same, priority⟩ := kept m w queued
    rw [same, priority]
    exact covers.waiter m w old
  · intro m u w own queued
    obtain ⟨old, same, _⟩ := kept m w queued
    rw [same]
    cases owner m u w own queued with
    | inl still =>
      rw [still.2]
      exact covers.owner m u w still.1 old
    | inr covered => exact covered

theorem BoardStep.covers (h : BoardStep idle b e d) (sound : b.Sound idle)
    (rule : ∀ t m, e = .call t (.mutexRelease m) .finished → (b.mutexes m).owner = some t ∧
      ∀ m', m' ≠ m → (b.mutexes m').owner ≠ some t)
    (parks : ∀ t c, e = .call t c .parked → g t = b.priority t)
    (others : ∀ t, (∀ c, e ≠ .call t c .parked) → g t = f t)
    (covers : b.Covers f) : d.Covers g := by
  have asleep : ∀ {t m}, t ∈ b.waiters (.mutex m) → ¬ b.Runs t := fun queued runs =>
    (sound.runs_apart runs).2.2 _ queued
  have kept : ∀ {w m}, w ∈ b.waiters (.mutex m) → g w = f w := fun queued =>
    others _ fun c event => asleep queued (by
      subst event
      exact h.of_call.1)
  cases h.priorityEffect sound with
  | still _ _ priority mutexes queues =>
    apply covers.shrink
    · intro m w queued
      rw [queues] at queued
      exact ⟨queued, kept queued, congrFun priority w⟩
    · intro m u w own _
      exact .inl ⟨mutexes ▸ own, congrFun priority u⟩
  | ticked _ priority mutexes queues =>
    apply covers.shrink
    · intro m w queued
      rw [queues] at queued
      have queued := List.mem_of_mem_filter queued
      exact ⟨queued, kept queued, congrFun priority w⟩
    · intro m u w own _
      exact .inl ⟨mutexes ▸ own, congrFun priority u⟩
  | locked m t n event opened runs priority mutexes queues =>
    apply covers.shrink
    · intro m' w queued
      rw [queues] at queued
      exact ⟨queued, kept queued, congrFun priority w⟩
    · intro m' u w own queued
      by_cases here : m' = m
      · rw [here, queues, sound.ownerless m (sound.owner_of_opened opened)] at queued
        cases queued
      · rw [mutexes, Function.update_of_ne here] at own
        exact .inl ⟨own, congrFun priority u⟩
  | waited m t n owner event runs held other priority mutexes queues =>
    have more : ∀ x, b.priority x ≤ d.priority x := fun x => by
      rw [priority]
      by_cases self : x = owner
      · simp [self]
      · simp [self]
    refine ⟨fun m' w hw => ?_, fun m' u w own hw => ?_⟩
    · rcases Board.mem_of_joined queues hw with old | ⟨_, rfl⟩
      · rw [kept old]
        exact (covers.waiter m' w old).trans (more w)
      · rw [parks w _ event]
        exact more w
    · rw [mutexes] at own
      rcases Board.mem_of_joined queues hw with old | ⟨rfl, rfl⟩
      · rw [kept old]
        exact (covers.owner m' u w own old).trans (more u)
      · obtain rfl : owner = u := Option.some.inj (held.symm.trans own)
        rw [parks w _ event, priority, Function.update_self]
        exact le_max_right _ _
  | unlocked m t event runs nobody priority mutexes queues =>
    obtain ⟨owner, last⟩ := rule t m event
    have same : ∀ x, x ≠ t → d.priority x = b.priority x := fun x ne => by
      rw [priority, Board.settle_priority, owner, if_neg (by simpa using ne.symm)]
    apply covers.shrink
    · intro m' w queued
      rw [queues] at queued
      exact ⟨queued, kept queued, same w fun self => asleep queued (self ▸ runs)⟩
    · intro m' u w own _
      by_cases here : m' = m
      · simp [mutexes, here] at own
      · rw [mutexes, Function.update_of_ne here] at own
        exact .inl ⟨own, same u fun self => last m' here (self ▸ own)⟩
  | handed m t next event runs first priority mutexes queues =>
    obtain ⟨owner, last⟩ := rule t m event
    obtain ⟨queued, most⟩ := Board.first_settle sound first
    have same : ∀ x, x ≠ t → d.priority x = b.priority x := fun x ne => by
      rw [priority, Board.settle_priority, owner, if_neg (by simpa using ne.symm)]
    apply covers.shrink
    · intro m' w there
      rw [queues] at there
      have there := List.mem_of_mem_erase there
      exact ⟨there, kept there, same w fun self => asleep there (self ▸ runs)⟩
    · intro m' u w own there
      by_cases here : m' = m
      · subst here
        obtain rfl : next = u := by simpa [mutexes] using own
        rw [queues] at there
        have there := List.mem_of_mem_erase there
        right
        rw [same next fun self => asleep queued (self ▸ runs)]
        exact (covers.waiter m' w there).trans (most w there)
      · rw [mutexes, Function.update_of_ne here] at own
        exact .inl ⟨own, same u fun self => last m' here (self ▸ own)⟩

end

section
variable {idle : TaskId} {past : History} {s : System}

theorem ReleasesLast.covers (run : Run (LaunchedUnlocked idle) (Ruled ReleasesLast idle) past s) :
    s.board.Covers fun t => entered t past := by
  induction run with
  | start launched => exact ⟨fun _ _ _ => Nat.zero_le _, fun _ _ _ _ _ => Nat.zero_le _⟩
  | next run step ih =>
    have sound := (LaunchedUnlocked.trace run).sound
    refine (step.1.refines sound).covers sound (fun t m event => step.2 t m _ event)
      (fun t c event => ?_) (fun t quiet => ?_) ih
    · simp [entered, event]
      rfl
    · simp only [entered]
      split
      · rename_i u c
        exact if_neg fun self => quiet c (by rw [self])
      · rfl

/-- Task `w` waits for a mutex of `u` and has not been lent anything since it blocked. -/
def BlockedBehind (past : History) (s : System) (w u : TaskId) : Prop :=
  (∃ m, (s.kernel.mutexes m).owner = some u ∧ w ∈ s.kernel.waiters (.mutex m)) ∧
    (s.kernel.osTasks w).currentPriority = entered w past

/-- **Inheritance along chains**, as far as no link was boosted after it had blocked. -/
theorem chain_inherits (run : Run (LaunchedUnlocked idle) (Ruled ReleasesLast idle) past s) :
    (∀ m owner w, (s.kernel.mutexes m).owner = some owner → w ∈ s.kernel.waiters (.mutex m) →
      entered w past ≤ (s.kernel.osTasks owner).currentPriority) ∧
    (∀ w u, Relation.TransGen (BlockedBehind past s) w u →
      (s.kernel.osTasks w).currentPriority ≤ (s.kernel.osTasks u).currentPriority) := by
  have covers := ReleasesLast.covers run
  have link : ∀ {w u}, BlockedBehind past s w u →
      (s.kernel.osTasks w).currentPriority ≤ (s.kernel.osTasks u).currentPriority := by
    rintro w u ⟨⟨m, own, queued⟩, unboosted⟩
    rw [unboosted]
    exact covers.owner m u w own queued
  refine ⟨covers.owner, fun w u chain => ?_⟩
  induction chain with
  | single h => exact link h
  | tail _ h ih => exact ih.trans (link h)

def Event.unlocks : Event → Bool
  | .call _ (.mutexRelease _) _ => true
  | _ => false

/-- Task 2 waits for task 1, and then task 3 waits for task 2. -/
theorem blocked_in_a_row : ∃ past s, Run (LaunchedUnlocked 0) (Ruled ReleasesLast 0) past s ∧
    ((s.kernel.mutexes 1).owner = some 1 ∧ s.kernel.waiters (.mutex 1) = [2]) ∧
    ((s.kernel.mutexes 0).owner = some 2 ∧ s.kernel.waiters (.mutex 0) = [3]) ∧
    ((s.kernel.osTasks 1).currentPriority = 2 ∧ (s.kernel.osTasks 2).currentPriority = 3) ∧
    (s.kernel.osTasks 3).currentPriority = entered 3 past := by
  obtain ⟨past, s, run, final⟩ := rehearse_run
    (show rehearse 0 (fun _ => ⟨0, 1⟩) [0, 1, 2, 3]
      (fun _ e => !e.unlocks)
      (fun past s =>
        ((s.kernel.mutexes 1).owner = some 1 ∧ s.kernel.waiters (.mutex 1) = [2]) ∧
        ((s.kernel.mutexes 0).owner = some 2 ∧ s.kernel.waiters (.mutex 0) = [3]) ∧
        ((s.kernel.osTasks 1).currentPriority = 2 ∧ (s.kernel.osTasks 2).currentPriority = 3) ∧
        (s.kernel.osTasks 3).currentPriority = entered 3 past)
      [.call 3 (.delay 2) .parked, .pass, .call 2 (.delay 1) .parked, .pass,
        .call 1 (.mutexAcquire 1 0) (.returned .success), .tick, .pass,
        .resume 2 (.delay 1) .finished, .call 2 (.mutexAcquire 0 0) (.returned .success),
        .call 2 (.mutexAcquire 1 waitForever) .parked, .pass, .tick, .pass,
        .resume 3 (.delay 2) .finished, .call 3 (.mutexAcquire 0 waitForever) .parked]
      by decide +kernel)
  refine ⟨past, s, run.weaken (fun s h => ⟨h.launched, fun m => by rw [h.mutexes]⟩)
    fun s e s' h => ⟨h.1, ?_⟩, of_decide_eq_true final⟩
  rintro t m out rfl
  cases h.2

theorem chain_inherits_lent : ∃ past s,
    Run (LaunchedUnlocked 0) (Ruled ReleasesLast 0) past s ∧ BlockedBehind past s 3 2 ∧
      (s.kernel.osTasks 3).currentPriority ≤ (s.kernel.osTasks 2).currentPriority := by
  obtain ⟨past, s, run, _, ⟨owner, queue⟩, _, unboosted⟩ := blocked_in_a_row
  have blocked : BlockedBehind past s 3 2 := ⟨⟨0, owner, by simp [queue]⟩, unboosted⟩
  exact ⟨past, s, run, blocked, (chain_inherits run).2 3 2 (.single blocked)⟩

/-- A task boosted after it has blocked does not pass the boost on. -/
theorem boost_stops_at_owner : ¬ ∀ idle past s,
    Run (LaunchedUnlocked idle) (Ruled ReleasesLast idle) past s →
    ∀ m owner w, (s.kernel.mutexes m).owner = some owner → w ∈ s.kernel.waiters (.mutex m) →
      (s.kernel.osTasks w).currentPriority ≤ (s.kernel.osTasks owner).currentPriority := by
  intro claim
  obtain ⟨past, s, run, ⟨owner, queue⟩, _, ⟨low, high⟩, _⟩ := blocked_in_a_row
  have le := claim 0 past s run 1 1 2 owner (by simp [queue])
  omega

end

end Sentinel
