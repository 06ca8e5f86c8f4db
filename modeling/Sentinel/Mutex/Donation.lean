import Sentinel.Mutex.Inheritance

/-! How long a donated priority lasts. A timeout takes the waiter off the queue and
leaves its donation with the owner; only the release takes it back. -/

namespace Sentinel

open Runs (Transition Run)

/-- The greatest of `base` and the members of `l`. -/
def highest (base : Nat) (l : List Nat) : Nat := l.foldr max base

theorem highest_le {base k : Nat} {l : List Nat} :
    highest base l ≤ k ↔ base ≤ k ∧ ∀ x ∈ l, x ≤ k := by
  induction l with
  | nil => simp [highest]
  | cons x l ih =>
    have step : highest base (x :: l) = max x (highest base l) := rfl
    rw [step, max_le_iff, ih, List.forall_mem_cons]
    tauto

theorem highest_eq {base base' : Nat} {l l' : List Nat} (same : base = base')
    (most : ∀ k, (∀ x ∈ l, x ≤ k) ↔ ∀ x ∈ l', x ≤ k) : highest base l = highest base' l' :=
  eq_of_forall_ge_iff fun k => by rw [highest_le, highest_le, same, most]

/-- The priorities that those tasks had whose wait for `m` has timed out since `m` was
last released. -/
def expired (m : Nat) : History → List Nat
  | [] => []
  | x :: past =>
    match x.event with
    | .tick =>
      (((x.pre.kernel.waiters (.mutex m)).filter fun t => t ∉ x.post.kernel.waiters (.mutex m)).map
        fun t => (x.pre.kernel.osTasks t).currentPriority) ++ expired m past
    | .call _ (.mutexRelease z) _ => if z = m then [] else expired m past
    | _ => expired m past

/-- The owner of `m` runs at its base priority or at the greatest it has been lent. -/
structure Board.Lent (m : Nat) (lost : List Nat) (b : Board) : Prop where
  owner : ∀ t, (b.mutexes m).owner = some t → b.priority t =
    highest (b.tcb t).basePriority ((b.waiters (.mutex m)).map b.priority ++ lost)
  nobody : (b.mutexes m).owner = none → lost = []

namespace Board.Lent

variable {b d : Board} {m : Nat} {lost : List Nat}

/-- Same owner, and the same priorities for it and for its waiters. -/
theorem keep (lent : b.Lent m lost) (owner : (d.mutexes m).owner = (b.mutexes m).owner)
    (bases : ∀ t, (d.tcb t).basePriority = (b.tcb t).basePriority)
    (queue : d.waiters (.mutex m) = b.waiters (.mutex m))
    (waiters : ∀ w ∈ b.waiters (.mutex m), d.priority w = b.priority w)
    (same : ∀ t, (b.mutexes m).owner = some t → d.priority t = b.priority t) : d.Lent m lost where
  owner t own := by
    rw [owner] at own
    rw [same t own, bases, queue, List.map_congr_left waiters]
    exact lent.owner t own
  nobody none := lent.nobody (owner ▸ none)

/-- Whoever leaves the queue by a timeout leaves its priority behind. -/
theorem expire (lent : b.Lent m lost) (owner : (d.mutexes m).owner = (b.mutexes m).owner)
    (bases : ∀ t, (d.tcb t).basePriority = (b.tcb t).basePriority)
    (priority : d.priority = b.priority)
    (fewer : ∀ w ∈ d.waiters (.mutex m), w ∈ b.waiters (.mutex m))
    (empty : (b.mutexes m).owner = none → b.waiters (.mutex m) = []) :
    d.Lent m (((b.waiters (.mutex m)).filter fun t => t ∉ d.waiters (.mutex m)).map b.priority
      ++ lost) where
  owner t own := by
    rw [owner] at own
    rw [priority, lent.owner t own]
    apply highest_eq (bases t).symm
    intro k
    simp only [List.mem_append, List.mem_map, List.mem_filter, decide_eq_true_eq]
    constructor
    · rintro most x (⟨w, queued, rfl⟩ | ⟨w, ⟨queued, _⟩, rfl⟩ | there)
      · exact most _ (.inl ⟨w, fewer w queued, rfl⟩)
      · exact most _ (.inl ⟨w, queued, rfl⟩)
      · exact most x (.inr there)
    · rintro most x (⟨w, queued, rfl⟩ | there)
      · by_cases stays : w ∈ d.waiters (.mutex m)
        · exact most _ (.inl ⟨w, stays, rfl⟩)
        · exact most _ (.inr (.inl ⟨w, ⟨queued, stays⟩, rfl⟩))
      · exact most x (.inr (.inr there))
  nobody none := by
    rw [owner] at none
    simp [empty none, lent.nobody none]

/-- The caller blocks, and the owner is raised to its priority if that is greater. -/
theorem lend {t owner : TaskId} (lent : b.Lent m lost) (held : (b.mutexes m).owner = some owner)
    (owner' : (d.mutexes m).owner = some owner)
    (bases : ∀ t, (d.tcb t).basePriority = (b.tcb t).basePriority)
    (queue : d.waiters (.mutex m) = b.waiters (.mutex m) ++ [t])
    (raised : d.priority owner = max (b.priority owner) (b.priority t))
    (kept : ∀ w ∈ b.waiters (.mutex m) ++ [t], d.priority w = b.priority w) : d.Lent m lost where
  owner u own := by
    obtain rfl : owner = u := Option.some.inj (owner'.symm.trans own)
    rw [raised, lent.owner owner held, bases, queue, List.map_congr_left kept]
    apply eq_of_forall_ge_iff
    intro k
    simp only [max_le_iff, highest_le, List.map_append, List.map_cons, List.map_nil,
      List.forall_mem_append, List.forall_mem_singleton]
    tauto
  nobody none := by cases owner'.symm.trans none

/-- A new owner that runs at its base priority, which is as great as any that waits. -/
theorem hand {next : TaskId} (own : (d.mutexes m).owner = some next)
    (plain : d.priority next = (d.tcb next).basePriority)
    (most : ∀ w ∈ d.waiters (.mutex m), d.priority w ≤ d.priority next) : d.Lent m [] where
  owner u own' := by
    obtain rfl : next = u := Option.some.inj (own.symm.trans own')
    rw [List.append_nil, ← plain]
    apply le_antisymm
    · exact (highest_le.mp le_rfl).1
    · apply highest_le.mpr
      refine ⟨le_rfl, ?_⟩
      intro x there
      obtain ⟨w, queued, rfl⟩ := List.mem_map.mp there
      exact most w queued
  nobody _ := rfl

end Board.Lent

section
variable {idle : TaskId} {b d : Board} {e : Event} {m : Nat} {lost : List Nat}

/-- What one step makes of the priorities that were left behind. -/
def expiredNext (m : Nat) (b : Board) (e : Event) (d : Board) (lost : List Nat) : List Nat :=
  match e with
  | .tick =>
    ((b.waiters (.mutex m)).filter fun t => t ∉ d.waiters (.mutex m)).map b.priority ++ lost
  | .call _ (.mutexRelease z) _ => if z = m then [] else lost
  | _ => lost

theorem expiredNext_kept (untimed : e ≠ .tick)
    (unreleased : ∀ t out, e ≠ .call t (.mutexRelease m) out) : expiredNext m b e d lost = lost := by
  unfold expiredNext
  split
  · exact absurd rfl untimed
  · rename_i t z out
    exact if_neg fun here => unreleased t out (by rw [here])
  · rfl

theorem BoardStep.lent (h : BoardStep idle b e d) (sound : b.Sound idle) (inherits : b.Inherits)
    (single : ∀ t m n out, e = .call t (.mutexAcquire m n) out →
      out = .returned .success ∨ out = .parked → ∀ m', (b.mutexes m').owner ≠ some t)
    (lent : b.Lent m lost) : d.Lent m (expiredNext m b e d lost) := by
  obtain ⟨_, bases⟩ := h.base_kept
  -- a task that owns some other mutex neither owns `m` nor waits for it
  have elsewhere : ∀ {m' u}, m ≠ m' → (b.mutexes m').owner = some u →
      (b.mutexes m).owner ≠ some u ∧ u ∉ b.waiters (.mutex m) := fun other own =>
    ⟨fun own' => other (inherits.single _ _ _ own' own), fun queued =>
      inherits.apart _ _ _ queued own⟩
  have settled : ∀ {m'}, m ≠ m' → ∀ w, w ∈ b.waiters (.mutex m) ∨ (b.mutexes m).owner = some w →
      (b.settle m').priority w = b.priority w := by
    intro m' other w involved
    rw [Board.settle_priority, if_neg fun own => ?_]
    obtain ⟨notOwner, notWaiting⟩ := elsewhere other own
    exact involved.elim notWaiting notOwner
  cases h.priorityEffect sound with
  | still untimed unreleased priority mutexes queues =>
    rw [expiredNext_kept untimed fun t out => unreleased t m out]
    exact lent.keep (by rw [mutexes]) bases (queues m) (fun w _ => congrFun priority w)
      fun t _ => congrFun priority t
  | ticked event priority mutexes queues =>
    subst event
    exact lent.expire (by rw [mutexes]) bases priority
      (fun w hw => List.mem_of_mem_filter (queues m ▸ hw)) (sound.ownerless m)
  | locked m' t n event opened runs priority mutexes queues =>
    rw [expiredNext_kept (by simp [event]) (by simp [event])]
    by_cases here : m = m'
    · subst here
      have none := sound.owner_of_opened opened
      have plain := inherits.base t (sound.runs_live runs) (single t m n _ event (.inl rfl))
      rw [lent.nobody none]
      apply Board.Lent.hand (by simp [mutexes] : (d.mutexes m).owner = some t)
      · rw [priority, bases, plain]
      · rw [queues, sound.ownerless m none]
        simp
    · exact lent.keep (by rw [mutexes, Function.update_of_ne here]) bases (queues m)
        (fun w _ => congrFun priority w) fun t _ => congrFun priority t
  | waited m' t n owner event runs held other priority mutexes queues =>
    rw [expiredNext_kept (by simp [event]) (by simp [event])]
    have kept : ∀ w, w ≠ owner → d.priority w = b.priority w := fun w ne => by
      rw [priority, Function.update_of_ne ne]
    by_cases here : m = m'
    · subst here
      apply lent.lend held (by rw [mutexes, held]) bases (by rw [queues, if_pos rfl])
        (by rw [priority, Function.update_self])
      intro w there
      apply kept w
      rintro rfl
      cases List.mem_append.mp there with
      | inl queued => exact inherits.apart m w m queued held
      | inr new => exact other (List.mem_singleton.mp new)
    · obtain ⟨notOwner, notWaiting⟩ := elsewhere here held
      refine lent.keep (by rw [mutexes]) bases (by rw [queues, if_neg here])
        (fun w queued => kept w ?_) fun u own => kept u ?_
      · rintro rfl
        exact notWaiting queued
      · rintro rfl
        exact notOwner own
  | unlocked m' t event runs nobody priority mutexes queues =>
    by_cases here : m = m'
    · subst here
      exact ⟨by simp [mutexes], fun _ => by simp [event, expiredNext]⟩
    · rw [expiredNext_kept (by simp [event]) (by simp [event, Ne.symm here])]
      exact lent.keep (by rw [mutexes, Function.update_of_ne here]) bases (queues m)
        (fun w queued => (congrFun priority w).trans (settled here w (.inl queued)))
        fun u own => (congrFun priority u).trans (settled here u (.inr own))
  | handed m' t next event runs first priority mutexes queues =>
    obtain ⟨queued, most⟩ := Board.first_settle sound first
    by_cases here : m = m'
    · subst here
      have kept : ∀ w ∈ b.waiters (.mutex m), d.priority w = b.priority w := by
        intro w there
        rw [priority, Board.settle_priority, if_neg (inherits.apart m w m there)]
      have plain := inherits.base next (sound.queued _ _ queued).1 fun m' =>
        inherits.apart m next m' queued
      have none : expiredNext m b e d lost = [] := by simp [event, expiredNext]
      rw [none]
      apply Board.Lent.hand (by simp [mutexes] : (d.mutexes m).owner = some next)
      · rw [kept next queued, bases, plain]
      · intro w there
        rw [queues] at there
        have there := List.mem_of_mem_erase there
        rw [kept w there, kept next queued]
        exact most w there
    · rw [expiredNext_kept (by simp [event]) (by simp [event, Ne.symm here])]
      have apart : next ∉ b.waiters (.mutex m) := fun there => by
        have same := (sound.queued _ _ queued).2.symm.trans (sound.queued _ _ there).2
        cases same
        exact here rfl
      exact lent.keep (by rw [mutexes, Function.update_of_ne here]) bases
        (by rw [queues, List.erase_of_not_mem apart])
        (fun w queued => (congrFun priority w).trans (settled here w (.inl queued)))
        fun u own => (congrFun priority u).trans (settled here u (.inr own))

end

section
variable {idle : TaskId} {past : History} {s : System}

/-- The single-mutex rule as a check. -/
def singleMutex (n : Nat) (s : System) (e : Event) : Bool :=
  oneAtATime n s e && match e with
    | .call t (.mutexRelease m) _ => (s.kernel.mutexes m).owner = some t
    | _ => true

theorem SingleMutex.of_check {semaphores : Nat → OsSemaphore} {n : Nat}
    (run : Run (Started idle semaphores) (Ruled (fun s e => singleMutex n s e) idle) past s) :
    Run (LaunchedUnlocked idle) (Ruled SingleMutex idle) past s := by
  refine (OneAtATime.of_check run fun s e h => ((Bool.and_eq_true _ _).mp h).1).weaken
    (fun _ h => h) fun s e _ h => ⟨h.1, ?_, h.2.2⟩
  rintro t m out rfl
  simpa using ((Bool.and_eq_true _ _).mp h.2.1).2

theorem OneAtATime.lent (run : Run (LaunchedUnlocked idle) (Ruled OneAtATime idle) past s)
    (m : Nat) : s.board.Lent m (expired m past) := by
  induction run with
  | start launched => exact ⟨by simp [launched.ownerless], fun _ => rfl⟩
  | next run step ih =>
    have sound := (LaunchedUnlocked.trace run).sound
    exact (step.1.refines sound).lent sound (OneAtATime.inherits run) step.2 ih

/-- **A donated priority lasts until the release.** -/
theorem donation_until_release
    (run : Run (LaunchedUnlocked idle) (Ruled OneAtATime idle) past s) :
    (∀ t, s.kernel.Live t → (∀ m, (s.kernel.mutexes m).owner ≠ some t) →
      (s.kernel.osTasks t).currentPriority = (s.kernel.osTasks t).basePriority) ∧
    (∀ m t, (s.kernel.mutexes m).owner = some t → (s.kernel.osTasks t).currentPriority =
      highest (s.kernel.osTasks t).basePriority (((s.kernel.waiters (.mutex m)).map fun w =>
        (s.kernel.osTasks w).currentPriority) ++ expired m past)) ∧
    (∀ x ∈ past, ∀ t m n code, x.event = .call t (.mutexAcquire m n) (.returned code) →
      ∀ u, (x.post.kernel.osTasks u).currentPriority = (x.pre.kernel.osTasks u).currentPriority) := by
  refine ⟨(OneAtATime.inherits run).base, fun m => (OneAtATime.lent run m).owner, ?_⟩
  intro x hx t m n code event u
  obtain ⟨_, before, step⟩ := run.mem hx
  have sound := (LaunchedUnlocked.trace before).sound
  cases (step.1.refines sound).priorityEffect sound with
  | still _ _ priority | ticked _ priority | locked _ _ _ _ _ _ priority => exact congrFun priority u
  | waited _ _ _ _ event' | unlocked _ _ event' | handed _ _ _ event' => cases event.symm.trans event'

/-- Task 2 gives up after one tick; task 1 keeps the priority it was lent. -/
theorem boost_outlives_waiter : ∃ past s, Run (LaunchedUnlocked 0) (Ruled SingleMutex 0) past s ∧
    (s.kernel.mutexes 0).owner = some 1 ∧ s.kernel.waiters (.mutex 0) = [] ∧
    (s.kernel.osTasks 1).basePriority = 1 ∧ (s.kernel.osTasks 1).currentPriority = 2 ∧
    expired 0 past = [2] := by
  obtain ⟨past, s, run, final⟩ := rehearse_run
    (show rehearse 0 (fun _ => ⟨0, 1⟩) [0, 1, 2] (singleMutex 1)
      (fun past s => (s.kernel.mutexes 0).owner = some 1 ∧ s.kernel.waiters (.mutex 0) = [] ∧
        (s.kernel.osTasks 1).basePriority = 1 ∧ (s.kernel.osTasks 1).currentPriority = 2 ∧
        expired 0 past = [2])
      [.call 2 (.delay 1) .parked, .pass, .call 1 (.mutexAcquire 0 0) (.returned .success), .tick,
        .pass, .resume 2 (.delay 1) .finished, .call 2 (.mutexAcquire 0 1) .parked, .pass, .tick]
      by decide +kernel)
  exact ⟨past, s, SingleMutex.of_check run, of_decide_eq_true final⟩

theorem donation_until_release_expired : ∃ past s,
    Run (LaunchedUnlocked 0) (Ruled OneAtATime 0) past s ∧ (s.kernel.mutexes 0).owner = some 1 ∧
      expired 0 past = [2] ∧ (s.kernel.osTasks 1).currentPriority =
        highest (s.kernel.osTasks 1).basePriority (((s.kernel.waiters (.mutex 0)).map fun w =>
          (s.kernel.osTasks w).currentPriority) ++ expired 0 past) := by
  obtain ⟨past, s, run, owner, _, _, _, left⟩ := boost_outlives_waiter
  have run' : Run (LaunchedUnlocked 0) (Ruled OneAtATime 0) past s :=
    run.weaken (fun _ h => h) fun _ _ _ h => ⟨h.1, h.2.2⟩
  exact ⟨past, s, run', owner, left, (donation_until_release run').2.1 0 1 owner⟩

/-- A donation can outlast the wait that it was made for. -/
theorem boost_not_only_for_waiters : ¬ ∀ idle past s,
    Run (LaunchedUnlocked idle) (Ruled SingleMutex idle) past s →
    (∀ m t, (s.kernel.mutexes m).owner = some t → (s.kernel.osTasks t).currentPriority =
      highest (s.kernel.osTasks t).basePriority ((s.kernel.waiters (.mutex m)).map fun w =>
        (s.kernel.osTasks w).currentPriority)) := by
  intro claim
  obtain ⟨past, s, run, owner, queue, base, current, _⟩ := boost_outlives_waiter
  have equal : 2 = 1 := by
    simpa [queue, base, current, highest] using claim 0 past s run 0 1 owner
  omega

end

end Sentinel
