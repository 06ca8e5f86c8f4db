import Sentinel.Mutex.Exclusion

/-! Priority inheritance, for tasks that use one mutex at a time: nobody waits for a
task of lower priority, so no pass favours a task that the owner outranks. -/

namespace Sentinel

open Runs (Transition Run)

/-- A task takes or waits for a mutex only while it owns none. -/
def OneAtATime (s : System) (e : Event) : Prop :=
  ∀ t m n out, e = .call t (.mutexAcquire m n) out → out = .returned .success ∨ out = .parked →
    ∀ m', (s.kernel.mutexes m').owner ≠ some t

def SingleMutex (s : System) (e : Event) : Prop := OwnerReleases s e ∧ OneAtATime s e

structure Board.Inherits (b : Board) : Prop where
  base : ∀ t, b.Live t → (∀ m, (b.mutexes m).owner ≠ some t) →
    b.priority t = (b.tcb t).basePriority
  cover : ∀ m u w, (b.mutexes m).owner = some u → w ∈ b.waiters (.mutex m) →
    b.priority w ≤ b.priority u
  single : ∀ m m' t, (b.mutexes m).owner = some t → (b.mutexes m').owner = some t → m = m'
  apart : ∀ m w m', w ∈ b.waiters (.mutex m) → (b.mutexes m').owner ≠ some w

theorem owner_update {f : Nat → OsMutex} {m m' : Nat} {x : OsMutex} {t : TaskId} :
    (Function.update f m x m').owner = some t ↔
      m' = m ∧ x.owner = some t ∨ m' ≠ m ∧ (f m').owner = some t := by
  by_cases here : m' = m
  · subst here
    simp
  · simp [here]

namespace Board.Inherits

variable {b d : Board}

/-- Fewer waiters and the same owners and priorities. -/
theorem shrink (inherits : b.Inherits) (live : ∀ t, d.Live t → b.Live t)
    (bases : ∀ t, (d.tcb t).basePriority = (b.tcb t).basePriority)
    (priority : ∀ t, d.priority t = b.priority t) (mutexes : d.mutexes = b.mutexes)
    (fewer : ∀ m w, w ∈ d.waiters (.mutex m) → w ∈ b.waiters (.mutex m)) : d.Inherits where
  base t hx none := by
    rw [priority, bases]
    exact inherits.base t (live t hx) (mutexes ▸ none)
  cover m u w own queued := by
    rw [priority, priority]
    exact inherits.cover m u w (mutexes ▸ own) (fewer m w queued)
  single m m' t own own' := inherits.single m m' t (mutexes ▸ own) (mutexes ▸ own')
  apart m w m' queued own := inherits.apart m w m' (fewer m w queued) (mutexes ▸ own)

/-- A mutex changes hands: the former owner is back at its base priority, and the new
one owns nothing else and outranks whoever still waits. -/
theorem reassign (inherits : b.Inherits) (live : ∀ t, d.Live t → b.Live t)
    (bases : ∀ t, (d.tcb t).basePriority = (b.tcb t).basePriority) {m : Nat} {x : OsMutex}
    (mutexes : d.mutexes = Function.update b.mutexes m x)
    (priority : ∀ t, d.priority t =
      if (b.mutexes m).owner = some t then (b.tcb t).basePriority else b.priority t)
    (fewer : ∀ m w, w ∈ d.waiters (.mutex m) → w ∈ b.waiters (.mutex m))
    (free : ∀ t, x.owner = some t → ∀ m', m' ≠ m → (b.mutexes m').owner ≠ some t)
    (left : ∀ t, x.owner = some t → ∀ m', t ∉ d.waiters (.mutex m'))
    (outranks : ∀ t w, x.owner = some t → w ∈ d.waiters (.mutex m) → d.priority w ≤ d.priority t) :
    d.Inherits where
  base t hx none := by
    rw [priority, bases]
    split
    · rfl
    · rename_i other
      apply inherits.base t (live t hx)
      intro m' own
      by_cases here : m' = m
      · exact other (here ▸ own)
      · exact none m' (by rw [mutexes, owner_update]; exact .inr ⟨here, own⟩)
  cover m' u w own queued := by
    rw [mutexes, owner_update] at own
    rcases own with ⟨rfl, own⟩ | ⟨other, own⟩
    · exact outranks u w own queued
    · have queued := fewer m' w queued
      rw [priority, priority, if_neg (inherits.apart m' w m queued),
        if_neg fun own' => other (inherits.single m' m u own own')]
      exact inherits.cover m' u w own queued
  single m' m'' t own own' := by
    rw [mutexes, owner_update] at own own'
    rcases own with ⟨rfl, own⟩ | ⟨other, own⟩ <;> rcases own' with ⟨rfl, own'⟩ | ⟨other', own'⟩
    · rfl
    · exact absurd own' (free t own m'' other')
    · exact absurd own (free t own' m' other)
    · exact inherits.single m' m'' t own own'
  apart m' w m'' queued own := by
    rw [mutexes, owner_update] at own
    rcases own with ⟨rfl, own⟩ | ⟨_, own⟩
    · exact left w own m' queued
    · exact inherits.apart m' w m'' (fewer m' w queued) own

end Board.Inherits

theorem BoardStep.inherits {idle : TaskId} {b d : Board} {e : Event} (h : BoardStep idle b e d)
    (sound : b.Sound idle)
    (single : ∀ t m n out, e = .call t (.mutexAcquire m n) out →
      out = .returned .success ∨ out = .parked → ∀ m', (b.mutexes m').owner ≠ some t)
    (inherits : b.Inherits) : d.Inherits := by
  obtain ⟨count, bases⟩ := h.base_kept
  have live : ∀ t, d.Live t → b.Live t := fun t => by simp only [Board.Live, count, imp_self]
  cases h.priorityEffect sound with
  | still _ _ priority mutexes queues =>
    exact inherits.shrink live bases (congrFun priority) mutexes fun m w hw => queues m ▸ hw
  | ticked _ priority mutexes queues =>
    exact inherits.shrink live bases (congrFun priority) mutexes fun m w hw =>
      List.mem_of_mem_filter (queues m ▸ hw)
  | locked m t n event opened runs priority mutexes queues =>
    have free := single t m n _ event (.inl rfl)
    have none := sound.owner_of_opened opened
    refine inherits.reassign live bases mutexes (fun x => ?_) (fun m w hw => queues m ▸ hw)
      ?free ?left ?outranks
    · rw [none, if_neg (by simp), priority]
    case free => rintro _ ⟨⟩ m' _ own; exact free m' own
    case left => rintro _ ⟨⟩ m' queued; exact (sound.runs_apart runs).2.2 _ (queues m' ▸ queued)
    case outranks =>
      intro x w _ queued
      rw [queues, sound.ownerless m none] at queued
      cases queued
  | unlocked m t event runs nobody priority mutexes queues =>
    refine inherits.reassign live bases mutexes (fun x => ?_) (fun m w hw => queues m ▸ hw)
      (by simp) (by simp) (by simp)
    rw [priority, Board.settle_priority]
  | handed m t next event runs first priority mutexes queues =>
    obtain ⟨queued, most⟩ := Board.first_settle sound first
    have kept : ∀ w ∈ b.waiters (.mutex m), d.priority w = b.priority w := fun w hw => by
      rw [priority, Board.settle_priority, if_neg (inherits.apart m w m hw)]
    refine inherits.reassign live bases mutexes (fun x => ?_)
      (fun m w hw => List.mem_of_mem_erase (queues m ▸ hw)) ?free ?left ?outranks
    · rw [priority, Board.settle_priority]
    case free => rintro _ ⟨⟩ m' _; exact inherits.apart m next m' queued
    case left =>
      rintro _ ⟨⟩ m' there
      rw [queues] at there
      exact (sound.distinct _).not_mem_erase there
    case outranks =>
      rintro _ w ⟨⟩ there
      rw [queues] at there
      have there := List.mem_of_mem_erase there
      rw [kept w there, kept next queued]
      exact most w there
  | waited m t n owner event runs held other priority mutexes queues =>
    have free := single t m n _ event (.inr rfl)
    have kept : ∀ x, x ≠ owner → d.priority x = b.priority x := fun x ne => by
      rw [priority, Function.update_of_ne ne]
    have raised : d.priority owner = max (b.priority owner) (b.priority t) := by
      rw [priority, Function.update_self]
    constructor
    · intro x hx none
      rw [mutexes] at none
      rw [kept x fun same => none m (same ▸ held), bases]
      exact inherits.base x (live x hx) none
    · intro m' u w own queued
      rw [mutexes] at own
      rcases Board.mem_of_joined queues queued with old | ⟨rfl, rfl⟩
      · rw [kept w fun same => inherits.apart m' w m old (same ▸ held)]
        have covered := inherits.cover m' u w own old
        by_cases self : u = owner
        · rw [self] at covered ⊢
          rw [raised]
          exact covered.trans (le_max_left _ _)
        · rwa [kept u self]
      · obtain rfl : owner = u := Option.some.inj (held.symm.trans own)
        rw [kept w (Ne.symm other), raised]
        exact le_max_right _ _
    · rw [mutexes]
      exact inherits.single
    · intro m' w m'' queued own
      rw [mutexes] at own
      rcases Board.mem_of_joined queues queued with old | ⟨_, rfl⟩
      · exact inherits.apart m' w m'' old own
      · exact free m'' own

/-- A launched system in which every mutex is free. -/
def LaunchedUnlocked (idle : TaskId) (s : System) : Prop :=
  Launched idle s ∧ ∀ m, (s.kernel.mutexes m).lock = 0

section
variable {idle : TaskId} {past : History} {s : System}

theorem LaunchedUnlocked.trace {rule : System → Event → Prop}
    (run : Run (LaunchedUnlocked idle) (Ruled rule idle) past s) : Trace idle past s :=
  run.weaken (fun _ h => h.1) fun _ _ _ h => h.1

theorem LaunchedUnlocked.ownerless (launched : LaunchedUnlocked idle s) (m : Nat) :
    (s.board.mutexes m).owner = none := launched.1.sound.owner_of_opened (launched.2 m)

theorem OneAtATime.inherits
    (run : Run (LaunchedUnlocked idle) (Ruled OneAtATime idle) past s) : s.board.Inherits := by
  induction run with
  | start launched =>
    refine ⟨fun t live _ => launched.1.priority live, ?_, ?_, ?_⟩
    · simp [launched.ownerless]
    · simp [launched.ownerless]
    · simp [launched.ownerless]
  | next run step ih =>
    have sound := (LaunchedUnlocked.trace run).sound
    exact (step.1.refines sound).inherits sound step.2 ih

/-- **No priority inversion**, whoever releases the mutexes. -/
theorem no_priority_inversion
    (run : Run (LaunchedUnlocked idle) (Ruled OneAtATime idle) past s) :
    (∀ t, s.kernel.Live t → (∀ m, (s.kernel.mutexes m).owner ≠ some t) →
      (s.kernel.osTasks t).currentPriority = (s.kernel.osTasks t).basePriority) ∧
    (∀ m owner w, (s.kernel.mutexes m).owner = some owner → w ∈ s.kernel.waiters (.mutex m) →
      (s.kernel.osTasks w).currentPriority ≤ (s.kernel.osTasks owner).currentPriority) ∧
    (∀ m owner w s', (s.kernel.mutexes m).owner = some owner → w ∈ s.kernel.waiters (.mutex m) →
      s.kernel.Runnable owner → Step idle s .pass s' →
      ∃ best, s'.kernel.currentTcb = some best ∧ (s'.kernel.osTasks best).state = .running ∧
        (s.kernel.osTasks w).currentPriority ≤ (s'.kernel.osTasks best).currentPriority) := by
  have sound := (LaunchedUnlocked.trace run).sound
  have inherits := OneAtATime.inherits run
  refine ⟨inherits.base, inherits.cover, fun m owner w s' own queued runnable step => ?_⟩
  obtain ⟨best, picks, after⟩ := (step.refines sound).of_pass
  have current : s'.board.current = some best := by rw [after]; rfl
  have tcb : s'.board.tcb best = { s.board.tcb best with state := .running } := by
    rw [after, Board.dispatch_tcb, if_pos rfl]
  refine ⟨best, current, by rw [show s'.kernel.osTasks best = _ from tcb], ?_⟩
  calc (s.kernel.osTasks w).currentPriority
      ≤ (s.kernel.osTasks owner).currentPriority := inherits.cover m owner w own queued
    _ ≤ (s.kernel.osTasks best).currentPriority :=
        picks.greatest owner (sound.owner m owner own).1 runnable
    _ = (s'.kernel.osTasks best).currentPriority := (congrArg Tcb.currentPriority tcb).symm

/-- The rule as a check, for events that name none but the first `n` mutexes. -/
def oneAtATime (n : Nat) (s : System) (e : Event) : Bool :=
  e.mutexBelow n && match e with
    | .call t (.mutexAcquire _ _) (.returned .success) | .call t (.mutexAcquire _ _) .parked =>
      (List.range n).all fun m => (s.kernel.mutexes m).owner ≠ some t
    | _ => true

theorem OneAtATime.of_check {semaphores : Nat → OsSemaphore} {rule : System → Event → Prop}
    {n : Nat} (run : Run (Started idle semaphores) (Ruled rule idle) past s)
    (check : ∀ s e, rule s e → oneAtATime n s e = true) :
    Run (LaunchedUnlocked idle) (Ruled (fun s e => rule s e ∧ OneAtATime s e) idle) past s := by
  refine run.enrich (fun s h => ⟨h.launched, fun m => by rw [h.mutexes]⟩)
    fun past s e s' run step => ⟨step.1, step.2, ?_⟩
  intro t m n' out event done m' own
  have low := owner_below run (fun s e h => ((Bool.and_eq_true _ _).mp (check s e h)).1) own
  have checked := check s e step.2
  rcases done with rfl | rfl <;>
    simp only [oneAtATime, event, Bool.and_eq_true, List.all_eq_true, List.mem_range] at checked <;>
    simpa [own] using checked.2 m' low

/-- Task 3 waits and lends its priority to task 1, the owner. -/
theorem no_priority_inversion_lent : ∃ past s,
    Run (LaunchedUnlocked 0) (Ruled OneAtATime 0) past s ∧ (s.kernel.mutexes 0).owner = some 1 ∧
      s.kernel.waiters (.mutex 0) = [3] ∧
      (s.kernel.osTasks 3).currentPriority ≤ (s.kernel.osTasks 1).currentPriority := by
  obtain ⟨past, s, run, final⟩ := rehearse_run
    (show rehearse 0 (fun _ => ⟨0, 1⟩) [0, 1, 2, 3] (oneAtATime 1)
      (fun _ s => (s.kernel.mutexes 0).owner = some 1 ∧ s.kernel.waiters (.mutex 0) = [3])
      [.call 3 (.delay 2) .parked, .pass, .call 2 (.delay 2) .parked, .pass,
        .call 1 (.mutexAcquire 0 0) (.returned .success), .tick, .tick, .pass,
        .resume 3 (.delay 2) .finished, .call 3 (.mutexAcquire 0 9) .parked, .pass] by
      decide +kernel)
  obtain ⟨owner, queue⟩ := of_decide_eq_true final
  have run' : Run (LaunchedUnlocked 0) (Ruled OneAtATime 0) past s :=
    (OneAtATime.of_check run fun _ _ h => h).weaken (fun _ h => h) fun _ _ _ h => ⟨h.1, h.2.2⟩
  exact ⟨past, s, run', owner, queue,
    (no_priority_inversion run').2.1 0 1 3 owner (by rw [queue]; exact List.mem_singleton.mpr rfl)⟩

end

end Sentinel
