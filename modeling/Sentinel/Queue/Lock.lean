import Sentinel.Queue.Calls
import Sentinel.Mutex.Exclusion

/-! One task at a time is at the ring: the task that owns the lock. -/

namespace Sentinel

open Runs (Transition Run)

/-- Between the lock and its release. -/
def Frame.inRing : Frame → Bool
  | .sendWrite _ _ | .sendHead _ | .sendTail | .sendUnlock _ | .receiveRead | .receiveTail _
    | .receiveUnlock _ => true
  | _ => false

section
variable {idle : TaskId} {s t : Traffic} {d : Deed}

/-- A deed that is no event of the kernel leaves the kernel alone. -/
theorem QueueStep.system_kept (h : QueueStep idle s d t) :
    (∃ e, d = .kernel e ∧ Step idle s.system e t.system ∧ s.allows e ∧ t.queue = s.queue ∧
      t.doing = s.moved e) ∨ t.system = s.system := by
  cases h with
  | kernel step allowed => exact .inl ⟨_, rfl, step, allowed, rfl, rfl⟩
  | enter | access | leave => exact .inr rfl

end

/-- The call can park its task. -/
def Call.parks : Call → Bool
  | .mutexAcquire _ _ | .semaphoreAcquire _ _ | .delay _ => true
  | .mutexRelease _ | .semaphoreRelease _ => false

theorem BoardStep.parks {idle : TaskId} {b d : Board} {t : TaskId} {c : Call}
    (h : BoardStep idle b (.call t c .parked) d) : c.parks := by
  cases h with
  | hand posts | put posts | drop posts => rcases posts with posts | ⟨_, posts, _⟩ <;> cases posts
  | waitMutex | waitSemaphore | sleep => rfl

/-- The kernel call in which a task is parked is one that parks and that it may make. -/
def Traffic.Placed (s : Traffic) : Prop :=
  ∀ t c, s.system.inside t = some c → s.may t c ∧ c.parks

/-- The ring belongs to the owner of the lock. -/
structure Traffic.Guarded (s : Traffic) : Prop where
  excludes : s.system.board.Excludes s.queue.lock
  owner : ∀ t f, s.doing t = some f → f.inRing → (s.system.kernel.mutexes s.queue.lock).owner = some t

section
variable {idle : TaskId} {s t : Traffic} {d : Deed} {u : TaskId} {f f' : Frame}

theorem Frame.access_keeps {q q' : OsMessageQueue} (done : f.access q = some (q', f')) :
    f.inRing ∧ f'.inRing ∧ q'.capacity = q.capacity ∧ q'.lock = q.lock ∧
      q'.emptySlots = q.emptySlots ∧ q'.filledSlots = q.filledSlots := by
  cases f <;> simp only [Frame.access, Option.some.injEq, Prod.mk.injEq, reduceCtorEq] at done <;>
    obtain ⟨rfl, rfl⟩ := done
  case sendHead hadSlot => cases hadSlot <;> exact ⟨rfl, rfl, rfl, rfl, rfl, rfl⟩
  all_goals exact ⟨rfl, rfl, rfl, rfl, rfl, rfl⟩

theorem QueueStep.queue_kept (h : QueueStep idle s d t) :
    t.queue.capacity = s.queue.capacity ∧ t.queue.lock = s.queue.lock ∧
      t.queue.emptySlots = s.queue.emptySlots ∧ t.queue.filledSlots = s.queue.filledSlots := by
  cases h with
  | enter | kernel | leave => exact ⟨rfl, rfl, rfl, rfl⟩
  | access _ _ _ done => exact (Frame.access_keeps done).2.2

theorem Frame.call_congr {q q' : OsMessageQueue} (lock : q'.lock = q.lock)
    (empty : q'.emptySlots = q.emptySlots) (filled : q'.filledSlots = q.filledSlots) (f : Frame) :
    f.call q' = f.call q := by
  cases f <;> simp only [Frame.call, lock, empty, filled]

/-- Only a call of the lock that succeeds leads to the ring. -/
theorem Frame.inRing_of_proceed {q : OsMessageQueue} {c : Call} {out : Outcome}
    (calls : f.call q = some c) (enters : (f.proceed out).inRing) :
    c = .mutexAcquire q.lock waitForever ∧ out = .returned .success := by
  cases f with
  | sendLock message hadSlot =>
    by_cases success : out = .returned .success
    · exact ⟨(Option.some.inj calls).symm, success⟩
    · cases hadSlot <;> simp [Frame.proceed, Frame.inRing, success] at enters
  | receiveLock =>
    by_cases success : out = .returned .success
    · exact ⟨(Option.some.inj calls).symm, success⟩
    · simp [Frame.proceed, Frame.inRing, success] at enters
  | receiveSlot =>
    by_cases success : out = .returned .success <;> simp [Frame.proceed, Frame.inRing, success] at enters
  | sendUnlock hadSlot => cases hadSlot <;> simp [Frame.proceed, Frame.inRing] at enters
  | sendSlot | sendGiveBack | sendPost | receiveGiveBack | receiveUnlock | receivePost =>
    simp [Frame.proceed, Frame.inRing] at enters
  | sendWrite | sendHead | sendTail | receiveRead | receiveTail | returning => cases calls

/-- Only the statements after the ring release the lock. -/
theorem Frame.of_release {q : OsMessageQueue} (calls : f.call q = some (.mutexRelease q.lock)) :
    f.inRing ∧ ∀ out, (f.proceed out).inRing = false := by
  cases f with
  | sendUnlock hadSlot => cases hadSlot <;> exact ⟨rfl, fun _ => rfl⟩
  | receiveUnlock => exact ⟨rfl, fun _ => rfl⟩
  | sendSlot | sendLock | sendGiveBack | sendWrite | sendHead | sendTail | sendPost | receiveSlot
    | receiveLock | receiveGiveBack | receiveRead | receiveTail | receivePost | returning =>
    simp [Frame.call] at calls

/-- A task goes on in its queue call when a kernel call of its own returns. -/
theorem Traffic.moved_cases (s : Traffic) (e : Event) (u : TaskId) :
    s.moved e u = s.doing u ∧ (∀ f c out, s.doing u = some f → out ≠ .parked →
      e ≠ .call u c out ∧ e ≠ .resume u c out) ∨
    ∃ f c out, s.doing u = some f ∧ out ≠ .parked ∧ (e = .call u c out ∨ e = .resume u c out) ∧
      s.moved e u = some (f.proceed out) := by
  have returns : ∀ (a : TaskId) (c : Call) (out : Outcome),
      (e = .call a c out ∨ e = .resume a c out) → s.moved e = s.moved (.call a c out) →
      s.moved e u = s.doing u ∧ (∀ f c out, s.doing u = some f → out ≠ .parked →
        e ≠ .call u c out ∧ e ≠ .resume u c out) ∨
      ∃ f c out, s.doing u = some f ∧ out ≠ .parked ∧ (e = .call u c out ∨ e = .resume u c out) ∧
        s.moved e u = some (f.proceed out) := by
    intro a c out event moved
    rw [moved]
    by_cases self : u = a
    · subst self
      cases here : s.doing u with
      | none => exact .inl ⟨by simp [Traffic.moved, here], by simp⟩
      | some f =>
        by_cases parked : out = .parked
        · refine .inl ⟨by simp [Traffic.moved, here, parked], fun f c out' _ other => ?_⟩
          rcases event with rfl | rfl <;> simp [parked, Ne.symm other]
        · exact .inr ⟨f, c, out, rfl, parked, event, by simp [Traffic.moved, here, parked]⟩
    · refine .inl ⟨?_, fun f c' out' _ _ => ?_⟩
      · cases here : s.doing a with
        | none => simp [Traffic.moved, here]
        | some g => by_cases parked : out = .parked <;> simp [Traffic.moved, here, parked, self]
      · rcases event with rfl | rfl <;> simp [Ne.symm self]
  cases e with
  | call a c out => exact returns a c out (.inl rfl) rfl
  | resume a c out => exact returns a c out (.inr rfl) rfl
  | post | tick | pass => exact .inl ⟨rfl, by simp⟩

theorem Call.uses_congr {q q' : OsMessageQueue} (lock : q'.lock = q.lock)
    (empty : q'.emptySlots = q.emptySlots) (filled : q'.filledSlots = q.filledSlots) (c : Call) :
    c.uses q' = c.uses q := by
  cases c <;> simp only [Call.uses, lock, empty, filled]

theorem Traffic.may_congr (doing : t.doing u = s.doing u) (lock : t.queue.lock = s.queue.lock)
    (empty : t.queue.emptySlots = s.queue.emptySlots)
    (filled : t.queue.filledSlots = s.queue.filledSlots) (c : Call) : t.may u c = s.may u c := by
  simp only [Traffic.may, doing, Frame.call_congr lock empty filled,
    Call.uses_congr lock empty filled]

theorem Traffic.Placed.step (placed : s.Placed) (sound : s.system.board.Sound idle)
    (h : QueueStep idle s d t) : t.Placed := by
  intro u c inside
  obtain ⟨_, lock, empty, filled⟩ := h.queue_kept
  have others : ∀ v, s.system.inside v = none → s.system.inside u = some c →
      (u ≠ v → t.doing u = s.doing u) → t.may u c ∧ c.parks := by
    intro v free inside same
    have self : u ≠ v := fun h => by
      rw [h, free] at inside
      cases inside
    rw [may_congr (same self) lock empty filled]
    exact placed u c inside
  cases h with
  | @enter v _ _ free | @leave v _ _ free | @access v _ _ _ _ free =>
    exact others v free inside fun self => Function.update_of_ne self _ _
  | @kernel e system step allowed =>
    have board := step.refines sound
    have before : s.may u c ∧ c.parks := by
      rcases board.of_inside inside with before | parks
      · exact placed u c before
      · subst parks
        exact ⟨allowed, board.parks⟩
    rcases s.moved_cases e u with ⟨same, _⟩ | ⟨f, c', out, doing, awake, event, _⟩
    · have kept : Traffic.may ⟨system, s.queue, s.moved e⟩ u c = s.may u c := by
        refine may_congr same ?_ ?_ ?_ c <;> rfl
      rwa [kept]
    · rcases event with rfl | rfl
      · rcases board.of_inside inside with busy | parks
        · cases board.of_call.2.symm.trans busy
        · cases parks
          exact absurd rfl awake
      · have gone : system.board.inside u = none := by simp [board.of_resume.2.2.2]
        cases gone.symm.trans inside

theorem Traffic.may_doing {c : Call} (may : s.may u c) (doing : s.doing u = some f) :
    f.call s.queue = some c := by
  simpa [Traffic.may, doing] using may

theorem Traffic.may_outside {c : Call} (may : s.may u c) (outside : s.doing u = none) :
    c.uses s.queue = false := by
  simpa [Traffic.may, outside] using may

/-- A call that is made, or that goes on after its wait, is one that its task may make. -/
theorem Traffic.Placed.may_of_event {e : Event} {b : Board} {c : Call} {out : Outcome}
    (placed : s.Placed) (allowed : s.allows e) (board : BoardStep idle s.system.board e b)
    (event : e = .call u c out ∨ e = .resume u c out) : s.may u c := by
  cases event with
  | inl called =>
    subst called
    exact allowed
  | inr resumed =>
    subst resumed
    exact (placed u c board.of_resume.2.1).1

/-- The lock is released by its owner. -/
theorem Traffic.Guarded.releases (guarded : s.Guarded)
    (may : s.may u (.mutexRelease s.queue.lock)) :
    (s.system.kernel.mutexes s.queue.lock).owner = some u := by
  cases doing : s.doing u with
  | none => simpa [Call.uses] using may_outside may doing
  | some f => exact guarded.owner u f doing (Frame.of_release (may_doing may doing)).1

theorem Traffic.Guarded.step (guarded : s.Guarded) (placed : s.Placed)
    (sound : s.system.board.Sound idle) (h : QueueStep idle s d t) : t.Guarded := by
  obtain ⟨_, lock, _⟩ := h.queue_kept
  cases h with
  | @enter v op =>
    refine ⟨guarded.excludes, fun u f doing inRing => ?_⟩
    by_cases self : u = v
    · subst self
      obtain rfl : op.start = f := by simpa using doing
      cases op <;> cases inRing
    · exact guarded.owner u f (by simpa [self] using doing) inRing
  | @leave v =>
    refine ⟨guarded.excludes, fun u f doing inRing => ?_⟩
    by_cases self : u = v
    · simp [self] at doing
    · exact guarded.owner u f (by simpa [self] using doing) inRing
  | @access v f f' q runs free here done =>
    refine ⟨lock ▸ guarded.excludes, fun u g doing inRing => ?_⟩
    rw [lock]
    by_cases self : u = v
    · exact self ▸ guarded.owner v f here (Frame.access_keeps done).1
    · exact guarded.owner u g (by simpa [self] using doing) inRing
  | @kernel e system step allowed =>
    have board := step.refines sound
    have rule : ∀ u, e = .call u (.mutexRelease s.queue.lock) .finished →
        (s.system.board.mutexes s.queue.lock).owner = some u := by
      rintro u rfl
      exact guarded.releases allowed
    refine ⟨board.excludes sound rule guarded.excludes, fun u f doing inRing => ?_⟩
    rcases s.moved_cases e u with ⟨same, silent⟩ | ⟨g, c, out, doing', awake, event, after⟩
    · have before : s.doing u = some f := same.symm.trans doing
      apply board.owner_kept sound rule (guarded.owner u f before inRing)
      intro out event
      cases board.mutexEffect s.queue.lock with
      | kept _ unreleased => exact unreleased u out event
      | locked _ _ locks => cases event.symm.trans locks
      | unlocked _ releases | handed _ _ releases =>
        cases event.symm.trans releases
        exact (silent f _ _ before (by simp)).1 event
    · obtain rfl : g.proceed out = f := Option.some.inj (after.symm.trans doing)
      have calls := may_doing (placed.may_of_event allowed board event) doing'
      obtain ⟨rfl, rfl⟩ := Frame.inRing_of_proceed calls inRing
      exact (board.returns_owner sound guarded.excludes event).1 rfl

end
end Sentinel
