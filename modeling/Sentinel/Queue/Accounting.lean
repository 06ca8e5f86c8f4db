import Sentinel.Kernel.Deadlines
import Sentinel.Queue.Ring

/-! Slots and entries never leak. Every token of the two semaphores is counted, handed
or in the hands of a call, no release is dropped, and the lock is always got. -/

namespace Sentinel

open Runs (Transition Run)

namespace Frame

/-- A send that has been granted a slot and has neither posted its message nor given the
slot back. -/
def sending : Frame → Nat
  | .sendLock _ true | .sendGiveBack | .sendWrite _ true | .sendHead true | .sendUnlock true
    | .sendPost => 1
  | _ => 0

/-- A receive that has been granted an entry and has neither posted a free slot nor given
the entry back. -/
def receiving : Frame → Nat
  | .receiveLock | .receiveGiveBack | .receiveRead | .receiveTail _ | .receiveUnlock _
    | .receivePost _ => 1
  | _ => 0

/-- The call is at its first acquire. -/
def first : Frame → Bool
  | .sendSlot _ _ | .receiveSlot _ => true
  | _ => false

theorem sending_receiving (f : Frame) :
    f.sending + f.receiving = f.slots + (f.unposted + f.claimed) := by
  cases f with
  | sendLock _ hadSlot | sendWrite _ hadSlot | sendHead hadSlot | sendUnlock hadSlot =>
    cases hadSlot <;> rfl
  | sendSlot | sendGiveBack | sendTail | sendPost | receiveSlot | receiveLock | receiveGiveBack
    | receiveRead | receiveTail | receiveUnlock | receivePost | returning => rfl

end Frame

namespace Traffic

/-- The sends that have been granted a free slot, at once or by a release that handed it
to them, and have not passed it on. -/
def sends (s : Traffic) : Nat :=
  ∑ t, ((s.doing t).elim 0 Frame.sending + s.system.board.handed s.queue.emptySlots t)

/-- The receives that have been granted an entry and have not passed its slot on. -/
def receives (s : Traffic) : Nat :=
  ∑ t, ((s.doing t).elim 0 Frame.receiving + s.system.board.handed s.queue.filledSlots t)

theorem granted (s : Traffic) :
    (s.system.kernel.semaphores s.queue.emptySlots).count +
        (s.system.kernel.semaphores s.queue.filledSlots).count + s.sends + s.receives =
      s.free + s.occupied := by
  have each : ∀ t, ((s.doing t).elim 0 Frame.sending + s.system.board.handed s.queue.emptySlots t) +
      ((s.doing t).elim 0 Frame.receiving + s.system.board.handed s.queue.filledSlots t) =
        s.tokens s.queue.emptySlots Frame.slots t +
          s.tokens s.queue.filledSlots (fun f => f.unposted + f.claimed) t := by
    intro t
    cases here : s.doing t with
    | none => simp [tokens, here]
    | some f =>
      have same := f.sending_receiving
      simp only [tokens, here, Option.elim_some]
      omega
  have held : s.sends + s.receives = _ := Finset.sum_add_distrib.symm
  have total := held.trans (Finset.sum_congr rfl fun t _ => each t)
  rw [Finset.sum_add_distrib] at total
  rw [occupied_eq]
  simp only [free, stock]
  omega

end Traffic

/-! ### The timers of waiting tasks -/

/-- A wait that is over has no timer left, and a wait without a timeout never had one. -/
structure Board.Timers (b : Board) : Prop where
  woken : ∀ t c, b.Woken t c → c.waitsOn ≠ none → (b.tcb t).sleepTime = 0
  endless : ∀ t c, b.inside t = some c → c.waitsOn ≠ none → c.deadline = none →
    (b.tcb t).sleepTime = 0 ∧ (b.tcb t).waitResult = .success

section
variable {idle : TaskId} {b d : Board} {e : Event} {t : TaskId} {c : Call}

theorem BoardStep.park_result (h : BoardStep idle b (.call t c .parked) d) (on : c.waitsOn ≠ none) :
    (d.tcb t).waitQueue ≠ none ∧ (d.tcb t).waitResult = .success := by
  cases h with
  | hand posts | put posts | drop posts => rcases posts with posts | ⟨_, posts, _⟩ <;> cases posts
  | waitMutex | waitSemaphore => exact ⟨by simp [Board.park], by simp [Board.park]⟩
  | sleep => exact absurd rfl on

theorem BoardStep.timers (h : BoardStep idle b e d) (sound : b.Sound idle) (timers : b.Timers) :
    d.Timers := by
  constructor
  · intro t c woken on
    rcases h.of_inside woken.inside with before | parks
    · cases h.blockEffect sound before with
      | kept _ block =>
        have off := woken.off
        rw [block] at off ⊢
        exact timers.woken t c ⟨before, off⟩ on
      | granted _ _ _ block => rw [block]
      | ticked _ block =>
        have off := woken.off
        rw [block] at off ⊢
        by_cases last : (b.tcb t).sleepTime = 1
        · exact (elapse_expires last).2.1
        · rw [Board.elapse_waitQueue, if_neg last] at off
          have none := timers.woken t c ⟨before, off⟩ on
          rw [elapse_off none, none]
    · subst parks
      exact absurd woken.off (h.park_result on).1
  · intro t c inside on forever
    rcases h.of_inside inside with before | parks
    · obtain ⟨none, success⟩ := timers.endless t c before on forever
      cases h.blockEffect sound before with
      | kept _ block =>
        rw [block]
        exact ⟨none, success⟩
      | granted _ _ _ block =>
        rw [block]
        exact ⟨rfl, rfl⟩
      | ticked _ block =>
        rw [block, elapse_off none]
        exact ⟨none, success⟩
    · subst parks
      exact ⟨(h.counts.endless forever).2.1, (h.park_result on).2⟩

end

/-! ### The lock -/

/-- The owner of the lock is at the ring, or has been handed the lock and not come back. -/
def Traffic.Owned (s : Traffic) : Prop :=
  ∀ u, (s.system.kernel.mutexes s.queue.lock).owner = some u →
    (∃ f, s.doing u = some f ∧ f.inRing) ∨
      ∃ n, s.system.board.Woken u (.mutexAcquire s.queue.lock n)

section
variable {idle : TaskId} {s t : Traffic} {d : Deed} {u : TaskId} {f : Frame} {n : UInt32}

/-- The acquire of the lock has no timeout, and its success leads to the ring. -/
theorem Frame.of_acquire {q : OsMessageQueue} (calls : f.call q = some (.mutexAcquire q.lock n)) :
    n = waitForever ∧ f.inRing = false ∧ (f.proceed (.returned .success)).inRing := by
  cases f with
  | sendLock | receiveLock =>
    cases calls
    exact ⟨rfl, rfl, rfl⟩
  | sendSlot | sendGiveBack | sendWrite | sendHead | sendTail | sendUnlock | sendPost | receiveSlot
    | receiveGiveBack | receiveRead | receiveTail | receiveUnlock | receivePost | returning =>
    simp [Frame.call] at calls

/-- Only a queue call acquires the lock. -/
theorem Traffic.may_lock (may : s.may u (.mutexAcquire s.queue.lock n)) :
    ∃ f, s.doing u = some f ∧ f.call s.queue = some (.mutexAcquire s.queue.lock n) := by
  cases doing : s.doing u with
  | none => simpa [Call.uses] using may_outside may doing
  | some f => exact ⟨f, rfl, may_doing may doing⟩

/-- A call at the ring makes no other kernel call than the release of the lock. -/
theorem Frame.calls_inRing {q : OsMessageQueue} {c : Call} (inRing : f.inRing)
    (calls : f.call q = some c) : c = .mutexRelease q.lock := by
  cases f with
  | sendUnlock | receiveUnlock => exact (Option.some.inj calls).symm
  | sendWrite | sendHead | sendTail | receiveRead | receiveTail => cases calls
  | sendSlot | sendLock | sendGiveBack | sendPost | receiveSlot | receiveLock | receiveGiveBack
    | receivePost | returning => cases inRing

theorem Traffic.Owned.deed (owned : s.Owned) (system : t.system = s.system)
    (lock : t.queue.lock = s.queue.lock)
    (ring : ∀ u f, s.doing u = some f → f.inRing → ∃ g, t.doing u = some g ∧ g.inRing) :
    t.Owned := by
  intro u owner
  rw [lock] at owner ⊢
  rw [system] at owner ⊢
  rcases owned u owner with ⟨f, doing, inRing⟩ | woken
  · exact .inl (ring u f doing inRing)
  · exact .inr woken

theorem Traffic.Owned.step (owned : s.Owned) (sound : s.Sound idle) (h : QueueStep idle s d t) :
    t.Owned := by
  cases h with
  | @enter v op runs free outside =>
    refine owned.deed rfl rfl ?_
    intro u f doing inRing
    have other : u ≠ v := fun same => by simp [same, outside] at doing
    exact ⟨f, by simpa [other] using doing, inRing⟩
  | @leave v reply runs free here =>
    refine owned.deed rfl rfl ?_
    intro u f doing inRing
    have other : u ≠ v := by
      rintro rfl
      obtain rfl := Option.some.inj (here.symm.trans doing)
      cases inRing
    exact ⟨f, by simpa [other] using doing, inRing⟩
  | @access v g g' q runs free here done =>
    obtain ⟨_, after, _, lock, _⟩ := Frame.access_keeps done
    refine owned.deed rfl lock ?_
    intro u f doing inRing
    by_cases self : u = v
    · subst self
      exact ⟨g', by simp, after⟩
    · exact ⟨f, by simpa [self] using doing, inRing⟩
  | @kernel e system step allowed =>
    have board := step.refines sound.board
    intro u owner
    -- a call at the ring does not return from any kernel call but the release of the lock
    have goesOn : ∀ f, s.doing u = some f → f.inRing →
        (∀ out, e ≠ .call u (.mutexRelease s.queue.lock) out) → s.moved e u = some f := by
      intro f doing inRing silent
      rcases s.moved_cases e u with ⟨same, _⟩ | ⟨g, c, out, doing', _, event, _⟩
      · exact same.trans doing
      · obtain rfl := Option.some.inj (doing.symm.trans doing')
        rcases event with rfl | rfl
        · obtain rfl := Frame.calls_inRing inRing (may_doing allowed doing)
          exact absurd rfl (silent out)
        · obtain ⟨may, parks⟩ := sound.placed u c board.of_resume.2.1
          obtain rfl := Frame.calls_inRing inRing (may_doing may doing)
          cases parks
    have enters : ∀ n, s.may u (.mutexAcquire s.queue.lock n) →
        (e = .call u (.mutexAcquire s.queue.lock n) (.returned .success) ∨
          e = .resume u (.mutexAcquire s.queue.lock n) (.returned .success)) →
        ∃ f, s.moved e u = some f ∧ f.inRing := by
      intro n may event
      obtain ⟨f, doing, calls⟩ := may_lock may
      have after : s.moved e u = some (f.proceed (.returned .success)) := by
        rcases event with rfl | rfl <;> simp [Traffic.moved, doing]
      exact ⟨_, after, (Frame.of_acquire calls).2.2⟩
    cases board.mutexEffect s.queue.lock with
    | kept same unreleased =>
      have before : (s.system.kernel.mutexes s.queue.lock).owner = some u := by
        rw [← owner]
        exact congrArg OsMutex.owner same.symm
      rcases owned u before with ⟨f, doing, inRing⟩ | ⟨n, woken⟩
      · exact .inl ⟨f, goesOn f doing inRing (unreleased u), inRing⟩
      · by_cases silent : ∀ c out, e ≠ .resume u c out
        · exact .inr ⟨n, (board.keeps_woken sound.board rfl woken silent).1⟩
        · simp only [not_forall, not_not] at silent
          obtain ⟨c, out, rfl⟩ := silent
          obtain ⟨_, inside, rfl, _⟩ := board.of_resume
          obtain rfl := Option.some.inj (woken.inside.symm.trans inside)
          have success : (s.system.board.tcb u).waitResult = .success := by
            rcases sound.guarded.excludes.woken u n woken with ⟨success, _⟩ | ⟨_, other⟩
            · exact success
            · exact absurd before other
          apply Or.inl
          apply enters n (sound.placed u _ inside).1
          rw [Call.result, success]
          exact .inr rfl
    | locked v n event runs free opened after =>
      have self : v = u := by
        have now : (system.board.mutexes s.queue.lock).owner = some u := owner
        rw [after] at now
        exact Option.some.inj now
      subst self event
      exact .inl (enters n allowed (.inl rfl))
    | unlocked v event runs free nobody after =>
      have now : (system.board.mutexes s.queue.lock).owner = some u := owner
      rw [after] at now
      cases now
    | handed v next event runs free queued after =>
      have now : (system.board.mutexes s.queue.lock).owner = some u := owner
      have self : next = u := by
        rw [after] at now
        exact Option.some.inj now
      subst self
      have left := ((board.sound sound.board).owner _ _ now).2
      obtain ⟨c, on, woken⟩ := board.woken_of_left sound.board queued left
      cases c with
      | mutexAcquire m n =>
        obtain rfl := Waitable.mutex.inj (Option.some.inj on)
        exact .inr ⟨n, woken⟩
      | semaphoreAcquire | mutexRelease | semaphoreRelease | delay => simp [Call.waitsOn] at on

/-- A release of a semaphore of the queue is never dropped. -/
theorem Traffic.Sound.release_room (sound : s.Sound idle) {e : Event} {x : Nat}
    (uses : x = s.queue.emptySlots ∨ x = s.queue.filledSlots) (allowed : s.allows e)
    (release : e.releases x) :
    (s.system.kernel.semaphores x).count < (s.system.kernel.semaphores x).maxCount := by
  obtain ⟨slots, entries⟩ := sound.stocked.fits
  rcases uses with rfl | rfl
  · exact (s.release_room (meters_slots sound.stocked.apart) (.inl rfl) allowed slots release).2
  · exact (s.release_room (meters_entries sound.stocked.apart) (.inr rfl) allowed entries release).2

theorem BoardStep.of_acquire {b d : Board} {m : Nat} {out : Outcome}
    (h : BoardStep idle b (.call u (.mutexAcquire m waitForever) out) d) :
    out = .parked ∨ out = .returned .success ∨ (b.mutexes m).owner = some u := by
  cases h with
  | lock => exact .inr (.inl rfl)
  | waitMutex => exact .inl rfl
  | reenter _ _ own => exact .inr (.inr own)
  | hand posts | put posts | drop posts => rcases posts with posts | ⟨_, posts, _⟩ <;> cases posts

/-- An acquire of the lock that comes back at all has got it. -/
theorem Traffic.Sound.locks (sound : s.Sound idle) (owned : s.Owned)
    (timers : s.system.board.Timers) {e : Event} {system : System}
    (step : Step idle s.system e system) (allowed : s.allows e) {out : Outcome} :
    (e = .call u (.mutexAcquire s.queue.lock n) out → out = .parked ∨ out = .returned .success) ∧
      (e = .resume u (.mutexAcquire s.queue.lock n) out → out = .returned .success) := by
  have board := step.refines sound.board
  constructor
  · rintro rfl
    obtain ⟨f, doing, calls⟩ := may_lock allowed
    obtain ⟨rfl, outside, _⟩ := Frame.of_acquire calls
    rcases board.of_acquire with parked | success | own
    · exact .inl parked
    · exact .inr success
    · exfalso
      rcases owned u own with ⟨g, there, inRing⟩ | ⟨n', woken⟩
      · obtain rfl := Option.some.inj (doing.symm.trans there)
        cases outside.symm.trans inRing
      · cases board.of_call.2.symm.trans woken.inside
  · rintro rfl
    obtain ⟨_, inside, rfl, _⟩ := board.of_resume
    obtain ⟨f, _, calls⟩ := may_lock (sound.placed u _ inside).1
    obtain ⟨rfl, _⟩ := Frame.of_acquire calls
    have success := (timers.endless u _ inside (by simp [Call.waitsOn]) (by simp [Call.deadline])).2
    rw [Call.result, success]

/-- A task that is blocked in the first acquire of its call waits for that semaphore, and
there is none to be had. -/
theorem Traffic.Sound.starved (sound : s.Sound idle) (timers : s.system.board.Timers)
    (live : s.system.kernel.Live u) (doing : s.doing u = some f) {x : Nat} (calls : f.call s.queue = some (.semaphoreAcquire x n))
    (stocked : s.system.board.Stocked x)
    (blocked : (s.system.kernel.osTasks u).state = .blocked) :
    (s.system.kernel.semaphores x).count = 0 := by
  obtain ⟨c, inside⟩ := Option.ne_none_iff_exists'.mp (sound.board.within u live blocked)
  obtain ⟨may, _⟩ := sound.placed u c inside
  obtain rfl := Option.some.inj (calls.symm.trans (may_doing may doing))
  have waits : (s.system.board.tcb u).waitQueue ≠ none := by
    intro off
    have ended := timers.woken u _ ⟨inside, off⟩ (by simp [Call.waitsOn])
    rcases (sound.board.blocked u live).mp blocked with running | queued
    · exact running ended
    · exact queued off
  obtain ⟨o, on⟩ := Option.ne_none_iff_exists'.mp waits
  have queued := sound.board.parked o u live on
  obtain rfl := sound.board.waits queued inside rfl
  exact stocked.scarce (List.ne_nil_of_mem queued)

end

section
variable {idle : TaskId} {s : Traffic} {past : Log}

theorem Service.settled (run : Service idle past s) : s.system.board.Timers ∧ s.Owned := by
  induction run with
  | @start s opened =>
    obtain ⟨_, _, _, _, nobody⟩ := opened.launched
    refine ⟨⟨?_, ?_⟩, ?_⟩
    · intro t c woken
      cases (nobody t).symm.trans woken.inside
    · intro t c inside
      cases (nobody t).symm.trans inside
    · intro u owner
      rw [opened.fresh.lock] at owner
      cases owner
  | next run h ih =>
    have sound := Service.sound run
    refine ⟨?_, ih.2.step sound h⟩
    rcases h.system_kept with ⟨e, _, step, _⟩ | same
    · exact (step.refines sound.board).timers sound.board ih.1
    · rw [same]
      exact ih.1

/-- How many calls have been handed a token of `x` that they have not come back with. -/
def Traffic.handedTokens (s : Traffic) (x : Nat) : Nat := ∑ t, s.system.board.handed x t

/-- While every call is at its first acquire, each entry is in a count or has been handed
over, and so is each free slot. -/
theorem Traffic.idle_totals (first : ∀ t f, s.doing t = some f → f.first) :
    s.occupied = (s.system.kernel.semaphores s.queue.filledSlots).count +
        s.handedTokens s.queue.filledSlots ∧
      s.free = (s.system.kernel.semaphores s.queue.emptySlots).count +
        s.handedTokens s.queue.emptySlots := by
  have none : ∀ weight : Frame → Nat, (∀ f, f.first → weight f = 0) →
      ∀ t, (s.doing t).elim 0 weight = 0 := by
    intro weight light t
    cases here : s.doing t with
    | none => rfl
    | some f => exact light f (first t f here)
  have unposted := none Frame.unposted (by intro f; cases f <;> simp [Frame.first, Frame.unposted])
  have claimed := none Frame.claimed (by intro f; cases f <;> simp [Frame.first, Frame.claimed])
  have slots := none Frame.slots (by intro f; cases f <;> simp [Frame.first, Frame.slots])
  simp only [occupied, free, stock, tokens, handedTokens, unposted, claimed, slots,
    Finset.sum_const_zero, Nat.zero_add, Nat.add_zero, and_self]

/-- No call is past its first acquire: it has not come back from it, and no release has
granted it the token it waits for. -/
structure Traffic.Rests (s : Traffic) : Prop where
  first : ∀ t f, s.doing t = some f → f.first
  ungranted : ∀ t, s.system.board.handed s.queue.emptySlots t = 0 ∧
    s.system.board.handed s.queue.filledSlots t = 0

/-- **Slot accounting.** All slots are accounted for, no release is dropped, and the lock
is always got. While every call is at its first acquire, the receives that are blocked are
out of messages but for those already handed to others, and the sends out of slots. -/
theorem queue_accounting (run : Service idle past s) :
    ((s.system.kernel.semaphores s.queue.emptySlots).count +
      (s.system.kernel.semaphores s.queue.filledSlots).count + s.sends + s.receives =
        s.queue.capacity) ∧
    (∀ e s' x, QueueStep idle s (.kernel e) s' →
      (x = s.queue.emptySlots ∨ x = s.queue.filledSlots) → e.releases x →
        (s.system.kernel.semaphores x).count < (s.system.kernel.semaphores x).maxCount) ∧
    (∀ e s' u n out, QueueStep idle s (.kernel e) s' →
      (e = .call u (.mutexAcquire s.queue.lock n) out → out = .parked ∨ out = .returned .success) ∧
        (e = .resume u (.mutexAcquire s.queue.lock n) out → out = .returned .success)) ∧
    ((∀ t f, s.doing t = some f → f.first) →
      (∀ t n, s.system.kernel.Live t → s.doing t = some (.receiveSlot n) →
        (s.system.kernel.osTasks t).state = .blocked →
          past.unread.length = s.handedTokens s.queue.filledSlots) ∧
      (∀ t m n, s.system.kernel.Live t → s.doing t = some (.sendSlot m n) →
        (s.system.kernel.osTasks t).state = .blocked →
          past.unread.length + s.handedTokens s.queue.emptySlots = s.queue.capacity)) ∧
    (s.Rests →
      (∀ t n, s.system.kernel.Live t → s.doing t = some (.receiveSlot n) →
        (s.system.kernel.osTasks t).state = .blocked → past.unread = []) ∧
      (∀ t m n, s.system.kernel.Live t → s.doing t = some (.sendSlot m n) →
        (s.system.kernel.osTasks t).state = .blocked →
          past.unread.length = s.queue.capacity)) := by
  have sound := Service.sound run
  have length := (Service.filled run).length
  have total := sound.stocked.total
  obtain ⟨timers, owned⟩ := Service.settled run
  have waits : (∀ t f, s.doing t = some f → f.first) →
      (∀ t n, s.system.kernel.Live t → s.doing t = some (.receiveSlot n) →
        (s.system.kernel.osTasks t).state = .blocked →
          past.unread.length = s.handedTokens s.queue.filledSlots) ∧
      (∀ t m n, s.system.kernel.Live t → s.doing t = some (.sendSlot m n) →
        (s.system.kernel.osTasks t).state = .blocked →
          past.unread.length + s.handedTokens s.queue.emptySlots = s.queue.capacity) := by
    intro first
    obtain ⟨occupied, free⟩ := Traffic.idle_totals first
    constructor
    · intro t n live doing blocked
      have none := sound.starved timers live doing rfl sound.stocked.filled blocked
      omega
    · intro t m n live doing blocked
      have none := sound.starved timers live doing rfl sound.stocked.empty blocked
      omega
  refine ⟨s.granted.trans total, ?_, ?_, waits, ?_⟩
  · intro e s' x h uses release
    cases h with
    | kernel step allowed => exact sound.release_room uses allowed release
  · intro e s' u n out h
    cases h with
    | kernel step allowed => exact sound.locks owned timers step allowed
  · rintro ⟨first, ungranted⟩
    have nothing : s.handedTokens s.queue.emptySlots = 0 ∧
        s.handedTokens s.queue.filledSlots = 0 := by
      constructor
      · exact Finset.sum_eq_zero fun t _ => (ungranted t).1
      · exact Finset.sum_eq_zero fun t _ => (ungranted t).2
    obtain ⟨receives, sends⟩ := waits first
    constructor
    · intro t n live doing blocked
      have empty := receives t n live doing blocked
      rw [nothing.2] at empty
      exact List.eq_nil_of_length_eq_zero empty
    · intro t m n live doing blocked
      have full := sends t m n live doing blocked
      rwa [nothing.1] at full

end

/-- A call that acquires a semaphore is at its first acquire. -/
theorem Frame.of_semaphore {q : OsMessageQueue} {f : Frame} {x : Nat} {n : UInt32}
    (calls : f.call q = some (.semaphoreAcquire x n)) :
    (∃ m, f = .sendSlot m n) ∧ x = q.emptySlots ∨ f = .receiveSlot n ∧ x = q.filledSlots := by
  cases f with
  | sendSlot m n' =>
    cases calls
    exact .inl ⟨⟨m, rfl⟩, rfl⟩
  | receiveSlot n' =>
    cases calls
    exact .inr ⟨rfl, rfl⟩
  | sendLock | sendGiveBack | sendWrite | sendHead | sendTail | sendUnlock | sendPost | receiveLock
    | receiveGiveBack | receiveRead | receiveTail | receiveUnlock | receivePost | returning =>
    simp [Frame.call] at calls

/-- Task 1 fills a queue of one slot and waits for another. -/
theorem queue_accounting_full : ∃ (past : Log) (s : Traffic) (m : UInt32), Service 0 past s ∧
    s.doing 1 = some (.sendSlot m 9) ∧ (s.system.kernel.osTasks 1).state = .blocked ∧
      past.unread.length = s.queue.capacity := by
  obtain ⟨past, s, run, latest⟩ := serve_run
    (show serve 0 1 [0, 1]
      (fun _ s => (∀ t, (s.doing t).all Frame.first ∧
          s.system.board.handed s.queue.emptySlots t = 0 ∧
            s.system.board.handed s.queue.filledSlots t = 0) ∧
        (s.doing 1).any
          (fun f => f.call s.queue = some (.semaphoreAcquire s.queue.emptySlots 9)) ∧
        s.system.kernel.Live 1 ∧ (s.system.kernel.osTasks 1).state = .blocked)
      [.enter 1 (.send 5 0), .kernel (.call 1 (.semaphoreAcquire 0 0) (.returned .success)),
        .kernel (.call 1 (.mutexAcquire 0 waitForever) (.returned .success)), .access 1, .access 1,
        .kernel (.call 1 (.mutexRelease 0) .finished),
        .kernel (.call 1 (.semaphoreRelease 1) .finished), .leave 1 (.sent .success),
        .enter 1 (.send 6 9), .kernel (.call 1 (.semaphoreAcquire 0 9) .parked)] by
      decide +kernel)
  obtain ⟨rests, doing, live, blocked⟩ := of_decide_eq_true latest
  obtain ⟨f, here, calls⟩ := (Option.any_eq_true _ _).mp doing
  have apart := (Service.sound run).stocked.apart
  obtain ⟨m, rfl⟩ := ((Frame.of_semaphore (of_decide_eq_true calls)).resolve_right
    fun entry => apart entry.2).1
  have first : ∀ t f, s.doing t = some f → f.first := by
    intro t f there
    have quiet := (rests t).1
    rwa [there] at quiet
  obtain ⟨_, _, _, _, resting⟩ := queue_accounting run
  obtain ⟨_, full⟩ := resting ⟨first, fun t => (rests t).2⟩
  exact ⟨past, s, m, run, here, blocked, full 1 m 9 live here blocked⟩

/-- Tasks 1 and 2 wait for messages. The one that task 3 sends has been handed to task 1, which
has not run since, and task 2 is blocked although the ring holds it. -/
theorem queue_accounting_handed : ∃ (past : Log) (s : Traffic), Service 0 past s ∧
    (∀ t f, s.doing t = some f → f.first) ∧ s.system.kernel.Live 2 ∧
      s.doing 2 = some (.receiveSlot 9) ∧ (s.system.kernel.osTasks 2).state = .blocked ∧
        past.unread = [(0, 5)] := by
  obtain ⟨past, s, run, latest⟩ := serve_run
    (show serve 0 1 [0, 3, 2, 1]
      (fun past s => (∀ t, (s.doing t).all Frame.first) ∧ s.system.kernel.Live 2 ∧
        (s.doing 2).any
          (fun f => f.call s.queue = some (.semaphoreAcquire s.queue.filledSlots 9)) ∧
        (s.system.kernel.osTasks 2).state = .blocked ∧ past.unread = [(0, 5)])
      [.enter 1 (.receive 9), .kernel (.call 1 (.semaphoreAcquire 1 9) .parked), .kernel .pass,
        .enter 2 (.receive 9), .kernel (.call 2 (.semaphoreAcquire 1 9) .parked), .kernel .pass,
        .enter 3 (.send 5 0), .kernel (.call 3 (.semaphoreAcquire 0 0) (.returned .success)),
        .kernel (.call 3 (.mutexAcquire 0 waitForever) (.returned .success)), .access 3, .access 3,
        .kernel (.call 3 (.mutexRelease 0) .finished),
        .kernel (.call 3 (.semaphoreRelease 1) .finished), .leave 3 (.sent .success)] by
      decide +kernel)
  obtain ⟨quiet, live, doing, blocked, unread⟩ := of_decide_eq_true latest
  obtain ⟨f, here, calls⟩ := (Option.any_eq_true _ _).mp doing
  have apart := (Service.sound run).stocked.apart
  obtain ⟨rfl, _⟩ := (Frame.of_semaphore (of_decide_eq_true calls)).resolve_left
    fun slot => apart slot.2.symm
  refine ⟨past, s, run, ?_, live, here, blocked, unread⟩
  intro t f there
  have first := quiet t
  rwa [there] at first
end Sentinel
