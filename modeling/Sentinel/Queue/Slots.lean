import Sentinel.Queue.Lock
import Sentinel.Semaphore.Tokens
import Mathlib.Algebra.Order.BigOperators.Group.Finset

/-! Free slots and entries, counted wherever their tokens are: in the count of the
semaphore, with a task that has been handed one and not come back yet, or with a
queue call between two of its statements. Together they are the capacity. -/

namespace Sentinel

open Runs (Transition Run)

/-- A token of `x` that a parked task has been handed and has not come back with. -/
def Board.handed (b : Board) (x : Nat) (t : TaskId) : Nat :=
  match b.inside t with
  | some (.semaphoreAcquire z _) =>
    if z = x ∧ (b.tcb t).waitQueue = none ∧ (b.tcb t).waitResult = .success then 1 else 0
  | _ => 0

section
variable {idle : TaskId} {b d : Board} {e : Event} {x : Nat} {t : TaskId}

theorem Board.handed_le (b : Board) (x : Nat) (t : TaskId) : b.handed x t ≤ 1 := by
  unfold handed
  split
  · split <;> decide
  · decide

theorem Board.handed_pos : 0 < b.handed x t ↔
    ∃ n, b.Woken t (.semaphoreAcquire x n) ∧ (b.tcb t).waitResult = .success := by
  unfold handed
  constructor
  · intro some
    split at some
    · rename_i z n inside
      split at some
      · rename_i here
        obtain ⟨rfl, off, success⟩ := here
        exact ⟨n, ⟨inside, off⟩, success⟩
      · cases some
    · cases some
  · rintro ⟨n, ⟨inside, off⟩, success⟩
    simp [inside, off, success]

/-- A waiting task has been handed nothing yet. -/
theorem Board.Sound.handed_queued (sound : b.Sound idle) {o : Waitable} (queued : t ∈ b.waiters o) :
    b.handed x t = 0 := by
  by_contra some
  obtain ⟨n, woken, _⟩ := Board.handed_pos.mp (Nat.pos_of_ne_zero some)
  cases woken.off.symm.trans (sound.queued _ _ queued).2

/-- The step takes `t` off the queue of `x` by a release. -/
def Board.Served (b : Board) (e : Event) (d : Board) (x : Nat) (t : TaskId) : Prop :=
  e.releases x ∧ t ∈ b.waiters (.semaphore x) ∧ t ∉ d.waiters (.semaphore x)

instance : Decidable (b.Served e d x t) := inferInstanceAs (Decidable (_ ∧ _))

/-- The event brings `t` back from a wait for `x` with a token. -/
def Event.fetches (x : Nat) (t : TaskId) : Event → Bool
  | .resume u (.semaphoreAcquire z _) (.returned .success) => u = t ∧ z = x
  | _ => false

/-- The event takes a token of `x` without a wait. -/
def Event.takes (x : Nat) (t : TaskId) : Event → Bool
  | .call u (.semaphoreAcquire z _) (.returned .success) => u = t ∧ z = x
  | _ => false

theorem BoardStep.handed_of_served (h : BoardStep idle b e d) (sound : b.Sound idle)
    (served : b.Served e d x t) : 0 < d.handed x t := by
  obtain ⟨release, queued, left⟩ := served
  obtain ⟨c, on, woken⟩ := h.woken_of_left sound queued left
  cases c with
  | semaphoreAcquire z n =>
    obtain rfl : z = x := by simpa [Call.waitsOn] using on
    refine Board.handed_pos.mpr ⟨n, woken, ?_⟩
    cases h.wakes sound on woken with
    | before old => cases old.off.symm.trans (sound.queued _ _ queued).2
    | served _ _ result => exact result
    | expired _ _ _ tick =>
      subst tick
      cases release
  | mutexAcquire | mutexRelease | semaphoreRelease | delay => simp [Call.waitsOn] at on

theorem Event.fetches_iff : e.fetches x t ↔
    ∃ n, e = .resume t (.semaphoreAcquire x n) (.returned .success) := by
  constructor
  · intro back
    unfold fetches at back
    split at back
    · rename_i u z n
      obtain ⟨rfl, rfl⟩ := of_decide_eq_true back
      exact ⟨n, rfl⟩
    · cases back
  · rintro ⟨n, rfl⟩
    simp [fetches]

theorem Event.takes_iff : e.takes x t ↔
    ∃ n, e = .call t (.semaphoreAcquire x n) (.returned .success) := by
  constructor
  · intro now
    unfold takes at now
    split at now
    · rename_i u z n
      obtain ⟨rfl, rfl⟩ := of_decide_eq_true now
      exact ⟨n, rfl⟩
    · cases now
  · rintro ⟨n, rfl⟩
    simp [takes]

theorem BoardStep.handed_of_fetches (h : BoardStep idle b e d) (sound : b.Sound idle)
    (fetches : e.fetches x t) : 0 < b.handed x t ∧ d.handed x t = 0 := by
  obtain ⟨n, rfl⟩ := Event.fetches_iff.mp fetches
  have woken := h.woken_of_resume sound
  obtain ⟨_, _, out, after⟩ := h.of_resume
  refine ⟨Board.handed_pos.mpr ⟨n, woken, (Outcome.returned.inj out).symm⟩, ?_⟩
  simp [Board.handed, after]

/-- A handed token stays until its task comes back with it. -/
theorem BoardStep.handed_kept (h : BoardStep idle b e d) (sound : b.Sound idle)
    (handed : 0 < b.handed x t) (stays : ¬ e.fetches x t) : 0 < d.handed x t := by
  obtain ⟨n, woken, success⟩ := Board.handed_pos.mp handed
  have silent : ∀ c out, e ≠ .resume t c out := by
    rintro c out rfl
    obtain ⟨_, inside, rfl, _⟩ := h.of_resume
    obtain rfl := Option.some.inj (woken.inside.symm.trans inside)
    exact stays (Event.fetches_iff.mpr ⟨n, by rw [Call.result, success]⟩)
  obtain ⟨still, same⟩ := h.keeps_woken sound rfl woken silent
  exact Board.handed_pos.mpr ⟨n, still, same.trans success⟩

theorem BoardStep.handed_from (h : BoardStep idle b e d) (sound : b.Sound idle)
    (handed : 0 < d.handed x t) : 0 < b.handed x t ∨ b.Served e d x t := by
  obtain ⟨n, woken, success⟩ := Board.handed_pos.mp handed
  cases h.wakes sound rfl woken with
  | before old kept => exact .inl (Board.handed_pos.mpr ⟨n, old, kept.symm.trans success⟩)
  | served queued _ _ serves =>
    refine .inr ⟨by simp [serves.1.releases], queued, fun still => ?_⟩
    cases woken.off.symm.trans ((h.sound sound).queued _ _ still).2
  | expired _ _ result => cases result.symm.trans success

/-- A token is handed by a release, and fetched by its task. -/
theorem BoardStep.handed (h : BoardStep idle b e d) (sound : b.Sound idle) :
    d.handed x t + (if e.fetches x t then 1 else 0) =
      b.handed x t + if b.Served e d x t then 1 else 0 := by
  have before := b.handed_le x t
  have after := d.handed_le x t
  by_cases fetches : e.fetches x t
  · obtain ⟨had, gone⟩ := h.handed_of_fetches sound fetches
    have idle : ¬ b.Served e d x t := fun served => by
      have := h.handed_of_served sound served
      omega
    rw [if_pos fetches, if_neg idle]
    omega
  · rw [if_neg fetches]
    by_cases served : b.Served e d x t
    · have none : b.handed x t = 0 := sound.handed_queued served.2.1
      have now := h.handed_of_served sound served
      rw [if_pos served]
      omega
    · rw [if_neg served]
      by_cases had : 0 < b.handed x t
      · have := h.handed_kept sound had fetches
        omega
      · have : ¬ 0 < d.handed x t := fun now => (h.handed_from sound now).elim had served
        omega

/-- What a step gives to `t`, it takes at once or is served. -/
theorem Board.tokens_eq : Board.tokens x t b e d =
    (if e.takes x t then 1 else 0) + if b.Served e d x t then 1 else 0 := by
  unfold Board.tokens
  split
  · simp [Event.takes, Board.Served, Event.releases]
  · rename_i other
    have waits : e.takes x t = false := by
      unfold Event.takes
      split
      · exact absurd rfl (other _ _ _)
      · rfl
    rw [waits, if_neg Bool.false_ne_true, Nat.zero_add]
    rfl

end

/-! ### Tokens in hand -/

namespace Frame

/-- The free slot in the hands of a call: reserved and not written yet, or read and not
posted yet. -/
def slots : Frame → Nat
  | .sendLock _ true | .sendGiveBack | .sendWrite _ true | .receiveTail _ | .receiveUnlock _
    | .receivePost _ => 1
  | _ => 0

/-- The message of a send that has written it with a slot and not posted it yet. -/
def unposted : Frame → Nat
  | .sendHead true | .sendUnlock true | .sendPost => 1
  | _ => 0

/-- The message that a receive has a token for and has not read yet. -/
def claimed : Frame → Nat
  | .receiveLock | .receiveGiveBack | .receiveRead => 1
  | _ => 0

end Frame

/-- `weight` says how many tokens of `x` a call has in hand before each statement. -/
structure Meters (q : OsMessageQueue) (x : Nat) (weight : Frame → Nat) : Prop where
  acquire : ∀ f n out, f.call q = some (.semaphoreAcquire x n) → weight f = 0 ∧
    weight (f.proceed out) = if out = .returned .success then 1 else 0
  release : ∀ f out, f.call q = some (.semaphoreRelease x) → weight f = 1 ∧
    weight (f.proceed out) = 0
  other : ∀ f c out, f.call q = some c → (∀ n, c ≠ .semaphoreAcquire x n) →
    c ≠ .semaphoreRelease x → weight (f.proceed out) = weight f
  start : ∀ op : Operation, weight op.start = 0
  finish : ∀ reply, weight (.returning reply) = 0

theorem meters_slots {q : OsMessageQueue} (apart : q.emptySlots ≠ q.filledSlots) :
    Meters q q.emptySlots Frame.slots where
  acquire f n out calls := by
    cases f <;> simp [Frame.call, apart.symm] at calls
    by_cases success : out = .returned .success <;> simp [Frame.slots, Frame.proceed, success]
  release f out calls := by
    cases f <;> simp [Frame.call, apart.symm] at calls <;> exact ⟨rfl, rfl⟩
  other f c out calls acquires releases := by
    cases f with
    | sendSlot _ n => exact absurd (Option.some.inj calls).symm (acquires n)
    | sendGiveBack | receivePost => exact absurd (Option.some.inj calls).symm releases
    | sendLock message hadSlot =>
      by_cases success : out = .returned .success <;> cases hadSlot <;>
        simp [Frame.slots, Frame.proceed, success]
    | sendUnlock hadSlot => cases hadSlot <;> rfl
    | receiveSlot | receiveLock =>
      by_cases success : out = .returned .success <;> simp [Frame.slots, Frame.proceed, success]
    | sendPost | receiveGiveBack | receiveUnlock | sendWrite | sendHead | sendTail | receiveRead
      | receiveTail | returning => rfl
  start op := by cases op <;> rfl
  finish _ := rfl

theorem meters_entries {q : OsMessageQueue} (apart : q.emptySlots ≠ q.filledSlots) :
    Meters q q.filledSlots fun f => f.unposted + f.claimed where
  acquire f n out calls := by
    cases f <;> simp [Frame.call, apart] at calls
    by_cases success : out = .returned .success <;>
      simp [Frame.unposted, Frame.claimed, Frame.proceed, success]
  release f out calls := by
    cases f <;> simp [Frame.call, apart] at calls <;> exact ⟨rfl, rfl⟩
  other f c out calls acquires releases := by
    cases f with
    | receiveSlot n => exact absurd (Option.some.inj calls).symm (acquires n)
    | sendPost | receiveGiveBack => exact absurd (Option.some.inj calls).symm releases
    | sendLock message hadSlot =>
      by_cases success : out = .returned .success <;> cases hadSlot <;>
        simp [Frame.unposted, Frame.claimed, Frame.proceed, success]
    | sendUnlock hadSlot => cases hadSlot <;> rfl
    | receiveLock =>
      by_cases success : out = .returned .success <;>
        simp [Frame.unposted, Frame.claimed, Frame.proceed, success]
    | sendSlot | sendGiveBack | receivePost | receiveUnlock | sendWrite | sendHead | sendTail
      | receiveRead | receiveTail | returning => rfl
  start op := by cases op <;> rfl
  finish _ := rfl

/-! ### What the kernel conserves -/

/-- The tokens of `x` that `t` has, in hand or handed. -/
def Traffic.tokens (s : Traffic) (x : Nat) (weight : Frame → Nat) (t : TaskId) : Nat :=
  (s.doing t).elim 0 weight + s.system.board.handed x t

/-- All tokens of `x`. -/
def Traffic.stock (s : Traffic) (x : Nat) (weight : Frame → Nat) : Nat :=
  (s.system.kernel.semaphores x).count + ∑ t, s.tokens x weight t

section
variable {idle : TaskId} {s t : Traffic} {d : Deed} {u : TaskId} {f f' : Frame} {x : Nat}
  {weight : Frame → Nat}

/-- The event is a release of `x` by `u`. -/
def Event.givesBack (x : Nat) (u : TaskId) : Event → Bool
  | .call v (.semaphoreRelease z) _ => v = u ∧ z = x
  | _ => false

theorem Event.givesBack_iff {e : Event} : e.givesBack x u ↔
    ∃ out, e = .call u (.semaphoreRelease x) out := by
  constructor
  · intro gives
    unfold givesBack at gives
    split at gives
    · rename_i v z out
      obtain ⟨rfl, rfl⟩ := of_decide_eq_true gives
      exact ⟨out, rfl⟩
    · cases gives
  · rintro ⟨out, rfl⟩
    simp [givesBack]

theorem Step.finished_of_release {v : TaskId} {z : Nat} {out : Outcome} {a b : System}
    (step : Step idle a (.call v (.semaphoreRelease z) out) b) : out = .finished := by
  cases step with
  | call _ _ _ exec => exact (Prod.mk.inj (Option.some.inj exec)).1.symm

/-- What a kernel event does to the tokens that a call has in hand. -/
theorem Traffic.moved_weight {e : Event} {system : System} (meters : Meters s.queue x weight)
    (uses : x = s.queue.emptySlots ∨ x = s.queue.filledSlots) (placed : s.Placed)
    (step : Step idle s.system e system) (allowed : s.allows e)
    (sound : s.system.board.Sound idle) (u : TaskId) :
    (s.moved e u).elim 0 weight + (if e.givesBack x u then 1 else 0) =
      (s.doing u).elim 0 weight + (if e.takes x u then 1 else 0) +
        if e.fetches x u then 1 else 0 := by
  have board := step.refines sound
  have own : ∀ c out, e = .call u c out ∨ e = .resume u c out → s.may u c ∧
      (e = .resume u c out → c.parks) := by
    intro c out event
    refine ⟨placed.may_of_event allowed board event, ?_⟩
    rintro rfl
    exact (placed u c board.of_resume.2.1).2
  rcases s.moved_cases e u with ⟨same, silent⟩ | ⟨f, c, out, doing, awake, event, after⟩
  · have apart : ∀ c out, out ≠ .parked → e = .call u c out ∨ e = .resume u c out →
        c.uses s.queue = false := by
      intro c out awake event
      cases doing : s.doing u with
      | none => exact may_outside (own c out event).1 doing
      | some f =>
        have := silent f c out doing awake
        exact absurd event (not_or.mpr this)
    have gives : ¬ e.givesBack x u := fun gives => by
      obtain ⟨out, rfl⟩ := Event.givesBack_iff.mp gives
      have := apart _ out (by simp [step.finished_of_release]) (.inl rfl)
      rcases uses with rfl | rfl <;> simp [Call.uses] at this
    have takes : ¬ e.takes x u := fun takes => by
      obtain ⟨n, rfl⟩ := Event.takes_iff.mp takes
      have := apart _ _ (by simp) (.inl rfl)
      rcases uses with rfl | rfl <;> simp [Call.uses] at this
    have fetches : ¬ e.fetches x u := fun fetches => by
      obtain ⟨n, rfl⟩ := Event.fetches_iff.mp fetches
      have := apart _ _ (by simp) (.inr rfl)
      rcases uses with rfl | rfl <;> simp [Call.uses] at this
    rw [same, if_neg gives, if_neg takes, if_neg fetches]
  · rw [doing, after, Option.elim_some, Option.elim_some]
    obtain ⟨may, parks⟩ := own c out event
    have calls := may_doing may doing
    by_cases acquires : ∃ n, c = .semaphoreAcquire x n
    · obtain ⟨n, rfl⟩ := acquires
      obtain ⟨before, now⟩ := meters.acquire f n out calls
      rw [before, now]
      rcases event with rfl | rfl <;> by_cases success : out = .returned .success <;>
        simp [Event.givesBack, Event.takes, Event.fetches, success]
    have takes : ¬ e.takes x u := fun takes => by
      obtain ⟨n, now⟩ := Event.takes_iff.mp takes
      rcases event with rfl | rfl <;> cases now
      exact acquires ⟨n, rfl⟩
    have fetches : ¬ e.fetches x u := fun fetches => by
      obtain ⟨n, now⟩ := Event.fetches_iff.mp fetches
      rcases event with rfl | rfl <;> cases now
      exact acquires ⟨n, rfl⟩
    rw [if_neg takes, if_neg fetches]
    by_cases releases : c = .semaphoreRelease x
    · subst releases
      rcases event with rfl | rfl
      · obtain ⟨before, now⟩ := meters.release f out calls
        rw [before, now, if_pos (Event.givesBack_iff.mpr ⟨out, rfl⟩)]
      · cases parks rfl
    · have gives : ¬ e.givesBack x u := fun gives => by
        obtain ⟨out', now⟩ := Event.givesBack_iff.mp gives
        rcases event with rfl | rfl <;> cases now
        exact releases rfl
      rw [if_neg gives, meters.other f c out calls (fun n same => acquires ⟨n, same⟩) releases]

/-- A call that gives a token back still has it, so the semaphore has room for it. -/
theorem Traffic.release_room (s : Traffic) {e : Event} (meters : Meters s.queue x weight)
    (uses : x = s.queue.emptySlots ∨ x = s.queue.filledSlots) (allowed : s.allows e)
    (fits : s.stock x weight ≤ (s.system.kernel.semaphores x).maxCount) (release : e.releases x) :
    (∃ v out, e = .call v (.semaphoreRelease x) out) ∧
      (s.system.kernel.semaphores x).count < (s.system.kernel.semaphores x).maxCount := by
  cases e with
  | call v c out =>
    cases c with
    | semaphoreRelease z =>
      obtain rfl : z = x := by simpa [Event.releases] using release
      have own : (s.doing v).elim 0 weight = 1 := by
        cases doing : s.doing v with
        | none => rcases uses with rfl | rfl <;> simpa [Call.uses] using may_outside allowed doing
        | some f => exact (meters.release f out (may_doing allowed doing)).1
      have part : s.tokens z weight v ≤ ∑ u, s.tokens z weight u :=
        Finset.single_le_sum (fun _ _ => Nat.zero_le _) (Finset.mem_univ v)
      refine ⟨⟨v, out, rfl⟩, ?_⟩
      simp only [Traffic.stock, Traffic.tokens] at fits part
      omega
    | mutexAcquire | mutexRelease | semaphoreAcquire | delay => cases release
  | post z =>
    obtain rfl : z = x := by simpa [Event.releases] using release
    obtain ⟨empty, filled⟩ := of_decide_eq_true allowed
    exact absurd uses (not_or.mpr ⟨empty, filled⟩)
  | resume | tick | pass => cases release

theorem Traffic.released_eq (s : Traffic) {e : Event} (meters : Meters s.queue x weight)
    (uses : x = s.queue.emptySlots ∨ x = s.queue.filledSlots) (allowed : s.allows e)
    (fits : s.stock x weight ≤ (s.system.kernel.semaphores x).maxCount) :
    Board.released x s.system.board e = ∑ u, if e.givesBack x u then 1 else 0 := by
  by_cases release : e.releases x
  · obtain ⟨⟨v, out, rfl⟩, room⟩ := s.release_room meters uses allowed fits release
    have kept : Board.released x s.system.board (.call v (.semaphoreRelease x) out) = 1 :=
      if_pos ⟨release, fun full => room.ne full.2⟩
    simp [kept, Event.givesBack]
  · have none : ∀ u, ¬ e.givesBack x u := fun u gives => by
      obtain ⟨out, rfl⟩ := Event.givesBack_iff.mp gives
      simp [Event.releases] at release
    simp [Board.released, release, none]

/-- A kernel event moves tokens of the queue about, as long as none is dropped. -/
theorem Traffic.stock_kernel {e : Event} {system : System} (meters : Meters s.queue x weight)
    (uses : x = s.queue.emptySlots ∨ x = s.queue.filledSlots) (placed : s.Placed)
    (step : Step idle s.system e system) (allowed : s.allows e)
    (sound : s.system.board.Sound idle) (stocked : s.system.board.Stocked x)
    (fits : s.stock x weight ≤ (s.system.kernel.semaphores x).maxCount) :
    Traffic.stock ⟨system, s.queue, s.moved e⟩ x weight = s.stock x weight := by
  have board := step.refines sound
  have balance := board.balance sound stocked
  -- task by task: what is in hand, what has been handed, what is given back
  have each : ∀ u, Traffic.tokens ⟨system, s.queue, s.moved e⟩ x weight u +
      (if e.givesBack x u then 1 else 0) =
        s.tokens x weight u + Board.tokens x u s.system.board e system.board := by
    intro u
    have hand := s.moved_weight meters uses placed step allowed sound u
    have handed : system.board.handed x u + _ = _ := board.handed sound
    rw [Board.tokens_eq]
    simp only [Traffic.tokens]
    omega
  have total := Finset.sum_congr rfl fun u (_ : u ∈ Finset.univ) => each u
  rw [Finset.sum_add_distrib, Finset.sum_add_distrib] at total
  have released : Board.released x s.system.board e = ∑ u, if e.givesBack x u then 1 else 0 :=
    s.released_eq meters uses allowed fits
  simp only [Traffic.stock] at fits ⊢
  have before : (s.system.board.semaphores x).count = (s.system.kernel.semaphores x).count := rfl
  have after : (system.board.semaphores x).count = (system.kernel.semaphores x).count := rfl
  omega

/-- A queue call that moves on changes only what it has in hand itself. -/
theorem Traffic.stock_update (s : Traffic) (q : OsMessageQueue) (v : TaskId) (o : Option Frame)
    (x : Nat) (weight : Frame → Nat) :
    Traffic.stock ⟨s.system, q, Function.update s.doing v o⟩ x weight + (s.doing v).elim 0 weight =
      s.stock x weight + o.elim 0 weight := by
  have each : ∀ u, Traffic.tokens ⟨s.system, q, Function.update s.doing v o⟩ x weight u +
      (if v = u then (s.doing v).elim 0 weight else 0) =
        s.tokens x weight u + if v = u then o.elim 0 weight else 0 := by
    intro u
    by_cases self : v = u
    · subst self
      simp only [Traffic.tokens, Function.update_self, if_true]
      omega
    · simp [Traffic.tokens, self, Ne.symm self]
  have total := Finset.sum_congr rfl fun u (_ : u ∈ Finset.univ) => each u
  rw [Finset.sum_add_distrib, Finset.sum_add_distrib, Finset.sum_ite_eq, Finset.sum_ite_eq] at total
  simp only [Finset.mem_univ, if_true] at total
  simp only [Traffic.stock]
  omega

end

/-! ### Free slots and entries -/

namespace Traffic

/-- The slots that are free or about to be. -/
def free (s : Traffic) : Nat := s.stock s.queue.emptySlots Frame.slots

/-- The messages there are to read: those that `filled_slots` counts, those whose send has
not posted them yet, and those a receive has a token for. -/
def occupied (s : Traffic) : Nat :=
  (s.system.kernel.semaphores s.queue.filledSlots).count +
    ∑ t, (s.doing t).elim 0 Frame.unposted +
    ∑ t, ((s.doing t).elim 0 Frame.claimed + s.system.board.handed s.queue.filledSlots t)

theorem occupied_eq (s : Traffic) :
    s.occupied = s.stock s.queue.filledSlots fun f => f.unposted + f.claimed := by
  have each : ∀ t, s.tokens s.queue.filledSlots (fun f => f.unposted + f.claimed) t =
      (s.doing t).elim 0 Frame.unposted +
        ((s.doing t).elim 0 Frame.claimed + s.system.board.handed s.queue.filledSlots t) := by
    intro t
    cases h : s.doing t <;> simp [tokens, h, Nat.add_assoc]
  simp only [occupied, stock, each, Finset.sum_add_distrib]
  omega

structure Stocked (s : Traffic) : Prop where
  empty : s.system.board.Stocked s.queue.emptySlots
  filled : s.system.board.Stocked s.queue.filledSlots
  slots : (s.system.kernel.semaphores s.queue.emptySlots).maxCount = s.queue.capacity
  entries : (s.system.kernel.semaphores s.queue.filledSlots).maxCount = s.queue.capacity
  apart : s.queue.emptySlots ≠ s.queue.filledSlots
  total : s.free + s.occupied = s.queue.capacity

/-- No semaphore of the queue has more tokens than it can count. -/
theorem Stocked.fits {s : Traffic} (stocked : s.Stocked) :
    s.stock s.queue.emptySlots Frame.slots ≤
        (s.system.kernel.semaphores s.queue.emptySlots).maxCount ∧
      s.stock s.queue.filledSlots (fun f => f.unposted + f.claimed) ≤
        (s.system.kernel.semaphores s.queue.filledSlots).maxCount := by
  have total := stocked.total
  rw [← occupied_eq, stocked.slots, stocked.entries]
  simp only [free] at total
  omega

end Traffic

/-- The statement whose access to the ring a deed makes. -/
def Traffic.accessed (s : Traffic) : Deed → Option Frame
  | .access t => s.doing t
  | .enter _ _ | .kernel _ | .leave _ _ => none

/-- The access writes a message into a slot. -/
def Frame.fills : Frame → Bool
  | .sendWrite _ hadSlot => hadSlot
  | _ => false

/-- The access takes a message out. -/
def Frame.drains : Frame → Bool
  | .receiveRead => true
  | _ => false

section
variable {idle : TaskId} {s t : Traffic} {d : Deed} {f f' : Frame}

theorem Frame.access_weight {q q' : OsMessageQueue} (done : f.access q = some (q', f')) :
    f'.slots + (if f.fills then 1 else 0) = f.slots + (if f.drains then 1 else 0) ∧
      f'.unposted + f'.claimed + (if f.drains then 1 else 0) =
        f.unposted + f.claimed + (if f.fills then 1 else 0) := by
  cases f with
  | sendWrite _ hadSlot | sendHead hadSlot =>
    obtain ⟨rfl, rfl⟩ := Prod.mk.inj (Option.some.inj done)
    cases hadSlot <;> exact ⟨rfl, rfl⟩
  | sendTail | receiveRead | receiveTail =>
    obtain ⟨rfl, rfl⟩ := Prod.mk.inj (Option.some.inj done)
    exact ⟨rfl, rfl⟩
  | sendSlot | sendLock | sendGiveBack | sendUnlock | sendPost | receiveSlot | receiveLock
    | receiveGiveBack | receiveUnlock | receivePost | returning => cases done

/-- What a deed does to the numbers of messages and of free slots. -/
theorem QueueStep.occupied (h : QueueStep idle s d t) (stocked : s.Stocked) (placed : s.Placed)
    (sound : s.system.board.Sound idle) :
    t.occupied + (if (s.accessed d).any Frame.drains then 1 else 0) =
        s.occupied + (if (s.accessed d).any Frame.fills then 1 else 0) ∧
      t.free + (if (s.accessed d).any Frame.fills then 1 else 0) =
        s.free + (if (s.accessed d).any Frame.drains then 1 else 0) := by
  have meterSlots := meters_slots stocked.apart
  have meterEntries := meters_entries stocked.apart
  obtain ⟨_, _, empty, filled⟩ := h.queue_kept
  have update := fun (q : OsMessageQueue) (v : TaskId) (o : Option Frame) => And.intro
    (s.stock_update q v o s.queue.filledSlots fun f => f.unposted + f.claimed)
    (s.stock_update q v o s.queue.emptySlots Frame.slots)
  rw [Traffic.occupied_eq, Traffic.occupied_eq, Traffic.free, Traffic.free, empty, filled]
  cases h with
  | @enter v op runs free outside =>
    obtain ⟨entries, slots⟩ := update s.queue v (some op.start)
    rw [outside] at entries slots
    simpa [Traffic.accessed, meterSlots.start, meterEntries.start] using And.intro entries slots
  | @leave v reply runs free here =>
    obtain ⟨entries, slots⟩ := update s.queue v none
    rw [here] at entries slots
    simpa [Traffic.accessed, meterSlots.finish, meterEntries.finish] using And.intro entries slots
  | @access v f f' q runs free here done =>
    obtain ⟨entries, slots⟩ := update q v (some f')
    have weight := Frame.access_weight done
    rw [here, Option.elim_some, Option.elim_some] at entries slots
    simp only [Traffic.accessed, here, Option.any_some]
    omega
  | @kernel e system step allowed =>
    obtain ⟨slots, entries⟩ := stocked.fits
    have first := Traffic.stock_kernel meterSlots (.inl rfl) placed step allowed sound stocked.empty
      slots
    have second := Traffic.stock_kernel meterEntries (.inr rfl) placed step allowed sound
      stocked.filled entries
    simp only [Traffic.accessed, Option.any_none]
    exact ⟨congrArg (· + 0) second, congrArg (· + 0) first⟩

theorem Traffic.Stocked.step (stocked : s.Stocked) (placed : s.Placed)
    (sound : s.system.board.Sound idle) (h : QueueStep idle s d t) : t.Stocked := by
  have balance := h.occupied stocked placed sound
  obtain ⟨emptyStock, filledStock, slots, entries, apart, total⟩ := stocked
  obtain ⟨capacity, _, empty, filled⟩ := h.queue_kept
  have objects : t.system.board.Stocked s.queue.emptySlots ∧
      t.system.board.Stocked s.queue.filledSlots ∧
      (t.system.kernel.semaphores s.queue.emptySlots).maxCount = s.queue.capacity ∧
      (t.system.kernel.semaphores s.queue.filledSlots).maxCount = s.queue.capacity := by
    rcases h.system_kept with ⟨e, _, step, _⟩ | same
    · have board := step.refines sound
      exact ⟨board.stocked emptyStock, board.stocked filledStock, board.maxCount_kept.trans slots,
        board.maxCount_kept.trans entries⟩
    · rw [same]
      exact ⟨emptyStock, filledStock, slots, entries⟩
  rw [← empty, ← filled, ← capacity] at objects
  refine ⟨objects.1, objects.2.1, objects.2.2.1, objects.2.2.2, by rwa [empty, filled], ?_⟩
  rw [capacity]
  omega

/-- What holds of the kernel, the lock and the semaphores in every run. -/
structure Traffic.Sound (idle : TaskId) (s : Traffic) : Prop where
  board : s.system.board.Sound idle
  placed : s.Placed
  guarded : s.Guarded
  stocked : s.Stocked

theorem Opened.sound (opened : Opened idle s) : s.Sound idle := by
  obtain ⟨launched, fresh, room, apart, outside⟩ := opened
  have nobody : ∀ t, s.system.inside t = none := by
    obtain ⟨_, _, _, _, nobody⟩ := launched
    exact nobody
  have handed : ∀ x t, s.system.board.handed x t = 0 := fun x t => by
    have : s.system.board.inside t = none := nobody t
    simp [Board.handed, this]
  refine ⟨launched.sound, fun t c inside => ?_, ⟨launched.excludes (by rw [fresh.lock]), ?_⟩,
    launched.stocked fresh.emptySlots le_rfl, launched.stocked fresh.filledSlots (Nat.zero_le _),
    by rw [fresh.emptySlots], by rw [fresh.filledSlots], apart, ?_⟩
  · cases (nobody t).symm.trans inside
  · intro t f doing
    cases (outside t).symm.trans doing
  · simp [Traffic.free, Traffic.stock, Traffic.tokens, Traffic.occupied, outside, handed,
      fresh.emptySlots, fresh.filledSlots]

theorem QueueStep.sound (h : QueueStep idle s d t) (sound : s.Sound idle) : t.Sound idle := by
  obtain ⟨board, placed, guarded, stocked⟩ := sound
  refine ⟨?_, placed.step board h, guarded.step placed board h, stocked.step placed board h⟩
  rcases h.system_kept with ⟨e, _, step, _⟩ | same
  · exact (step.refines board).sound board
  · rwa [same]

theorem Service.sound {past : Log} (run : Service idle past s) : s.Sound idle :=
  run.invariant (fun _ opened => opened.sound) fun _ _ _ sound h => h.sound sound

end
end Sentinel
