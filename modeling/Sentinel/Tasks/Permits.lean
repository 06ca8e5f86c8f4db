import Sentinel.Queue.Slots
import Sentinel.Tasks.Regions

/-! Permits. Tasks that hand the tokens of some semaphores around neither lose one nor make one:
what the semaphores can still supply and what the tasks have in hand add up to the same at all
times. -/

namespace Sentinel

open Runs (Transition Run)

/-- The tokens of `x` that can still be had: counted, or handed to a task that is not back yet. -/
def Board.supply (x : Nat) (b : Board) : Nat := (b.semaphores x).count + ∑ t, b.handed x t

/-- The event brings `t` a token of `x`. -/
def Event.brings (x : Nat) (t : TaskId) (e : Event) : Nat :=
  (if e.takes x t then 1 else 0) + if e.fetches x t then 1 else 0

/-- A release adds a token to the supply unless it is dropped, and each task that gets one takes
it away. -/
theorem BoardStep.supply_next {idle : TaskId} {b d : Board} {e : Event} {x : Nat}
    (h : BoardStep idle b e d) (sound : b.Sound idle) (stocked : b.Stocked x) :
    d.supply x + ∑ t, e.brings x t = b.supply x + Board.released x b e := by
  have each : ∀ t, d.handed x t + e.brings x t = b.handed x t + Board.tokens x t b e d := by
    intro t
    have handed : d.handed x t + _ = _ := h.handed sound
    rw [Board.tokens_eq, Event.brings]
    omega
  have total := Finset.sum_congr rfl fun t (_ : t ∈ Finset.univ) => each t
  rw [Finset.sum_add_distrib, Finset.sum_add_distrib] at total
  have balance := h.balance sound stocked
  unfold Board.supply
  omega

/-- Only a pass changes the current task. -/
theorem BoardStep.current_kept {idle : TaskId} {b d : Board} {e : Event} (h : BoardStep idle b e d)
    (stays : e ≠ .pass) : d.current = b.current := by
  have settled : ∀ m, (b.settle m).current = b.current := by
    intro m
    unfold Board.settle
    split <;> rfl
  cases h with
  | unlock | handOver => exact settled _
  | pass => exact absurd rfl stays
  | _ => rfl

namespace Firmware

variable {δ ρ ι : Type}

/-- The tokens of `xs` that a task has in hand at each of its places. An acquire takes one, a
release gives one away, and nothing else changes their number. -/
structure Passes (fw : Firmware δ ρ ι) (xs : Finset Nat) (inHand : ρ → Nat) : Prop where
  acquire : ∀ {p x n next}, fw.code p = .call (.semaphoreAcquire x n) next → x ∈ xs →
    inHand (next (.returned .success)) = inHand p + 1
  refused : ∀ {p x n next out}, fw.code p = .call (.semaphoreAcquire x n) next → x ∈ xs →
    n ≠ waitForever → out ≠ .returned .success → inHand (next out) = inHand p
  release : ∀ {p x next}, fw.code p = .call (.semaphoreRelease x) next → x ∈ xs →
    ∀ out, inHand p = inHand (next out) + 1
  other : ∀ {p c next}, fw.code p = .call c next →
    (∀ x ∈ xs, c ≠ .semaphoreRelease x ∧ ∀ n, c ≠ .semaphoreAcquire x n) →
    ∀ out, inHand (next out) = inHand p
  access : ∀ {p f} (d : δ), fw.code p = .access f → inHand (f d).2 = inHand p
  interrupt : ∀ i d x, (fw.interrupt i d).2 = some x → x ∉ xs

/-- All tokens of `xs`. -/
def total (xs : Finset Nat) (inHand : ρ → Nat) (s : Execution δ ρ) : Nat :=
  ∑ x ∈ xs, s.system.board.supply x + ∑ t, inHand (s.place t)

section
variable {fw : Firmware δ ρ ι} {idle : TaskId} {s t : Execution δ ρ} {a : Move ι} {u : TaskId}
  {e : Event} {xs : Finset Nat} {inHand : ρ → Nat} {b : Board} {x : Nat} {system : System} {d : δ}

/-- A wait without a deadline ends in success. -/
theorem patient_success {out : Outcome} (tracked : s.system.board.Tracked)
    (board : BoardStep idle s.system.board e b) (awake : out ≠ .parked)
    (event : e = .call u (.semaphoreAcquire x waitForever) out ∨
      e = .resume u (.semaphoreAcquire x waitForever) out) : out = .returned .success := by
  rcases event with rfl | rfl
  · cases board with
    | hand posts | put posts | drop posts =>
      rcases posts with posts | ⟨_, posts, _⟩ <;> cases posts
    | take => rfl
    | waitSemaphore => exact absurd rfl awake
  · obtain ⟨runs, inside, result, _⟩ := board.of_resume
    rcases tracked.woken runs inside with ⟨n, limit, _⟩ | woken
    · cases limit
    · rw [result, Call.result, woken]

/-- An event that does not move a task leaves its hands alone. -/
theorem Placed.idle_hands (placed : fw.Placed s) (admits : fw.Admits s e)
    (board : BoardStep idle s.system.board e b)
    (silent : ∀ c next out, fw.code (s.place u) = .call c next → out ≠ .parked →
      ∀ c', e ≠ .call u c' out ∧ e ≠ .resume u c' out) (x : Nat) :
    e.givesBack x u = false ∧ e.brings x u = 0 := by
  have quiet : ∀ c out, out ≠ .parked → e ≠ .call u c out ∧ e ≠ .resume u c out := by
    intro c out awake
    refine ⟨?_, ?_⟩
    · rintro rfl
      obtain ⟨next, here⟩ := may_iff.mp (admits u c out rfl)
      exact (silent c next out here awake c).1 rfl
    · rintro rfl
      obtain ⟨next, here⟩ := may_iff.mp (placed u c board.of_resume.2.1).1
      exact (silent c next out here awake c).2 rfl
  have gives : ¬ e.givesBack x u := by
    intro gives
    obtain ⟨out, rfl⟩ := Event.givesBack_iff.mp gives
    have awake : out ≠ .parked := by
      rintro rfl
      cases board.parks
    exact (quiet _ out awake).1 rfl
  have takes : ¬ e.takes x u := by
    intro takes
    obtain ⟨n, rfl⟩ := Event.takes_iff.mp takes
    exact (quiet _ _ (by simp)).1 rfl
  have fetches : ¬ e.fetches x u := by
    intro fetches
    obtain ⟨n, rfl⟩ := Event.fetches_iff.mp fetches
    exact (quiet _ _ (by simp)).2 rfl
  exact ⟨by simpa using gives, by rw [Event.brings, if_neg takes, if_neg fetches]⟩

/-- Only a task at an acquire of `x` is brought a token of it. -/
theorem Placed.brings_zero (placed : fw.Placed s) (admits : fw.Admits s e)
    (board : BoardStep idle s.system.board e b)
    (apart : ∀ n next, fw.code (s.place u) ≠ .call (.semaphoreAcquire x n) next) :
    e.brings x u = 0 := by
  have takes : ¬ e.takes x u := by
    intro takes
    obtain ⟨n, rfl⟩ := Event.takes_iff.mp takes
    obtain ⟨next, here⟩ := may_iff.mp (admits u _ _ rfl)
    exact apart n next here
  have fetches : ¬ e.fetches x u := by
    intro fetches
    obtain ⟨n, rfl⟩ := Event.fetches_iff.mp fetches
    obtain ⟨next, here⟩ := may_iff.mp (placed u _ board.of_resume.2.1).1
    exact apart n next here
  rw [Event.brings, if_neg takes, if_neg fetches]

/-- What a task has in hand after an event. -/
theorem Passes.in_hand (rules : fw.Passes xs inHand) (placed : fw.Placed s)
    (tracked : s.system.board.Tracked) (admits : fw.Admits s e)
    (board : BoardStep idle s.system.board e b) (u : TaskId) :
    inHand (fw.moved s e u) + ∑ x ∈ xs, (if e.givesBack x u then 1 else 0) =
      inHand (s.place u) + ∑ x ∈ xs, e.brings x u := by
  rcases fw.moved_cases s e u with ⟨same, silent⟩ | ⟨c, c', next, out, here, awake, event, after⟩
  · have hands := placed.idle_hands admits board silent
    simp [same, hands]
  · obtain ⟨rfl, parks⟩ := placed.of_returned admits board here event
    rw [after]
    cases c' with
    | semaphoreAcquire z n =>
      have given : ∀ x, e.givesBack x u = false := by
        rcases event with rfl | rfl <;> exact fun _ => rfl
      have brought : ∀ x, e.brings x u = if z = x ∧ out = .returned .success then 1 else 0 := by
        intro x
        by_cases success : out = .returned .success <;> rcases event with rfl | rfl <;>
          simp [Event.brings, Event.takes, Event.fetches, success]
      by_cases one : z ∈ xs
      · by_cases success : out = .returned .success
        · subst success
          simp [given, brought, rules.acquire here one, one]
        · have limit : n ≠ waitForever := by
            rintro rfl
            exact success (patient_success tracked board awake event)
          simp [given, brought, rules.refused here one limit success, success]
      · have apart : ∀ x ∈ xs, Call.semaphoreAcquire z n ≠ .semaphoreRelease x ∧
            ∀ n', Call.semaphoreAcquire z n ≠ .semaphoreAcquire x n' := by
          intro x there
          refine ⟨(by simp), ?_⟩
          intro n' same
          cases same
          exact one there
        have none : ∀ x ∈ xs, e.brings x u = 0 := by
          intro x there
          rw [brought]
          apply if_neg
          rintro ⟨rfl, _⟩
          exact one there
        simp [given, Finset.sum_eq_zero none, rules.other here apart out]
    | semaphoreRelease z =>
      obtain rfl : e = .call u (.semaphoreRelease z) out := by
        rcases event with rfl | rfl
        · rfl
        · cases parks rfl
      have brought : ∀ x, Event.brings x u (.call u (.semaphoreRelease z) out) = 0 := fun _ => rfl
      by_cases one : z ∈ xs
      · simp [Event.givesBack, brought, rules.release here one out, one]
      · have apart : ∀ x ∈ xs, Call.semaphoreRelease z ≠ .semaphoreRelease x ∧
            ∀ n, Call.semaphoreRelease z ≠ .semaphoreAcquire x n := by
          intro x there
          refine ⟨?_, (by simp)⟩
          intro same
          cases same
          exact one there
        simp [Event.givesBack, brought, rules.other here apart out, one]
    | mutexAcquire | mutexRelease | delay =>
      have same := rules.other here (fun x there => ⟨(by simp), (by simp)⟩) out
      have none : ∀ x, e.givesBack x u = false ∧ e.brings x u = 0 := by
        intro x
        rcases event with rfl | rfl <;> exact ⟨rfl, rfl⟩
      simp [same, none]

theorem supply_le_total (there : x ∈ xs) :
    s.system.board.supply x + inHand (s.place u) ≤ total xs inHand s := by
  have one : s.system.board.supply x ≤ ∑ x ∈ xs, s.system.board.supply x :=
    Finset.single_le_sum (f := fun x => s.system.board.supply x) (fun _ _ => Nat.zero_le _) there
  have mine : inHand (s.place u) ≤ ∑ t, inHand (s.place t) :=
    Finset.single_le_sum (f := fun t => inHand (s.place t)) (fun _ _ => Nat.zero_le _)
      (Finset.mem_univ u)
  unfold total
  omega

/-- A task that releases a semaphore has the token still in hand, so there is room for it. -/
theorem Passes.released_eq (rules : fw.Passes xs inHand) (admits : fw.Admits s e)
    (silent : ∀ x ∈ xs, e ≠ .post x) (there : x ∈ xs)
    (room : total xs inHand s ≤ (s.system.kernel.semaphores x).maxCount) :
    Board.released x s.system.board e = ∑ u, if e.givesBack x u then 1 else 0 := by
  by_cases release : ∃ v out, e = .call v (.semaphoreRelease x) out
  · obtain ⟨v, out, rfl⟩ := release
    obtain ⟨next, here⟩ := may_iff.mp (admits v _ out rfl)
    have had := rules.release here there out
    have most : s.system.board.supply x + inHand (s.place v) ≤ _ := supply_le_total there
    have counted : (s.system.kernel.semaphores x).count ≤ s.system.board.supply x :=
      Nat.le_add_right _ _
    have kept : Board.released x s.system.board (.call v (.semaphoreRelease x) out) = 1 := by
      refine if_pos ⟨by simp [Event.releases], fun full => ?_⟩
      have same : (s.system.kernel.semaphores x).count = _ := full.2
      change _ = (s.system.kernel.semaphores x).maxCount at same
      omega
    simp [kept, Event.givesBack]
  · have quiet : e.releases x = false := by
      cases e with
      | call v c out =>
        cases c with
        | semaphoreRelease z =>
          refine decide_eq_false ?_
          rintro rfl
          exact release ⟨v, out, rfl⟩
        | mutexAcquire | mutexRelease | semaphoreAcquire | delay => rfl
      | post z =>
        refine decide_eq_false ?_
        rintro rfl
        exact silent z there rfl
      | resume | tick | pass => rfl
    have none : ∀ u, e.givesBack x u = false := by
      intro u
      by_contra gives
      obtain ⟨out, rfl⟩ := Event.givesBack_iff.mp (by simpa using gives)
      exact release ⟨u, out, rfl⟩
    simp [Board.released, quiet, none]

/-- The semaphores are in order, and each has room for all tokens. -/
structure Stocks (xs : Finset Nat) (inHand : ρ → Nat) (s : Execution δ ρ) : Prop where
  stocked : ∀ x ∈ xs, s.system.board.Stocked x
  room : ∀ x ∈ xs, total xs inHand s ≤ (s.system.kernel.semaphores x).maxCount

theorem Passes.total_event (rules : fw.Passes xs inHand) (placed : fw.Placed s)
    (sound : s.system.board.Sound idle) (tracked : s.system.board.Tracked)
    (step : Sentinel.Step idle s.system e system) (admits : fw.Admits s e)
    (silent : ∀ x ∈ xs, e ≠ .post x) (stocks : Stocks xs inHand s) :
    total xs inHand ⟨system, d, fw.moved s e⟩ = total xs inHand s := by
  have board := step.refines sound
  have hands := Finset.sum_congr rfl fun u (_ : u ∈ Finset.univ) =>
    rules.in_hand placed tracked admits board u
  have supplies : ∑ x ∈ xs, (system.board.supply x + ∑ u, e.brings x u) =
      ∑ x ∈ xs, (s.system.board.supply x + ∑ u, if e.givesBack x u then 1 else 0) := by
    apply Finset.sum_congr rfl
    intro x there
    rw [← rules.released_eq admits silent there (stocks.room x there)]
    exact board.supply_next sound (stocks.stocked x there)
  rw [Finset.sum_add_distrib, Finset.sum_add_distrib] at hands supplies
  rw [Finset.sum_comm, @Finset.sum_comm _ _ _ _ Finset.univ xs fun u x => e.brings x u] at hands
  unfold total
  dsimp only
  omega

theorem Stocks.event (stocks : Stocks xs inHand s) (board : BoardStep idle s.system.board e
    t.system.board) (same : total xs inHand t = total xs inHand s) : Stocks xs inHand t := by
  refine ⟨fun x there => board.stocked (stocks.stocked x there), ?_⟩
  intro x there
  rw [same]
  exact (stocks.room x there).trans_eq board.maxCount_kept.symm

/-- A move neither makes a token nor loses one. -/
theorem Passes.step (rules : fw.Passes xs inHand) (placed : fw.Placed s)
    (sound : s.system.board.Sound idle) (tracked : s.system.board.Tracked)
    (stocks : Stocks xs inHand s) (h : fw.Step idle s a t) :
    total xs inHand t = total xs inHand s ∧ Stocks xs inHand t := by
  cases h with
  | @kernel e system step allowed =>
    have silent : ∀ x ∈ xs, e ≠ .post x := by
      rintro x _ rfl
      cases allowed
    have same := rules.total_event (d := s.shared) placed sound tracked step
      (admits_of_allows allowed) silent stocks
    exact ⟨same, stocks.event (step.refines sound) same⟩
  | @access u f runs free here =>
    have kept : ∀ v, inHand (Function.update s.place u (f s.shared).2 v) = inHand (s.place v) := by
      intro v
      by_cases self : v = u
      · subst self
        rw [Function.update_self, rules.access _ here]
      · rw [Function.update_of_ne self]
    have same : total xs inHand ⟨s.system, (f s.shared).1,
        Function.update s.place u (f s.shared).2⟩ = total xs inHand s := by
      simp only [total, kept]
    refine ⟨same, stocks.stocked, ?_⟩
    rw [same]
    exact stocks.room
  | interrupt i =>
    have apart := rules.interrupt i s.shared
    generalize (fw.interrupt i s.shared).2 = posted at apart ⊢
    cases posted with
    | none => exact ⟨rfl, stocks.stocked, stocks.room⟩
    | some z =>
      have step : Sentinel.Step idle s.system (.post z) (post (some z) s.system) := .post z
      have silent : ∀ x ∈ xs, Event.post z ≠ .post x := by
        intro x there same
        cases same
        exact apart z rfl there
      have same := rules.total_event (d := (fw.interrupt i s.shared).1) placed sound tracked step
        (admits_post z) silent stocks
      exact ⟨same, stocks.event (step.refines sound) same⟩

/-- **The rule for permits.** If the semaphores have room for all tokens at the start, then no
release is dropped, and no token comes or goes. -/
theorem permits_of_run {start : Execution δ ρ → Prop} {n : Nat}
    {past : List (Transition (Execution δ ρ) (Move ι))} (run : Run start (fw.Step idle) past s)
    (launched : ∀ s, start s → Launched idle s.system) (rules : fw.Passes xs inHand)
    (base : ∀ s, start s → total xs inHand s = n ∧ Stocks xs inHand s) :
    total xs inHand s = n ∧ Stocks xs inHand s := by
  induction run with
  | start first => exact base _ first
  | next run step ih =>
    obtain ⟨sound, tracked⟩ := sound_of_run run launched
    have placed := placed_of_run run launched
    obtain ⟨same, stocks⟩ := rules.step placed sound tracked ih.2 step
    exact ⟨same.trans ih.1, stocks⟩

end
end Firmware
end Sentinel
