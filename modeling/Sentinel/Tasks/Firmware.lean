import Sentinel.Queue.Lock
import Sentinel.Kernel.Returns

/-! Tasks as programs. A task is at one place of its function at a time. The statement there is a
kernel call, or one access to the memory and the devices that the tasks share. Ticks, scheduler
passes and interrupts come between any two statements. -/

namespace Sentinel

open Runs (Transition Run)

/-- The statement at a place, and where it leads. -/
inductive Statement (δ ρ : Type)
  | call (c : Call) (next : Outcome → ρ)
  | access (f : δ → δ × ρ)

/-- The code at every place, and the interrupt handlers. A handler can post one semaphore. -/
structure Firmware (δ ρ ι : Type) where
  code : ρ → Statement δ ρ
  interrupt : ι → δ → δ × Option Nat

/-- The kernel with its tasks, what they share, and the place of each. -/
structure Execution (δ ρ : Type) where
  system : System
  shared : δ
  place : TaskId → ρ

inductive Move (ι : Type)
  | kernel (e : Event)
  | access (t : TaskId)
  | interrupt (i : ι)
  deriving DecidableEq, Repr

namespace Firmware

variable {δ ρ ι : Type} (fw : Firmware δ ρ ι)

/-- The statement of the task makes this call. -/
def may (s : Execution δ ρ) (t : TaskId) (c : Call) : Bool :=
  match fw.code (s.place t) with
  | .call c' _ => c' = c
  | .access _ => false

def allows (s : Execution δ ρ) : Event → Bool
  | .call t c _ => fw.may s t c
  | .post _ => false
  | .resume _ _ _ | .tick | .pass => true

/-- A return from a kernel call leads to the next place. -/
def moved (s : Execution δ ρ) : Event → TaskId → ρ
  | .call t _ out | .resume t _ out =>
    match fw.code (s.place t) with
    | .call _ next => if out = .parked then s.place else Function.update s.place t (next out)
    | .access _ => s.place
  | .post _ | .tick | .pass => s.place

/-- The post of an interrupt handler. -/
def post : Option Nat → System → System
  | some x, s => { s with kernel := s.kernel.osSemaphoreRelease x }
  | none, s => s

inductive Step (idle : TaskId) : Execution δ ρ → Move ι → Execution δ ρ → Prop
  | kernel {s : Execution δ ρ} {e : Event} {system : System}
      (step : Sentinel.Step idle s.system e system) (allowed : fw.allows s e) :
      Step idle s (.kernel e) ⟨system, s.shared, fw.moved s e⟩
  | access {s : Execution δ ρ} {t : TaskId} {f : δ → δ × ρ} (runs : s.system.Runs t)
      (free : s.system.inside t = none) (here : fw.code (s.place t) = .access f) :
      Step idle s (.access t)
        ⟨s.system, (f s.shared).1, Function.update s.place t (f s.shared).2⟩
  | interrupt {s : Execution δ ρ} (i : ι) :
      Step idle s (.interrupt i)
        ⟨post (fw.interrupt i s.shared).2 s.system, (fw.interrupt i s.shared).1, s.place⟩

/-- The step that a move makes, if it can be made. -/
def act (idle : TaskId) (s : Execution δ ρ) : Move ι → Option (Execution δ ρ)
  | .kernel e =>
    if fw.allows s e then
      (perform idle s.system e).map fun system => ⟨system, s.shared, fw.moved s e⟩
    else none
  | .access t =>
    if s.system.Runs t ∧ s.system.inside t = none then
      match fw.code (s.place t) with
      | .access f => some ⟨s.system, (f s.shared).1, Function.update s.place t (f s.shared).2⟩
      | .call _ _ => none
    else none
  | .interrupt i =>
    some ⟨post (fw.interrupt i s.shared).2 s.system, (fw.interrupt i s.shared).1, s.place⟩

section
variable {fw} {idle : TaskId} {s t : Execution δ ρ} {a : Move ι} {u : TaskId}

theorem act_step (done : fw.act idle s a = some t) : fw.Step idle s a t := by
  cases a with
  | kernel e =>
    simp only [act] at done
    split at done
    · rename_i allowed
      obtain ⟨system, step, rfl⟩ := Option.map_eq_some_iff.mp done
      exact .kernel (perform_iff.mp step) allowed
    · cases done
  | access u =>
    simp only [act] at done
    split at done
    · rename_i can
      split at done
      · rename_i f here
        obtain rfl := Option.some.inj done
        exact .access can.1 can.2 here
      · cases done
    · cases done
  | interrupt i =>
    obtain rfl := Option.some.inj done
    exact .interrupt i

/-- What the kernel sees of a move. -/
def event (fw : Firmware δ ρ ι) (s : Execution δ ρ) : Move ι → Option Event
  | .kernel e => some e
  | .access _ => none
  | .interrupt i => (fw.interrupt i s.shared).2.map .post

/-- Seen from the kernel, a move is an event or nothing. -/
theorem Step.system_step (h : fw.Step idle s a t) :
    (∃ e, fw.event s a = some e ∧ Sentinel.Step idle s.system e t.system) ∨
      fw.event s a = none ∧ t.system = s.system := by
  cases h with
  | kernel step => exact .inl ⟨_, rfl, step⟩
  | access => exact .inr ⟨rfl, rfl⟩
  | interrupt i =>
    dsimp only [event]
    generalize (fw.interrupt i s.shared).2 = posted
    cases posted with
    | none => exact .inr ⟨rfl, rfl⟩
    | some x => exact .inl ⟨.post x, rfl, .post x⟩

/-- Every run of the firmware is a run of the kernel. -/
theorem trace {start : Execution δ ρ → Prop} {past : List (Transition (Execution δ ρ) (Move ι))}
    (run : Run start (fw.Step idle) past s) (launched : ∀ s, start s → Launched idle s.system) :
    Trace idle (Runs.project Execution.system fw.event past) s.system :=
  run.project launched fun _ _ _ _ _ => Step.system_step

theorem may_iff {c : Call} : fw.may s u c ↔ ∃ next, fw.code (s.place u) = .call c next := by
  unfold may
  split
  · rename_i c' next here
    simp [here]
  · rename_i f here
    simp [here]

/-- A task moves on when a kernel call of its own returns, and by no other event. -/
theorem moved_cases (s : Execution δ ρ) (e : Event) (u : TaskId) :
    fw.moved s e u = s.place u ∧ (∀ c next out, fw.code (s.place u) = .call c next →
      out ≠ .parked → ∀ c', e ≠ .call u c' out ∧ e ≠ .resume u c' out) ∨
    ∃ c c' next out, fw.code (s.place u) = .call c next ∧ out ≠ .parked ∧
      (e = .call u c' out ∨ e = .resume u c' out) ∧ fw.moved s e u = next out := by
  have returns : ∀ (v : TaskId) (c' : Call) (out : Outcome),
      (e = .call v c' out ∨ e = .resume v c' out) → fw.moved s e = fw.moved s (.call v c' out) →
      fw.moved s e u = s.place u ∧ (∀ c next out, fw.code (s.place u) = .call c next →
        out ≠ .parked → ∀ c', e ≠ .call u c' out ∧ e ≠ .resume u c' out) ∨
      ∃ c c' next out, fw.code (s.place u) = .call c next ∧ out ≠ .parked ∧
        (e = .call u c' out ∨ e = .resume u c' out) ∧ fw.moved s e u = next out := by
    intro v c' out event same
    rw [same]
    by_cases self : u = v
    · subst self
      cases here : fw.code (s.place u) with
      | access f => exact .inl ⟨by simp [moved, here], nofun⟩
      | call c next =>
        by_cases parked : out = .parked
        · refine .inl ⟨by simp [moved, here, parked], ?_⟩
          intro _ _ out' _ other c''
          rcases event with rfl | rfl <;> simp [parked, Ne.symm other]
        · exact .inr ⟨c, c', next, out, rfl, parked, event, by simp [moved, here, parked]⟩
    · refine .inl ⟨?_, ?_⟩
      · cases here : fw.code (s.place v) with
        | access f => simp [moved, here]
        | call c next => by_cases parked : out = .parked <;> simp [moved, here, parked, self]
      · intro _ _ out' _ _ c''
        rcases event with rfl | rfl <;> simp [Ne.symm self]
  cases e with
  | call v c' out => exact returns v c' out (.inl rfl) rfl
  | resume v c' out => exact returns v c' out (.inr rfl) rfl
  | post | tick | pass => exact .inl ⟨rfl, by simp⟩

/-- An event of the kernel moves one task, from a call that returns to the place behind it. -/
theorem moved_returns (s : Execution δ ρ) (e : Event) : fw.moved s e = s.place ∨
    ∃ u c next out, fw.code (s.place u) = .call c next ∧ out ≠ .parked ∧
      fw.moved s e = Function.update s.place u (next out) := by
  cases e with
  | call u c out | resume u c out =>
    cases here : fw.code (s.place u) with
    | access f => exact .inl (by simp [moved, here])
    | call c next =>
      by_cases parked : out = .parked
      · exact .inl (by simp [moved, here, parked])
      · exact .inr ⟨u, c, next, out, here, parked, by simp [moved, here, parked]⟩
  | post | tick | pass => exact .inl rfl

/-- What is kept by the statements of its own task, by those of the others and by the interrupts,
holds of every task in every state of a run. -/
theorem invariant_of_run {start : Execution δ ρ → Prop} {J : TaskId → ρ → δ → Prop}
    {past : List (Transition (Execution δ ρ) (Move ι))} (run : Run start (fw.Step idle) past s)
    (base : ∀ s, start s → ∀ t, J t (s.place t) s.shared)
    (call : ∀ {t p d c next out}, J t p d → fw.code p = .call c next → out ≠ .parked →
      J t (next out) d)
    (own : ∀ {t p d f}, J t p d → fw.code p = .access f → J t (f d).2 (f d).1)
    (other : ∀ {t u p q d f}, t ≠ u → J t p d → J u q d → fw.code q = .access f → J t p (f d).1)
    (interrupt : ∀ {t p d} i, J t p d → J t p (fw.interrupt i d).1) :
    ∀ t, J t (s.place t) s.shared := by
  apply run.invariant (P := fun s => ∀ t, J t (s.place t) s.shared) base
  intro s e s' before step t
  cases step with
  | @kernel e system step allowed =>
    change J t (fw.moved s e t) s.shared
    rcases moved_returns s e with same | ⟨u, c, next, out, here, awake, after⟩
    · rw [same]
      exact before t
    · rw [after]
      by_cases self : t = u
      · subst self
        rw [Function.update_self]
        exact call (before t) here awake
      · rw [Function.update_of_ne self]
        exact before t
  | @access u f runs free here =>
    by_cases self : t = u
    · subst self
      simpa using own (before t) here
    · simpa [self] using other self (before t) (before u) here
  | interrupt i => exact interrupt i (before t)

end

/-! ### Runs that can be computed -/

/-- Moves played from the launch of tasks with these priorities. -/
def rehearse (idle : TaskId) (semaphores : Nat → OsSemaphore) (priorities : List Nat) (shared : δ)
    (place : TaskId → ρ)
    (goal : List (Transition (Execution δ ρ) (Move ι)) → Execution δ ρ → Bool)
    (moves : List (Move ι)) : Bool :=
  (setup semaphores priorities).any fun system =>
    match Runs.play (fw.act idle) moves [] ⟨system, shared, place⟩ with
    | some (past, s) => goal past s
    | none => false

variable {fw} in
theorem rehearse_run {idle : TaskId} {semaphores : Nat → OsSemaphore} {priorities : List Nat}
    {shared : δ} {place : TaskId → ρ} {start : Execution δ ρ → Prop}
    {goal : List (Transition (Execution δ ρ) (Move ι)) → Execution δ ρ → Bool}
    {moves : List (Move ι)}
    (live : (createAll (reset semaphores).osKernelInit priorities).Live idle)
    (starts : ∀ system, Started idle semaphores system → start ⟨system, shared, place⟩)
    (done : fw.rehearse idle semaphores priorities shared place goal moves = true) :
    ∃ past s, Run start (fw.Step idle) past s ∧ goal past s = true := by
  obtain ⟨system, launch, played⟩ := (Option.any_eq_true _ _).mp done
  have started := started_of_setup live launch
  generalize path : Runs.play _ _ _ _ = out at played
  cases out with
  | none => cases played
  | some reached =>
    obtain ⟨past, s⟩ := reached
    exact ⟨past, s, (Runs.play_run path (.start (starts system started))).weaken (fun _ h => h)
      fun _ _ _ => act_step, played⟩

end Firmware
end Sentinel
