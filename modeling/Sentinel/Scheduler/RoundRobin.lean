import Sentinel.Scheduler.Decision

/-! Passes of the scheduler with nothing between them. Those of the greatest priority take
their turns in the order of the slots, round after round. -/

namespace Sentinel
namespace Kernel

/-- A task that the scheduler considers, and none that it considers has a greater priority. -/
def Foremost (k : Kernel) (t : TaskId) : Prop :=
  k.Live t ∧ k.Runnable t ∧ ∀ u, k.Live u → k.Runnable u →
    (k.osTasks u).currentPriority ≤ (k.osTasks t).currentPriority

instance (k : Kernel) (t : TaskId) : Decidable (k.Foremost t) :=
  inferInstanceAs (Decidable (_ ∧ _ ∧ ∀ _, _))

/-- The foremost tasks in cyclic slot order, from where the next scan begins. -/
def round (k : Kernel) : List TaskId := (k.scanOrder k.scanStart).filter k.Foremost

/-- Every stack that a pass can look at still ends in its tripwire. -/
def CanariesIntact (k : Kernel) : Prop :=
  ∀ t, k.Live t ∨ k.currentTcb = some t → k.memory (k.osTasks t).stackBase = stackCanary

instance (k : Kernel) : Decidable k.CanariesIntact := inferInstanceAs (Decidable (∀ _, _))

/-- `n` passes with nothing between them: whom each dispatched, and the kernel they leave. -/
def passes : Nat → Kernel → Option (List TaskId × Kernel)
  | 0, k => some ([], k)
  | n + 1, k => do
    let k ← k.osScheduler
    let t ← k.currentTcb
    let (dispatched, k) ← k.passes n
    some (t :: dispatched, k)

/-- The list is in the order of the slots, counted from where the next scan begins. -/
def InTurn (k : Kernel) (l : List TaskId) : Prop :=
  l.Pairwise fun t u => Cyclic.offset k.scanStart k.taskCount t.val <
    Cyclic.offset k.scanStart k.taskCount u.val

theorem mem_round {k : Kernel} {t : TaskId} : t ∈ k.round ↔ k.Foremost t := by
  simp only [round, List.mem_filter, mem_scanOrder, decide_eq_true_eq, and_iff_right_iff_imp]
  exact And.left

theorem round_inTurn (k : Kernel) : k.InTurn k.round := (scanOrder_rises k _).filter _

theorem InTurn.nodup {k : Kernel} {l : List TaskId} (turns : k.InTurn l) : l.Nodup := by
  apply turns.imp
  rintro t _ less rfl
  exact lt_irrefl _ less

section
variable {k k' : Kernel} {best t : TaskId}

/-- A pass changes neither who is runnable nor how urgent anybody is. -/
theorem Decides.foremost (decides : k.Decides best k') : k'.Foremost t ↔ k.Foremost t := by
  have live : ∀ u, k'.Live u ↔ k.Live u := by
    intro u
    simp only [Live, decides.count]
  have runnable : ∀ u, k'.Runnable u ↔ k.Runnable u := by
    intro u
    simp only [Runnable, decides.tasks]
    by_cases self : u = best
    · subst self
      simpa [Runnable] using decides.runnable
    · by_cases demoted : k.currentTcb = some u ∧ (k.osTasks u).state = .running
      · simp [self, demoted]
      · simp [self, demoted]
  simp only [Foremost, live, runnable, decides.tasks]

theorem Decides.scanStart (decides : k.Decides best k') : k'.scanStart = best.val + 1 := by
  simp only [Kernel.scanStart, decides.current]

theorem Decides.intact (decides : k.Decides best k') (memory : k'.memory = k.memory)
    (intact : k.CanariesIntact) : k'.CanariesIntact := by
  intro t looked
  rw [memory, decides.tasks]
  apply intact
  rcases looked with live | current
  · exact .inl (by rwa [Live, ← decides.count])
  · obtain rfl : best = t := Option.some.inj (decides.current.symm.trans current)
    exact .inl decides.live

end

/-- Nothing but turns is going on: the list holds the foremost tasks in the order in which
they come. -/
structure Rotates (k : Kernel) (l : List TaskId) : Prop where
  intact : k.CanariesIntact
  members : ∀ t, t ∈ l ↔ k.Foremost t
  turns : k.InTurn l

section
variable {k : Kernel} {l l' : List TaskId} {t : TaskId}

theorem Rotates.unique (first : k.Rotates l) (second : k.Rotates l') : l = l' := by
  have same : l.Perm l' := by
    apply (List.perm_ext_iff_of_nodup first.turns.nodup second.turns.nodup).mpr
    intro t
    rw [first.members, second.members]
  apply same.eq_of_pairwise _ first.turns second.turns
  intro t u _ _ less more
  exact absurd less more.asymm

/-- **One pass.** The first in the list is dispatched and goes to its end. -/
theorem Rotates.pass (rotates : k.Rotates (t :: l)) :
    ∃ k', k.osScheduler = some k' ∧ k'.currentTcb = some t ∧ k'.Rotates (l ++ [t]) := by
  obtain ⟨intact, members, turns⟩ := rotates
  have foremost := (members t).mp List.mem_cons_self
  obtain ⟨k', done⟩ := osScheduler_some fun c here => intact c (.inr here)
  rcases osScheduler_cases done with ⟨best, decides⟩ | ⟨_, nobody⟩
  · have chosen : best = t := by
      have there : best ∈ t :: l :=
        (members best).mpr ⟨decides.live, decides.runnable, decides.greatest⟩
      have tie : (k.osTasks t).currentPriority = (k.osTasks best).currentPriority :=
        le_antisymm (decides.greatest t foremost.1 foremost.2.1)
          (foremost.2.2 best decides.live decides.runnable)
      have first := decides.first t foremost.1 foremost.2.1 tie
      cases List.mem_cons.mp there with
      | inl same => exact same
      | inr later =>
        have less := (List.pairwise_cons.mp turns).1 best later
        omega
    subst chosen
    have memory : k'.memory = k.memory := by
      obtain ⟨_, _, rfl⟩ := osScheduler_frame done
      rfl
    refine ⟨k', done, decides.current, decides.intact memory intact, ?_, ?_⟩
    · intro u
      rw [decides.foremost, ← members u]
      simp [or_comm]
    · rw [InTurn, decides.scanStart, decides.count]
      apply Cyclic.next_round _ turns
      intro u there
      exact ((members u).mp there).1
  · exact absurd foremost.2.1 (nobody t foremost.1)

/-- As many passes as the list has heads dispatch them in their order. -/
theorem Rotates.passes (rotates : k.Rotates (l ++ l')) :
    ∃ k', k.passes l.length = some (l, k') ∧ k'.Rotates (l' ++ l) := by
  induction l generalizing k l' with
  | nil => exact ⟨k, rfl, by simpa using rotates⟩
  | cons t l ih =>
    obtain ⟨k₁, done, current, after⟩ := rotates.pass
    have split : l ++ l' ++ [t] = l ++ (l' ++ [t]) := List.append_assoc l l' [t]
    obtain ⟨k₂, rest, last⟩ := ih (split ▸ after)
    refine ⟨k₂, by simp [Kernel.passes, done, current, rest], ?_⟩
    rwa [List.append_assoc] at last

theorem passes_add {m n : Nat} {k k₁ k₂ : Kernel} {l₁ l₂ : List TaskId}
    (first : k.passes m = some (l₁, k₁)) (second : k₁.passes n = some (l₂, k₂)) :
    k.passes (m + n) = some (l₁ ++ l₂, k₂) := by
  induction m generalizing k l₁ with
  | zero =>
    obtain ⟨rfl, rfl⟩ := Prod.mk.inj (Option.some.inj first)
    rwa [Nat.zero_add]
  | succ m ih =>
    obtain ⟨k', done, first⟩ := Option.bind_eq_some_iff.mp first
    obtain ⟨t, current, first⟩ := Option.bind_eq_some_iff.mp first
    obtain ⟨⟨l, k''⟩, rest, first⟩ := Option.bind_eq_some_iff.mp first
    obtain ⟨rfl, rfl⟩ := Prod.mk.inj (Option.some.inj first)
    rw [Nat.succ_add]
    simp [Kernel.passes, done, current, ih rest]

theorem Rotates.rounds (rotates : k.Rotates l) (n : Nat) :
    ∃ k', k.passes (n * l.length) = some ((List.replicate n l).flatten, k') ∧ k'.Rotates l := by
  induction n generalizing k with
  | zero => exact ⟨k, by simp [Kernel.passes], rotates⟩
  | succ n ih =>
    obtain ⟨k₁, once, after⟩ := @Rotates.passes k l [] (by simpa using rotates)
    obtain ⟨k₂, more, last⟩ := ih (by simpa using after)
    refine ⟨k₂, ?_, last⟩
    rw [Nat.succ_mul, Nat.add_comm, List.replicate_succ, List.flatten_cons]
    exact passes_add once more

end

/-- **Round robin.** Passes with nothing between them dispatch the foremost tasks and nobody
else, each once in a round, in cyclic slot order from where the first scan begins; and every
round is the same. -/
theorem round_robin (k : Kernel) (intact : k.CanariesIntact) (ready : ∃ t, k.Foremost t) :
    k.round.Nodup ∧ k.round ≠ [] ∧ (∀ t, t ∈ k.round ↔ k.Foremost t) ∧ k.InTurn k.round ∧
    ∀ n, ∃ k', k.passes (n * k.round.length) = some ((List.replicate n k.round).flatten, k') ∧
      k'.round = k.round := by
  have rotates : k.Rotates k.round := ⟨intact, fun t => mem_round, k.round_inTurn⟩
  refine ⟨rotates.turns.nodup, ?_, rotates.members, rotates.turns, ?_⟩
  · obtain ⟨t, foremost⟩ := ready
    exact List.ne_nil_of_mem ((rotates.members t).mpr foremost)
  · intro n
    obtain ⟨k', done, after⟩ := rotates.rounds n
    have own : k'.Rotates k'.round := ⟨after.intact, fun t => mem_round, k'.round_inTurn⟩
    exact ⟨k', done, own.unique after⟩

/-- The current task has a lower priority, and one task of the greatest priority is blocked. -/
theorem round_robin_blocked : ∃ k k' : Kernel, k.currentTcb = some 0 ∧
    (k.osTasks 2).state = .blocked ∧ k.passes 4 = some ([1, 4, 1, 4], k') := by
  let k := createAll (reset fun _ => ⟨0, 0⟩).osKernelInit [1, 2, 2, 0, 2]
  let parked := k.setTcb 2 { k.osTasks 2 with state := .blocked }
  have round : parked.round = [1, 4] := by decide +kernel
  have passes := (round_robin parked (by decide +kernel) (by decide +kernel)).2.2.2.2 2
  rw [round] at passes
  obtain ⟨k', done, _⟩ := passes
  exact ⟨parked, k', by decide +kernel, by decide +kernel, done⟩

end Kernel
end Sentinel
