import Sentinel.Kernel.Effects
import Sentinel.Kernel.Boot

/-! Rotation among tasks of one priority. Each pass scans from the slot behind the task
that ran last, whatever its priority, so the rotation holds as long as that slot
has not moved back between two turns. -/

namespace Sentinel

open Runs (Transition Run)

/-- The tasks of priority `P` that passes have dispatched, latest first. -/
def turns (P : Nat) : History → List TaskId
  | [] => []
  | x :: past =>
    match x.event, x.post.kernel.currentTcb with
    | .pass, some d =>
      if (x.post.kernel.osTasks d).currentPriority = P then d :: turns P past else turns P past
    | _, _ => turns P past

/-- Each pass that dispatched at priority `P` began its scan no further behind `t` than
where the latest such pass before it had left off. -/
def Steady (t : TaskId) (P : Nat) : History → Prop
  | [] => True
  | x :: past => Steady t P past ∧
    ∀ d last, turns P [x] = [d] → (turns P past).head? = some last →
      x.pre.board.lag t ≤ Cyclic.offset (last.val + 1) x.pre.kernel.taskCount t.val

instance (t : TaskId) (P : Nat) : (past : History) → Decidable (Steady t P past)
  | [] => .isTrue trivial
  | x :: past =>
    have := instDecidableSteady t P past
    inferInstanceAs (Decidable (Steady t P past ∧ ∀ d last, turns P [x] = [d] →
      (turns P past).head? = some last →
        x.pre.board.lag t ≤ Cyclic.offset (last.val + 1) x.pre.kernel.taskCount t.val))

/-- Every turn of another task brings `t` nearer to the start of the scan. -/
theorem Board.Picks.nears {b : Board} {best t : TaskId} (picks : b.Picks best) (live : b.Live t)
    (runnable : b.Runnable t) (tie : b.priority t = b.priority best) (other : best ≠ t) :
    Cyclic.offset (best.val + 1) b.taskCount t.val + 1 ≤ b.lag t := by
  have nearest := picks.nearest t live runnable tie
  have apart : b.lag best ≠ b.lag t := fun same =>
    other (Fin.ext (Cyclic.offset_inj picks.live live same))
  have past : Cyclic.offset (best.val + 1) b.taskCount t.val + b.lag best + 1 = b.lag t :=
    Cyclic.offset_past picks.live live (lt_of_le_of_ne nearest apart)
  omega

section
variable {idle t : TaskId} {P : Nat} {recent older : History} {s : System}

theorem turns_cons (x : Transition System Event) (past : History) :
    turns P (x :: past) = turns P [x] ++ turns P past := by
  simp only [turns]
  split
  · split <;> simp
  · rfl

/-- One transition has one turn of that priority, by a pass that picked the task, or none. -/
theorem Step.turn {e : Event} {s s' : System} (step : Step idle s e s') (sound : s.board.Sound idle) :
    turns P [⟨s, e, s'⟩] = [] ∨ ∃ best, turns P [⟨s, e, s'⟩] = [best] ∧ s.board.Picks best ∧
      s.board.priority best = P := by
  simp only [turns]
  split
  · rename_i d current
    split
    · rename_i level
      obtain ⟨best, picks, after⟩ := (step.refines sound).of_pass
      have same : s'.board.current = some best := by rw [after]; rfl
      obtain rfl : best = d := Option.some.inj (same.symm.trans current)
      refine .inr ⟨best, rfl, picks, ?_⟩
      have kept := congrFun (Board.dispatch_priority s.board best) best
      rw [← after] at kept
      exact kept.symm.trans level
    · exact .inl rfl
  · exact .inl rfl

theorem Trace.taskCount_kept {u : System} (early : Trace idle older u)
    (late : Run (· = u) (Step idle) recent s) : s.kernel.taskCount = u.kernel.taskCount := by
  induction late with
  | start same => rw [same]
  | @next past s s' e late step ih =>
    have sound := (show Trace idle (past ++ older) s from early.append late).sound
    exact (step.refines sound).base_kept.1.trans ih

/-- Turns that pass `t` by and the way still to go to `t` fit into one round. -/
theorem turns_fit {u : System} (early : Trace idle older u)
    (late : Run (· = u) (Step idle) recent s) (live : u.kernel.Live t)
    (ready : ∀ x ∈ recent, x.pre.kernel.Runnable t ∧
      (x.pre.kernel.osTasks t).currentPriority = P)
    (steady : Steady t P recent) (missed : t ∉ turns P recent) {last : TaskId}
    (latest : (turns P recent).head? = some last) :
    (turns P recent).length + Cyclic.offset (last.val + 1) u.kernel.taskCount t.val + 1 ≤
      u.kernel.taskCount := by
  induction late generalizing last with
  | start same => simp [turns] at latest
  | @next past s s' e late step ih =>
    have count := early.taskCount_kept late
    have sound := (show Trace idle (past ++ older) s from early.append late).sound
    rw [turns_cons, List.mem_append, not_or] at missed
    have ready' := fun x hx => ready x (List.mem_cons_of_mem _ hx)
    rcases step.turn sound with none | ⟨best, turn, picks, level⟩
    · rw [turns_cons, none, List.nil_append] at latest ⊢
      exact ih ready' steady.1 missed.2 latest
    · have other : best ≠ t := fun self => missed.1 (by
        rw [turn, self]
        exact List.mem_singleton.mpr rfl)
      obtain ⟨runnable, tie⟩ := ready _ List.mem_cons_self
      have live' : s.board.Live t := by
        change t.val < s.kernel.taskCount
        rw [count]
        exact live
      have nears := picks.nears live' runnable (tie.trans level.symm) other
      change Cyclic.offset (best.val + 1) s.kernel.taskCount t.val + 1 ≤ _ at nears
      rw [turns_cons, turn, List.singleton_append] at latest ⊢
      obtain rfl : best = last := by simpa using latest
      rw [count] at nears
      cases before : (turns P past).head? with
      | none =>
        have empty : turns P past = [] := by simpa using before
        have bound : s.board.lag t < s.kernel.taskCount :=
          Cyclic.offset_lt _ _ (Nat.zero_lt_of_lt live')
        rw [empty, List.length_singleton]
        omega
      | some last =>
        have steadily := steady.2 best last turn before
        change s.board.lag t ≤ Cyclic.offset (last.val + 1) s.kernel.taskCount t.val at steadily
        rw [count] at steadily
        have := ih ready' steady.1 missed.2 before
        rw [List.length_cons]
        omega

/-- **Rotation.** A task that stays ready at priority `P` has its turn within one round
of the passes that dispatch at `P`, when no pass between them moves the scan back. -/
theorem rotation (run : Trace idle (recent ++ older) s) (live : s.kernel.Live t)
    (ready : ∀ x ∈ recent, x.pre.kernel.Runnable t ∧
      (x.pre.kernel.osTasks t).currentPriority = P)
    (steady : Steady t P recent) (round : s.kernel.taskCount ≤ (turns P recent).length) :
    t ∈ turns P recent := by
  by_contra missed
  obtain ⟨u, early, late⟩ := run.cut
  have count := Trace.taskCount_kept early late
  have live' : t.val < u.kernel.taskCount := by
    rw [← count]
    exact live
  cases latest : (turns P recent).head? with
  | none =>
    have empty : turns P recent = [] := by simpa using latest
    rw [empty, List.length_nil] at round
    omega
  | some last =>
    have := turns_fit early late live' ready steady missed latest
    omega

/-- Task 1 outranks tasks 0 and 2 and preempts on the way from one to the other. -/
theorem rotation_preempted : ∃ past s, Trace 3 past s ∧ turns 1 past = [0, 2, 0, 2] ∧
    2 ∈ turns 1 past := by
  obtain ⟨past, s, run, final⟩ := rehearse_run
    (show rehearse 3 (fun _ => ⟨0, 1⟩) [1, 3, 1, 0] (fun _ _ => true)
      (fun past s => (s.kernel.taskCount = 4 ∧ turns 1 past = [0, 2, 0, 2]) ∧
        (∀ x ∈ past, x.pre.kernel.Runnable 2 ∧ (x.pre.kernel.osTasks 2).currentPriority = 1) ∧
        Steady 2 1 past)
      [.call 1 (.delay 2) .parked, .pass, .tick, .pass, .tick, .pass,
        .resume 1 (.delay 2) .finished, .call 1 (.delay 9) .parked, .pass, .tick, .pass]
      by decide +kernel)
  obtain ⟨⟨count, all⟩, ready, steady⟩ := of_decide_eq_true final
  have trace : Trace 3 (past ++ []) s := by
    rw [List.append_nil]
    exact run.weaken (fun _ h => h.launched) fun _ _ _ h => h.1
  have live : s.kernel.Live 2 := by
    rw [Kernel.Live, count]
    decide
  exact ⟨past, s, by simpa using trace, all,
    rotation trace live ready steady (by rw [count, all]; decide)⟩

/-- A task of high priority in slot 0 that keeps waking sends each scan back to slot 1. -/
theorem preemption_starves : ¬ ∀ idle recent older s t P,
    Trace idle (recent ++ older) s → s.kernel.Live t →
    (∀ x ∈ recent ++ older, ∀ u,
      (x.pre.kernel.osTasks u).currentPriority = (x.pre.kernel.osTasks u).basePriority) →
    (∀ x ∈ recent, x.pre.kernel.Runnable t ∧ (x.pre.kernel.osTasks t).currentPriority = P) →
    s.kernel.taskCount ≤ (turns P recent).length → t ∈ turns P recent := by
  intro claim
  obtain ⟨past, s, run, final⟩ := rehearse_run
    (show rehearse 3 (fun _ => ⟨0, 1⟩) [3, 1, 1, 0] (fun _ _ => true)
      (fun past s => (s.kernel.taskCount = 4 ∧ turns 1 past = [1, 1, 1, 1]) ∧
        ∀ x ∈ past, (∀ u, (x.pre.kernel.osTasks u).currentPriority =
          (x.pre.kernel.osTasks u).basePriority) ∧
          x.pre.kernel.Runnable 2 ∧ (x.pre.kernel.osTasks 2).currentPriority = 1)
      ((List.replicate 4 [.call 0 (.delay 1) .parked, .pass, .tick, .pass,
        .resume 0 (.delay 1) .finished]).flatten)
      by decide +kernel)
  obtain ⟨⟨count, all⟩, ready⟩ := of_decide_eq_true final
  have trace : Trace 3 (past ++ []) s := by
    rw [List.append_nil]
    exact run.weaken (fun _ h => h.launched) fun _ _ _ h => h.1
  have live : s.kernel.Live 2 := by
    rw [Kernel.Live, count]
    decide
  have dispatched := claim 3 past [] s 2 1 trace live
    (fun x hx => (ready x (by simpa using hx)).1) (fun x hx => (ready x hx).2)
    (by rw [count, all]; decide)
  rw [all] at dispatched
  exact absurd dispatched (by decide)

end

end Sentinel
