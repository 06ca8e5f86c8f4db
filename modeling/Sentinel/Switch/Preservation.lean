import Sentinel.Kernel.Boot
import Sentinel.Switch.Contexts

/-! What the switch preserves, and that it always comes to its end. -/

namespace Sentinel

open Runs (Transition Run)
open Words (slot)

section
variable {l : Layout} {k : Kernel} {entry : TaskId → UInt32} {past : SwitchLog} {s : Machine}

/-- A task that was never interrupted has never been the running one before a switch. -/
theorem SwitchLog.of_interrupted {t : TaskId} {g : Registers} (run : Switching l k past s)
    (was : past.interrupted t = some g) :
    ∃ y ∈ past, y.pre.mode = .thread ∧ y.pre.kernel.currentTcb = some t ∧ y.pre.registers = g := by
  induction run with
  | start => cases was
  | @next past s s' m run step ih =>
    cases step with
    | enter thread =>
      simp only [interrupted] at was
      split at was
      · rename_i current
        exact ⟨_, List.mem_cons_self, thread, current, Option.some.inj was⟩
      · obtain ⟨y, there, rest⟩ := ih was
        exact ⟨y, List.mem_cons_of_mem _ there, rest⟩
    | work | handle | chain | leave | nested | execute | schedule =>
      obtain ⟨y, there, rest⟩ := ih was
      exact ⟨y, List.mem_cons_of_mem _ there, rest⟩

/-- In PendSV's handler there is always a next instruction, whatever task the scheduler
chooses, until the handler returns to that task. -/
theorem Machine.Sound.proceeds {owed : TaskId → Registers} {c u : TaskId} {pc : Nat}
    (sound : s.Sound l owed c) (pendSv : s.mode = .pendSv pc) (live : s.kernel.Live u)
    (aims : 6 < pc → c = u) :
    ∃ m s', SwitchStep l s m s' ∧ s'.kernel.taskCount = s.kernel.taskCount ∧
      (s'.mode = .pendSv (pc + 1) ∧ (6 < pc + 1 → s'.kernel.currentTcb = some u) ∨
        m = .execute .bxLr ∧ s'.kernel.currentTcb = some u) := by
  have current := sound.current
  have going := sound.going
  rw [pendSv] at going
  obtain ⟨n, stage⟩ := going
  cases stage with
  | calling saved top =>
    have schedules : s.kernel.Schedules { s.kernel with currentTcb := some u } :=
      ⟨⟨⟨rfl, fun _ => rfl, fun _ => rfl⟩, fun _ => rfl⟩, rfl, u, rfl, live⟩
    have callee : s.registers.Callee s.registers := ⟨rfl, rfl⟩
    exact ⟨_, _, .schedule pendSv rfl schedules callee, rfl, .inl ⟨rfl, fun _ => rfl⟩⟩
  | called saved top =>
    obtain ⟨rest, main⟩ : ∃ rest, s.main = excReturn :: rest := List.head?_eq_some_iff.mp top
    have done : Instruction.exec l { s with mode := .pendSv 8 } .popLr = some { s with
        main := rest
        registers := { s.registers with lr := excReturn }
        mode := .pendSv 8 } := by
      simp only [Instruction.exec, main]
    refine ⟨_, _, .execute pendSv rfl done, rfl, .inl ⟨rfl, fun late => ?_⟩⟩
    exact current.trans (congrArg some (aims (by omega)))
  | restored saved software psp lr =>
    refine ⟨_, _, .execute pendSv rfl (if_pos lr), rfl, .inr ⟨rfl, ?_⟩⟩
    exact current.trans (congrArg some (aims (by omega)))
  | outBlock whole r0 r1 lr =>
    refine ⟨_, _, .execute pendSv rfl rfl, ?_, .inl ⟨rfl, fun late => by omega⟩⟩
    simp only [r1, l.store_stackPtr]
    rfl
  | entered | pointed | pushed | outVariable | stored =>
    exact ⟨_, _, .execute pendSv rfl rfl, rfl, .inl ⟨rfl, fun late => by omega⟩⟩
  | chosen | inVariable | inBlock | found | popped =>
    refine ⟨_, _, .execute pendSv rfl rfl, rfl, .inl ⟨rfl, fun late => ?_⟩⟩
    exact current.trans (congrArg some (aims (by omega)))

/-- So every switch comes to its end. -/
theorem switch_completes (furnished : k.Furnished l entry) {u : TaskId} {d pc : Nat}
    (run : Switching l k past s) (pendSv : s.mode = .pendSv pc) (left : pc + d = 14)
    (live : s.kernel.Live u) (aims : 6 < pc → s.kernel.currentTcb = some u) :
    ∃ recent y, Switching l k (y :: (recent ++ past)) y.post ∧ y.event = .execute .bxLr ∧
      y.post.kernel.currentTcb = some u ∧ ∀ z ∈ recent, z.pre.mode ≠ .thread := by
  induction d generalizing past s pc with
  | zero =>
    obtain ⟨c, sound⟩ := SwitchLog.sound run furnished
    have going := sound.going
    rw [pendSv] at going
    obtain ⟨n, stage⟩ := going
    cases stage <;> omega
  | succ d ih =>
    obtain ⟨c, sound⟩ := SwitchLog.sound run furnished
    obtain ⟨m, s', step, count, next⟩ := sound.proceeds pendSv live fun late =>
      Option.some.inj (sound.current.symm.trans (aims late))
    have run' : Switching l k (⟨s, m, s'⟩ :: past) s' := .next run step
    cases next with
    | inr last =>
      refine ⟨[], ⟨s, m, s'⟩, run', last.1, last.2, fun z there => ?_⟩
      cases there
    | inl on =>
      have live' : s'.kernel.Live u := by rwa [Kernel.Live, count]
      obtain ⟨recent, y, path, last, chosen, busy⟩ := ih run' on.1 (by omega) live' on.2
      refine ⟨recent ++ [⟨s, m, s'⟩], y, ?_, last, chosen, fun z there => ?_⟩
      · rwa [List.append_assoc, List.singleton_append]
      · cases List.mem_append.mp there with
        | inl later => exact busy z later
        | inr first =>
          obtain rfl := List.mem_singleton.mp first
          simp [pendSv]

/-- **Contexts are preserved.** -/
theorem contexts_preserved (prepared : Prepared l k entry) (run : Switching l k past s) :
    (∀ recent y older, past = recent ++ y :: older → y.event = .execute .bxLr →
      ∃ u, y.post.mode = .thread ∧ y.post.kernel.currentTcb = some u ∧
        (∀ g, SwitchLog.interrupted u older = some g → y.post.registers = g) ∧
        ((∀ z ∈ older, z.pre.mode = .thread → z.pre.kernel.currentTcb ≠ some u) →
          y.post.registers = initialRegisters (entry u)
            (alignedTop (k.osTasks u).stackBase (k.osTasks u).stackSize))) ∧
    (∀ first, FirstStarted l k first → ∃ c, first.mode = .thread ∧
      first.kernel.currentTcb = some c ∧ first.control = 2 ∧ first.registers.pc = entry c ∧
      first.registers.psp = alignedTop (k.osTasks c).stackBase (k.osTasks c).stackSize) ∧
    (∀ t, k.Live t → k.memory (k.osTasks t).stackBase = stackCanary ∧
      (alignedTop (k.osTasks t).stackBase (k.osTasks t).stackSize).toNat % 8 = 0 ∧
      ∀ i < 16, ∃ j, 0 < j ∧ j < (k.osTasks t).stackSize.toNat ∧
        slot (k.osTasks t).stackPtr i = slot (k.osTasks t).stackBase j) := by
  have furnished := prepared.furnished
  refine ⟨?back, ?start, ?frame⟩
  case back =>
    rintro recent y older rfl event
    obtain ⟨before, step, _⟩ := run.transition
    obtain ⟨c, sound⟩ := SwitchLog.sound before furnished
    obtain ⟨u, after, back⟩ := SwitchLog.sound_step sound step
    obtain ⟨thread, registers⟩ := back (.inr event)
    refine ⟨u, thread, after.current, fun g was => ?_, fun fresh => ?_⟩
    · rw [registers, SwitchLog.owed, was]
      rfl
    · cases was : SwitchLog.interrupted u older with
      | none =>
        rw [registers, SwitchLog.owed, was]
        rfl
      | some g =>
        obtain ⟨z, there, thread, current, _⟩ := SwitchLog.of_interrupted before was
        exact absurd current (fresh z there thread)
  case start =>
    intro first started
    obtain ⟨c, sound, thread, control, pc, psp⟩ := started.sound furnished
    exact ⟨c, thread, sound.current, control, pc, psp⟩
  case frame =>
    intro t live
    obtain ⟨n, saved⟩ := furnished.saved t live
    refine ⟨furnished.canary t live, ?aligned, fun i hi => ?_⟩
    case aligned =>
      rw [alignedTop, Words.toNat_alignDown]
      exact Nat.mul_mod_left _ _
    have free := saved.free
    have inside := saved.inside
    refine ⟨n - 16 + i, by omega, by omega, ?_⟩
    rw [saved.stackPtr, Words.slot_slot]

end

/-- Two tasks with stacks of 64 words. -/
def pairOfTasks : Kernel :=
  (((reset fun _ => ⟨0, 0⟩).osTaskCreate 0x08000101 0x20000000 64 1).2.osTaskCreate
    0x08000201 0x20000100 64 1).2

def pairLayout : Layout where
  currentTcb := 0x20004000
  osTasks t := 0x20004100 + 36 * UInt32.ofNat t.val
  distinct := fun t u => by revert t u; decide
  apart := by decide

theorem pairOfTasks_prepared : Prepared pairLayout pairOfTasks
    (Function.update (Function.update (fun _ => 0) 0 0x08000101) 1 0x08000201) := by
  refine .create (.create (.init _ rfl) (Prod.ext rfl rfl) rfl rfl ?_ ?_ ?_) (Prod.ext rfl rfl) rfl rfl
    ?_ ?_ ?_
  all_goals decide +kernel

/-- The first task is interrupted, and the second one starts. -/
theorem contexts_preserved_first : ∃ y older, Switching pairLayout pairOfTasks (y :: older) y.post ∧
    y.post.kernel.currentTcb = some 1 ∧
    y.post.registers = initialRegisters 0x08000201 0x20000200 := by
  have chosen : pairOfTasks.Schedules pairOfTasks :=
    ⟨⟨⟨rfl, fun _ => rfl, fun _ => rfl⟩, fun _ => rfl⟩, rfl, 0, rfl, by decide +kernel⟩
  let boot : Machine := ⟨pairOfTasks, initialRegisters 0 0, 0, [], .thread⟩
  obtain ⟨first, done⟩ := Option.isSome_iff_exists.mp
    (show (runThrough pairLayout osStartFirstTask boot).isSome from rfl)
  have started : FirstStarted pairLayout pairOfTasks first := ⟨boot, chosen, rfl, done⟩
  have furnished := pairOfTasks_prepared.furnished
  obtain ⟨n, saved⟩ := furnished.saved 0 (by decide +kernel)
  obtain ⟨kernel, thread, _, _, psp⟩ :=
    osStartFirstTask_starts furnished.placed (by decide +kernel) rfl saved done
  have current : first.kernel.currentTcb = some 0 := by
    rw [kernel]
    rfl
  have entered : Switching pairLayout pairOfTasks
      [⟨first, .enter (.pendSv 0), first.stacked (.pendSv 0)⟩] (first.stacked (.pendSv 0)) := by
    refine .next (.start started) (.enter (n := n) thread current ?_ saved.free ?_ (.inr rfl))
    · rw [psp, saved.psp, kernel]
    · rw [kernel]
      exact saved.inside
  have two : first.kernel.taskCount = 2 := by
    rw [kernel]
    rfl
  have live : (first.stacked (.pendSv 0)).kernel.Live 1 := Nat.lt_of_lt_of_eq (by decide) two.symm
  obtain ⟨recent, y, run, event, next, busy⟩ :=
    switch_completes (d := 14) furnished entered rfl rfl live (by omega)
  obtain ⟨u, _, now, _, fresh⟩ := (contexts_preserved pairOfTasks_prepared run).1 [] y _ rfl event
  obtain rfl : 1 = u := Option.some.inj (next.symm.trans now)
  refine ⟨y, _, run, next, fresh fun z there out => ?_⟩
  cases List.mem_append.mp there with
  | inl later => exact absurd out (busy z later)
  | inr early =>
    obtain rfl := List.mem_singleton.mp early
    simp [current]

end Sentinel
