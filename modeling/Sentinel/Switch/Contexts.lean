import Mathlib.Tactic.FinCases
import Sentinel.Switch.Frames

/-! Every task that is not running has its registers in a frame on its own stack, whichever
instruction of the switch comes next, and gets them back. -/

namespace Sentinel

open Runs (Transition Run)
open Words (slot)

namespace Registers

variable (g h : Registers) (word : UInt32)

@[simp] theorem set_self (rd : Fin 13) : (g.set rd word).r rd = word := by
  simp [set]

@[simp] theorem set_lr (rd : Fin 13) : (g.set rd word).lr = g.lr := rfl

@[simp] theorem set_psp (rd : Fin 13) : (g.set rd word).psp = g.psp := rfl

theorem set_other {rd i : Fin 13} (other : i ≠ rd) : (g.set rd word).r i = g.r i := by
  simp [set, other]

/-- R0-R3 and R12 are not in the software frame. -/
theorem set_software {rd : Fin 13} (low : rd.val < 4) : (g.set rd word).software = g.software := by
  have apart : ∀ i : Fin 13, 4 ≤ i.val → (g.set rd word).r i = g.r i := fun i high =>
    set_other g word (by omega)
  simp only [software, apart 4 (by decide), apart 5 (by decide), apart 6 (by decide),
    apart 7 (by decide), apart 8 (by decide), apart 9 (by decide), apart 10 (by decide),
    apart 11 (by decide)]

theorem software_loadSoftware : (g.loadSoftware h.software).software = h.software := rfl

/-- The two halves of a frame and the stack pointer are all that a task has. -/
theorem loadHardware_eq {g h : Registers} (same : g.software = h.software) :
    { g.loadHardware h.hardware with psp := h.psp } = h := by
  obtain ⟨r, lr, pc, xpsr, psp⟩ := h
  simp only [software, List.cons.injEq, and_true] at same
  simp only [loadHardware, hardware, mk.injEq, and_true]
  refine ⟨funext fun i => ?_, rfl, rfl, rfl⟩
  fin_cases i <;> simp_all

end Registers

namespace Layout

variable (l : Layout) (k : Kernel) (t : TaskId)

theorem tcbAt_osTasks : l.tcbAt (l.osTasks t) = some t := by
  have found : ∃ u ∈ List.finRange maxTasks, decide (l.osTasks u = l.osTasks t) = true :=
    ⟨t, List.mem_finRange t, by simp⟩
  obtain ⟨u, hu⟩ := Option.isSome_iff_exists.mp (List.find?_isSome.mpr found)
  have same := List.find?_some hu
  rw [tcbAt, hu, l.distinct (of_decide_eq_true same)]

theorem load_currentTcb {c : TaskId} (current : k.currentTcb = some c) :
    l.load k l.currentTcb = l.osTasks c := by
  simp [load, current]

theorem load_stackPtr : l.load k (l.osTasks t) = (k.osTasks t).stackPtr := by
  simp [load, l.apart, tcbAt_osTasks]

theorem store_stackPtr (word : UInt32) :
    l.store k (l.osTasks t) word = k.setTcb t { k.osTasks t with stackPtr := word } := by
  simp [store, l.apart, tcbAt_osTasks]

theorem load_memory {a : UInt32} (clear : a ≠ l.currentTcb ∧ ∀ u, a ≠ l.osTasks u) :
    l.load k a = k.memory a := by
  have none : l.tcbAt a = none :=
    List.find?_eq_none.mpr fun u _ => by simpa using (clear.2 u).symm
  simp [load, clear.1, none]

end Layout

namespace Machine

/-- The current task has been interrupted: the hardware has stacked its half of the frame. -/
structure Interrupted (s : Machine) (c : TaskId) (g : Registers) (n : Nat) : Prop where
  free : 17 ≤ n
  inside : n ≤ (s.kernel.osTasks c).stackSize.toNat
  psp : g.psp = slot (s.kernel.osTasks c).stackBase n
  hardware : Words.load s.kernel.memory (slot (s.kernel.osTasks c).stackBase (n - 8)) 8 = g.hardware

/-- The other half is below it. -/
structure Pushed (s : Machine) (c : TaskId) (g : Registers) (n : Nat) : Prop
    extends s.Interrupted c g n where
  software : Words.load s.kernel.memory (slot (s.kernel.osTasks c).stackBase (n - 16)) 8 = g.software

/-- What holds before each instruction of PendSV's handler, when `g` is what the current task
goes on with. -/
inductive Stage (l : Layout) (s : Machine) (c : TaskId) (g : Registers) (n : Nat) : Nat → Prop
  | entered (half : s.Interrupted c g n) (software : s.registers.software = g.software)
      (psp : s.registers.psp = slot (s.kernel.osTasks c).stackBase (n - 8))
      (lr : s.registers.lr = excReturn) : Stage l s c g n 0
  | pointed (half : s.Interrupted c g n) (software : s.registers.software = g.software)
      (r0 : s.registers.r 0 = slot (s.kernel.osTasks c).stackBase (n - 8))
      (lr : s.registers.lr = excReturn) : Stage l s c g n 1
  | pushed (whole : s.Pushed c g n)
      (r0 : s.registers.r 0 = slot (s.kernel.osTasks c).stackBase (n - 16))
      (lr : s.registers.lr = excReturn) : Stage l s c g n 2
  | outVariable (whole : s.Pushed c g n)
      (r0 : s.registers.r 0 = slot (s.kernel.osTasks c).stackBase (n - 16))
      (r1 : s.registers.r 1 = l.currentTcb) (lr : s.registers.lr = excReturn) : Stage l s c g n 3
  | outBlock (whole : s.Pushed c g n)
      (r0 : s.registers.r 0 = slot (s.kernel.osTasks c).stackBase (n - 16))
      (r1 : s.registers.r 1 = l.osTasks c) (lr : s.registers.lr = excReturn) : Stage l s c g n 4
  | stored (saved : s.kernel.Saved c g n) (lr : s.registers.lr = excReturn) : Stage l s c g n 5
  | calling (saved : s.kernel.Saved c g n) (top : s.main.head? = some excReturn) :
      Stage l s c g n 6
  | called (saved : s.kernel.Saved c g n) (top : s.main.head? = some excReturn) :
      Stage l s c g n 7
  | chosen (saved : s.kernel.Saved c g n) (lr : s.registers.lr = excReturn) : Stage l s c g n 8
  | inVariable (saved : s.kernel.Saved c g n) (r1 : s.registers.r 1 = l.currentTcb)
      (lr : s.registers.lr = excReturn) : Stage l s c g n 9
  | inBlock (saved : s.kernel.Saved c g n) (r1 : s.registers.r 1 = l.osTasks c)
      (lr : s.registers.lr = excReturn) : Stage l s c g n 10
  | found (saved : s.kernel.Saved c g n)
      (r0 : s.registers.r 0 = slot (s.kernel.osTasks c).stackBase (n - 16))
      (lr : s.registers.lr = excReturn) : Stage l s c g n 11
  | popped (saved : s.kernel.Saved c g n) (software : s.registers.software = g.software)
      (r0 : s.registers.r 0 = slot (s.kernel.osTasks c).stackBase (n - 8))
      (lr : s.registers.lr = excReturn) : Stage l s c g n 12
  | restored (saved : s.kernel.Saved c g n) (software : s.registers.software = g.software)
      (psp : s.registers.psp = slot (s.kernel.osTasks c).stackBase (n - 8))
      (lr : s.registers.lr = excReturn) : Stage l s c g n 13

/-- The current task `c` runs, or has been interrupted when it had the registers `g`. -/
def Going (l : Layout) (s : Machine) (c : TaskId) (g : Registers) : Mode → Prop
  | .thread => True
  | .handler => ∃ n, s.Interrupted c g n ∧ s.registers.software = g.software ∧
      s.registers.psp = slot (s.kernel.osTasks c).stackBase (n - 8)
  | .pendSv pc => ∃ n, s.Stage l c g n pc

/-- The registers that each task goes on with, once it is switched in, are in its frame. -/
structure Sound (l : Layout) (owed : TaskId → Registers) (s : Machine) (c : TaskId) : Prop where
  placed : s.kernel.Placed l
  current : s.kernel.currentTcb = some c
  live : s.kernel.Live c
  others : ∀ t, s.kernel.Live t → t ≠ c → ∃ n, s.kernel.Saved t (owed t) n
  going : s.Going l c (owed c) s.mode

variable {l : Layout} {s s' : Machine} {c : TaskId} {g : Registers} {n pc : Nat} {k : Kernel}

theorem Interrupted.keep (half : s.Interrupted c g n) (keeps : s.kernel.SameStacks s'.kernel)
    (memory : s'.kernel.memory = s.kernel.memory) : s'.Interrupted c g n := by
  obtain ⟨free, inside, psp, hardware⟩ := half
  exact ⟨free, by rwa [keeps.stackSize], by rwa [keeps.stackBase],
    by rwa [keeps.stackBase, memory]⟩

theorem Pushed.keep (whole : s.Pushed c g n) (keeps : s.kernel.SameStacks s'.kernel)
    (memory : s'.kernel.memory = s.kernel.memory) : s'.Pushed c g n :=
  ⟨whole.toInterrupted.keep keeps memory, by
    rw [keeps.stackBase, memory]
    exact whole.software⟩

/-- Another handler changes nothing that the next instructions use. -/
theorem Stage.nested (stage : s.Stage l c g n pc) (handles : s.kernel.Handles k) :
    Stage l { s with kernel := k } c g n pc := by
  have keeps := handles.toKeepsContexts
  have base := keeps.stackBase c
  have memory : ∀ a, s.kernel.InStack c a → k.memory a = s.kernel.memory a := fun a _ => by
    rw [handles.memory]
  cases stage with
  | entered half software psp lr =>
    exact .entered (half.keep keeps.toSameStacks handles.memory) software (psp.trans (by rw [base])) lr
  | pointed half software r0 lr =>
    exact .pointed (half.keep keeps.toSameStacks handles.memory) software (r0.trans (by rw [base])) lr
  | pushed whole r0 lr =>
    exact .pushed (whole.keep keeps.toSameStacks handles.memory) (r0.trans (by rw [base])) lr
  | outVariable whole r0 r1 lr =>
    exact .outVariable (whole.keep keeps.toSameStacks handles.memory) (r0.trans (by rw [base])) r1 lr
  | outBlock whole r0 r1 lr =>
    exact .outBlock (whole.keep keeps.toSameStacks handles.memory) (r0.trans (by rw [base])) r1 lr
  | stored saved lr => exact .stored (saved.keepContexts keeps memory) lr
  | calling saved top => exact .calling (saved.keepContexts keeps memory) top
  | called saved top => exact .called (saved.keepContexts keeps memory) top
  | chosen saved lr => exact .chosen (saved.keepContexts keeps memory) lr
  | inVariable saved r1 lr => exact .inVariable (saved.keepContexts keeps memory) r1 lr
  | inBlock saved r1 lr => exact .inBlock (saved.keepContexts keeps memory) r1 lr
  | found saved r0 lr =>
    exact .found (saved.keepContexts keeps memory) (r0.trans (by rw [base])) lr
  | popped saved software r0 lr =>
    exact .popped (saved.keepContexts keeps memory) software (r0.trans (by rw [base])) lr
  | restored saved software psp lr =>
    exact .restored (saved.keepContexts keeps memory) software (psp.trans (by rw [base])) lr

variable {owed : TaskId → Registers}

theorem Sound.keep (sound : s.Sound l owed c) (keeps : s.kernel.KeepsOthers c s'.kernel)
    (current : s'.kernel.currentTcb = some c) {owed' : TaskId → Registers}
    (same : ∀ t, t ≠ c → owed' t = owed t) (going : s'.Going l c (owed' c) s'.mode) :
    s'.Sound l owed' c where
  placed := keeps.placed sound.placed
  current := current
  live := keeps.live.mpr sound.live
  others t live other := by
    have live := keeps.live.mp live
    obtain ⟨n, saved⟩ := sound.others t live other
    rw [same t other]
    exact ⟨n, saved.keepOthers keeps sound.placed live sound.live other⟩
  going := going

theorem Sound.enter (sound : s.Sound l owed c) {mode : Mode}
    (pointer : s.registers.psp = slot (s.kernel.osTasks c).stackBase n) (free : 17 ≤ n)
    (inside : n ≤ (s.kernel.osTasks c).stackSize.toNat)
    (exception : mode = .handler ∨ mode = .pendSv 0) :
    (s.stacked mode).Sound l (Function.update owed c s.registers) c := by
  have lower : s.registers.psp - 32 = slot (s.kernel.osTasks c).stackBase (n - 8) := by
    rw [pointer]
    exact Words.slot_back _ (n := 8) (by omega)
  have keeps : s.kernel.KeepsOthers c (s.stacked mode).kernel := by
    simp only [stacked, lower]
    apply Kernel.keepsOthers_store s.registers.hardware
    simp only [Registers.hardware, List.length_cons, List.length_nil]
    omega
  have half : (s.stacked mode).Interrupted c s.registers n := by
    refine ⟨free, inside, pointer, ?_⟩
    simp only [stacked, lower]
    exact Words.load_store s.kernel.memory _ s.registers.hardware (by simp [Registers.hardware])
  apply sound.keep keeps sound.current (fun t other => Function.update_of_ne other _ _)
  rw [Function.update_self]
  rcases exception with rfl | rfl
  · exact ⟨n, half, rfl, lower⟩
  · exact ⟨n, .entered half rfl lower rfl⟩

theorem Sound.work (sound : s.Sound l owed c) (thread : s.mode = .thread)
    (keeps : s.kernel.KeepsContexts k) (same : k.currentTcb = some c)
    (own : ∀ a, ¬ s.kernel.InStack c a → k.memory a = s.kernel.memory a) :
    Sound l owed { s with kernel := k, registers := g } c := by
  refine sound.keep ⟨keeps.toSameStacks, fun t _ => keeps.stackPtr t, own⟩ same (fun _ _ => rfl) ?_
  simp only [thread]
  trivial

theorem Sound.handle (sound : s.Sound l owed c) (handler : s.mode = .handler)
    (handles : s.kernel.Handles k) (callee : s.registers.Callee g) :
    Sound l owed { s with kernel := k, registers := g } c := by
  have going := sound.going
  rw [handler] at going
  obtain ⟨n, half, software, psp⟩ := going
  refine sound.keep (handles.keepsOthers c) (handles.currentTcb.trans sound.current)
    (fun _ _ => rfl) ?_
  simp only [handler]
  refine ⟨n, half.keep handles.toSameStacks handles.memory, callee.software.trans software, ?_⟩
  rw [handles.stackBase]
  exact callee.psp.trans psp

theorem Sound.chain (sound : s.Sound l owed c) (handler : s.mode = .handler) :
    Sound l owed
      { s with registers := { s.registers with lr := excReturn }, mode := .pendSv 0 } c := by
  have going := sound.going
  rw [handler] at going
  obtain ⟨n, ⟨free, inside, top, hardware⟩, software, psp⟩ := going
  exact ⟨sound.placed, sound.current, sound.live, sound.others,
    n, .entered ⟨free, inside, top, hardware⟩ software psp rfl⟩

theorem Sound.nested (sound : s.Sound l owed c) (pendSv : s.mode = .pendSv pc)
    (handles : s.kernel.Handles k) : Sound l owed { s with kernel := k } c := by
  have going := sound.going
  rw [pendSv] at going
  obtain ⟨n, stage⟩ := going
  refine sound.keep (handles.keepsOthers c) (handles.currentTcb.trans sound.current)
    (fun _ _ => rfl) ?_
  have goes : Going l { s with kernel := k } c (owed c) (.pendSv pc) := ⟨n, stage.nested handles⟩
  rwa [← pendSv] at goes

/-- The exception return gives the current task the registers that it goes on with. -/
theorem unstacked_registers (half : s.Interrupted c g n)
    (software : s.registers.software = g.software)
    (psp : s.registers.psp = slot (s.kernel.osTasks c).stackBase (n - 8)) :
    s.unstacked.registers = g := by
  have free := half.free
  have up : s.registers.psp + 32 = g.psp := by
    rw [psp, half.psp]
    exact (Words.slot_slot _ (n - 8) 8).trans (by rw [show n - 8 + 8 = n by omega])
  simp only [unstacked]
  rw [psp, half.hardware, ← psp, up]
  exact Registers.loadHardware_eq software

theorem Sound.leave (sound : s.Sound l owed c) (handler : s.mode = .handler) :
    s.unstacked.Sound l owed c ∧ s.unstacked.registers = owed c := by
  have going := sound.going
  rw [handler] at going
  obtain ⟨n, half, software, psp⟩ := going
  exact ⟨⟨sound.placed, sound.current, sound.live, sound.others, trivial⟩,
    unstacked_registers half software psp⟩

/-- The scheduler may choose any task: all of them are saved. -/
theorem Sound.schedule (sound : s.Sound l owed c) (pendSv : s.mode = .pendSv pc)
    (fetched : pendSvHandler[pc]? = some .blOsScheduler) (schedules : s.kernel.Schedules k) :
    ∃ u, Sound l owed { s with kernel := k, registers := g, mode := .pendSv (pc + 1) } u := by
  have going := sound.going
  rw [pendSv] at going
  obtain ⟨n, stage⟩ := going
  obtain ⟨u, chosen, live⟩ := schedules.chosen
  have keeps := schedules.toKeepsContexts
  cases stage with
  | calling saved top =>
    have all : ∀ t, k.Live t → ∃ n, k.Saved t (owed t) n := by
      intro t live
      have memory : ∀ a, s.kernel.InStack t a → k.memory a = s.kernel.memory a := fun a _ => by
        rw [schedules.memory]
      by_cases same : t = c
      · subst same
        exact ⟨n, saved.keepContexts keeps memory⟩
      · obtain ⟨n, saved⟩ := sound.others t (keeps.live.mp live) same
        exact ⟨n, saved.keepContexts keeps memory⟩
    obtain ⟨m, mine⟩ := all u live
    exact ⟨u, keeps.placed sound.placed, chosen, live, fun t live _ => all t live, m, .called mine top⟩
  | entered | pointed | pushed | outVariable | outBlock | stored | called | chosen | inVariable
    | inBlock | found | popped | restored => cases fetched

theorem Interrupted.same (half : s.Interrupted c g n) (kernel : s'.kernel = s.kernel) :
    s'.Interrupted c g n :=
  half.keep ⟨by rw [kernel], fun _ => by rw [kernel], fun _ => by rw [kernel]⟩ (by rw [kernel])

theorem Pushed.same (whole : s.Pushed c g n) (kernel : s'.kernel = s.kernel) :
    s'.Pushed c g n :=
  whole.keep ⟨by rw [kernel], fun _ => by rw [kernel], fun _ => by rw [kernel]⟩ (by rw [kernel])

/-- A step that leaves the kernel alone and leads to the next instruction. -/
theorem Sound.next (sound : s.Sound l owed c) (kernel : s'.kernel = s.kernel)
    (mode : s'.mode = .pendSv pc) (stage : s'.Stage l c (owed c) n pc) : s'.Sound l owed c := by
  refine ⟨by rw [kernel]; exact sound.placed, by rw [kernel]; exact sound.current,
    by rw [kernel]; exact sound.live, by rw [kernel]; exact sound.others, ?_⟩
  rw [mode]
  exact ⟨n, stage⟩

/-- `STMDB` puts the other half below the one that the hardware has stacked. -/
theorem Sound.push (sound : s.Sound l owed c) (half : s.Interrupted c (owed c) n)
    (software : s.registers.software = (owed c).software)
    (lower : s.registers.r 0 - 32 = slot (s.kernel.osTasks c).stackBase (n - 16))
    (lr : s.registers.lr = excReturn) :
    Sound l owed
      { s with
        kernel := { s.kernel with
          memory := Words.store s.kernel.memory (s.registers.r 0 - 32) s.registers.software }
        registers := s.registers.set 0 (s.registers.r 0 - 32)
        mode := .pendSv 2 } c := by
  obtain ⟨free, inside, top, hardware⟩ := half
  have fits := sound.placed.fits c sound.live
  have eight : s.registers.software.length = 8 := rfl
  have keeps := Kernel.keepsOthers_store (k := s.kernel) (c := c) (m := n - 16) s.registers.software
    (by omega)
  rw [lower]
  refine sound.keep keeps ?_ (fun _ _ => rfl) ?_
  · exact sound.current
  refine ⟨n, .pushed ⟨⟨free, inside, top, ?hardware⟩, ?software⟩ (Registers.set_self ..) lr⟩
  case hardware =>
    refine (Words.load_store_apart fun i hi j hj same => ?_).trans hardware
    rw [Words.slot_slot, Words.slot_slot] at same
    have := Words.slot_inj (by omega) (by omega) same
    omega
  case software =>
    have stored := Words.load_store s.kernel.memory (slot (s.kernel.osTasks c).stackBase (n - 16))
      s.registers.software (by omega)
    rw [eight] at stored
    exact stored.trans software

/-- `current_tcb->stackPtr = R0` completes the frame of the outgoing task. -/
theorem Sound.store (sound : s.Sound l owed c) (whole : s.Pushed c (owed c) n)
    (r0 : s.registers.r 0 = slot (s.kernel.osTasks c).stackBase (n - 16))
    (r1 : s.registers.r 1 = l.osTasks c) (lr : s.registers.lr = excReturn) :
    Sound l owed
      { s with
        kernel := l.store s.kernel (s.registers.r 1) (s.registers.r 0)
        mode := .pendSv 5 } c := by
  obtain ⟨⟨free, inside, top, hardware⟩, software⟩ := whole
  rw [r1, l.store_stackPtr, r0]
  have keeps := Kernel.keepsOthers_setTcb (k := s.kernel) (c := c)
    (slot (s.kernel.osTasks c).stackBase (n - 16))
  refine sound.keep keeps ?_ (fun _ _ => rfl) ?_
  · exact sound.current
  refine ⟨n, .stored ⟨free, ?inside, ?stackPtr, ?psp, ?software, ?hardware⟩ lr⟩
  all_goals simp only [Kernel.setTcb, Function.update_self]
  case inside => exact inside
  case psp => exact top
  case software => exact software
  case hardware => exact hardware

/-- Each instruction leads to the next stage, the last one back to the task that is now
current. -/
theorem Sound.execute (sound : s.Sound l owed c) (pendSv : s.mode = .pendSv pc)
    {i : Instruction} (fetched : pendSvHandler[pc]? = some i)
    (done : i.exec l { s with mode := .pendSv (pc + 1) } = some s') :
    s'.Sound l owed c ∧ (i = .bxLr → s'.mode = .thread ∧ s'.registers = owed c) := by
  have going := sound.going
  rw [pendSv] at going
  obtain ⟨n, stage⟩ := going
  have current := sound.current
  cases stage with
  | calling =>
    cases fetched
    cases done
  | entered half software psp lr =>
    cases fetched
    cases done
    refine ⟨sound.next rfl rfl (.pointed (half.same rfl) ?_ ?_ lr), nofun⟩
    · rw [Registers.set_software _ _ (by decide)]
      exact software
    · rw [Registers.set_self]
      exact psp
  | pointed half software r0 lr =>
    cases fetched
    cases done
    have free := half.free
    have inside := half.inside
    have lower : s.registers.r 0 - 32 = slot (s.kernel.osTasks c).stackBase (n - 16) := by
      rw [r0]
      exact (Words.slot_back _ (n := 8) (by omega)).trans (by rw [show n - 8 - 8 = n - 16 by omega])
    exact ⟨sound.push half software lower lr, nofun⟩
  | pushed whole r0 lr =>
    cases fetched
    cases done
    refine ⟨sound.next rfl rfl (.outVariable (whole.same rfl) ?_ ?_ lr), nofun⟩
    · rw [Registers.set_other _ _ (by decide)]
      exact r0
    · rw [Registers.set_self]
  | outVariable whole r0 r1 lr =>
    cases fetched
    cases done
    refine ⟨sound.next rfl rfl (.outBlock (whole.same rfl) ?_ ?_ lr), nofun⟩
    · rw [Registers.set_other _ _ (by decide)]
      exact r0
    · simp only [Registers.set_self, r1, UInt32.add_zero]
      exact l.load_currentTcb s.kernel current
  | outBlock whole r0 r1 lr =>
    cases fetched
    cases done
    exact ⟨sound.store whole r0 r1 lr, nofun⟩
  | stored saved lr =>
    cases fetched
    cases done
    exact ⟨sound.next rfl rfl (.calling saved (by simp [lr])), nofun⟩
  | called saved top =>
    cases fetched
    obtain ⟨rest, main⟩ : ∃ rest, s.main = excReturn :: rest := List.head?_eq_some_iff.mp top
    simp only [Instruction.exec, main, Option.some.injEq] at done
    subst done
    exact ⟨sound.next rfl rfl (.chosen saved rfl), nofun⟩
  | chosen saved lr =>
    cases fetched
    cases done
    refine ⟨sound.next rfl rfl (.inVariable saved ?_ lr), nofun⟩
    rw [Registers.set_self]
  | inVariable saved r1 lr =>
    cases fetched
    cases done
    refine ⟨sound.next rfl rfl (.inBlock saved ?_ lr), nofun⟩
    simp only [Registers.set_self, r1, UInt32.add_zero]
    exact l.load_currentTcb s.kernel current
  | inBlock saved r1 lr =>
    cases fetched
    cases done
    refine ⟨sound.next rfl rfl (.found saved ?_ lr), nofun⟩
    simp only [Registers.set_self, r1, UInt32.add_zero]
    exact (l.load_stackPtr s.kernel c).trans saved.stackPtr
  | found saved r0 lr =>
    cases fetched
    cases done
    have free := saved.free
    refine ⟨sound.next rfl rfl (.popped saved ?_ ?_ lr), nofun⟩
    · rw [Registers.set_software _ _ (by decide), r0, saved.software]
      exact Registers.software_loadSoftware _ _
    · rw [Registers.set_self, r0]
      exact (Words.slot_slot _ (n - 16) 8).trans (by rw [show n - 16 + 8 = n - 8 by omega])
  | popped saved software r0 lr =>
    cases fetched
    cases done
    exact ⟨sound.next rfl rfl (.restored saved software r0 lr), nofun⟩
  | restored saved software psp lr =>
    cases fetched
    simp only [Instruction.exec, lr, if_true, Option.some.injEq] at done
    subst done
    have half : Interrupted { s with mode := .pendSv 14 } c (owed c) n :=
      ⟨saved.free, saved.inside, saved.psp, saved.hardware⟩
    exact ⟨⟨sound.placed, sound.current, sound.live, sound.others, trivial⟩,
      fun _ => ⟨rfl, unstacked_registers half software psp⟩⟩

end Machine

/-- `os_kernel_launch` has let the scheduler choose one of the prepared tasks and
`os_start_first_task` has started it. -/
def FirstStarted (l : Layout) (k : Kernel) (s : Machine) : Prop :=
  ∃ boot : Machine, k.Schedules boot.kernel ∧ boot.mode = .thread ∧
    runThrough l osStartFirstTask boot = some s

section
variable {l : Layout} {k : Kernel} {entry : TaskId → UInt32} {s : Machine} {c : TaskId}

/-- `os_start_first_task` takes PC and PSP from the frame, which it skips. -/
theorem osStartFirstTask_starts {boot : Machine} {g : Registers} {n : Nat}
    (placed : boot.kernel.Placed l) (live : boot.kernel.Live c)
    (current : boot.kernel.currentTcb = some c) (saved : boot.kernel.Saved c g n)
    (done : runThrough l osStartFirstTask boot = some s) :
    s.kernel = { boot.kernel with primask := false } ∧ s.mode = boot.mode ∧ s.control = 2 ∧
      s.registers.pc = g.pc ∧ s.registers.psp = g.psp := by
  have free := saved.free
  have inside := saved.inside
  have top : slot (boot.kernel.osTasks c).stackBase (n - 16) + 64 = g.psp := by
    rw [saved.psp]
    exact (Words.slot_slot _ (n - 16) 16).trans (by rw [show n - 16 + 16 = n by omega])
  have there := placed.clear c live _ (saved.inStack (i := 14) (by omega))
  have upper : slot (slot (boot.kernel.osTasks c).stackBase (n - 16)) 14 =
      slot (slot (boot.kernel.osTasks c).stackBase (n - 8)) 6 := by
    rw [Words.slot_slot, Words.slot_slot, show n - 16 + 14 = n - 8 + 6 by omega]
  have pc : boot.kernel.memory (slot (slot (boot.kernel.osTasks c).stackBase (n - 16)) 14) = g.pc := by
    have word := Words.load_getElem? boot.kernel.memory
      (slot (boot.kernel.osTasks c).stackBase (n - 8)) (show 6 < 8 by decide)
    rw [saved.hardware] at word
    rw [upper]
    exact (Option.some.inj word).symm
  have loaded : l.load boot.kernel (slot (boot.kernel.osTasks c).stackBase (n - 16) + 56) = g.pc :=
    (l.load_memory boot.kernel there).trans pc
  simp only [osStartFirstTask, runThrough, Instruction.exec, Option.bind_some, Option.some.injEq,
    Registers.set_self, UInt32.add_zero, l.load_currentTcb boot.kernel current,
    l.load_stackPtr, saved.stackPtr, loaded] at done
  subst done
  refine ⟨rfl, rfl, ?_, ?_, ?_⟩
  all_goals simp [Registers.set, top]

theorem FirstStarted.sound (first : FirstStarted l k s) (furnished : k.Furnished l entry) :
    ∃ c, s.Sound l (k.initial entry) c ∧ s.mode = .thread ∧ s.control = 2 ∧
      s.registers.pc = entry c ∧
      s.registers.psp = alignedTop (k.osTasks c).stackBase (k.osTasks c).stackSize := by
  obtain ⟨boot, schedules, thread, done⟩ := first
  obtain ⟨c, current, live⟩ := schedules.chosen
  have keeps := schedules.toKeepsContexts
  have all : ∀ t, boot.kernel.Live t → ∃ n, boot.kernel.Saved t (k.initial entry t) n := by
    intro t live
    obtain ⟨n, saved⟩ := furnished.saved t (keeps.live.mp live)
    exact ⟨n, saved.keepContexts keeps fun a _ => by rw [schedules.memory]⟩
  obtain ⟨n, saved⟩ := all c live
  have placed := keeps.placed furnished.placed
  obtain ⟨kernel, mode, control, pc, psp⟩ :=
    osStartFirstTask_starts placed live current saved done
  have unmasked : boot.kernel.KeepsContexts s.kernel := by
    rw [kernel]
    exact ⟨⟨rfl, fun _ => rfl, fun _ => rfl⟩, fun _ => rfl⟩
  refine ⟨c, ⟨unmasked.placed placed, ?current, unmasked.live.mpr live, ?others, ?going⟩,
    mode.trans thread, control, pc, psp⟩
  case current =>
    rw [kernel]
    exact current
  case others =>
    intro t live _
    obtain ⟨n, saved⟩ := all t (unmasked.live.mp live)
    exact ⟨n, saved.keepContexts unmasked fun a _ => by rw [kernel]⟩
  case going =>
    rw [mode, thread]
    trivial

end

/-- Every run of the tasks that `k` holds, from the start of the first one. -/
abbrev Switching (l : Layout) (k : Kernel) := Run (FirstStarted l k) (SwitchStep l)

abbrev SwitchLog := List (Transition Machine Moment)

namespace SwitchLog

/-- The registers that `t` had when it was last interrupted. -/
def interrupted (t : TaskId) : SwitchLog → Option Registers
  | [] => none
  | y :: past =>
    match y.event with
    | .enter _ =>
      if y.pre.kernel.currentTcb = some t then some y.pre.registers else interrupted t past
    | _ => interrupted t past

/-- Those that it goes on with: a task that was never interrupted has not run yet. -/
def owed (k : Kernel) (entry : TaskId → UInt32) (past : SwitchLog) (t : TaskId) : Registers :=
  (past.interrupted t).getD (k.initial entry t)

variable {l : Layout} {k : Kernel} {entry : TaskId → UInt32} {past : SwitchLog} {s s' : Machine}
  {m : Moment}

theorem owed_enter {mode : Mode} {c : TaskId} (current : s.kernel.currentTcb = some c) :
    owed k entry (⟨s, .enter mode, s'⟩ :: past) =
      Function.update (owed k entry past) c s.registers := by
  funext t
  by_cases same : t = c
  · subst same
    simp [owed, interrupted, current]
  · have other : c ≠ t := Ne.symm same
    simp [owed, interrupted, current, same, other]

/-- One step keeps the frames, and returns to a task the registers that it is owed. -/
theorem sound_step {c : TaskId} (sound : s.Sound l (owed k entry past) c)
    (step : SwitchStep l s m s') :
    ∃ d, s'.Sound l (owed k entry (⟨s, m, s'⟩ :: past)) d ∧
      (m = .leave ∨ m = .execute .bxLr →
        s'.mode = .thread ∧ s'.registers = owed k entry past d) := by
  cases step with
  | work g thread current keeps same own =>
    obtain rfl := Option.some.inj (sound.current.symm.trans current)
    exact ⟨c, sound.work thread keeps same own, by simp⟩
  | enter thread current pointer free inside exception =>
    obtain rfl := Option.some.inj (sound.current.symm.trans current)
    rw [owed_enter current]
    exact ⟨c, sound.enter pointer free inside exception, by simp⟩
  | handle handler handles callee => exact ⟨c, sound.handle handler handles callee, by simp⟩
  | chain handler => exact ⟨c, sound.chain handler, by simp⟩
  | leave handler =>
    obtain ⟨after, registers⟩ := sound.leave handler
    exact ⟨c, after, fun _ => ⟨rfl, registers⟩⟩
  | nested pendSv handles => exact ⟨c, sound.nested pendSv handles, by simp⟩
  | execute pendSv fetched done =>
    obtain ⟨after, back⟩ := sound.execute pendSv fetched done
    exact ⟨c, after, fun last => back (by simpa using last)⟩
  | schedule pendSv fetched schedules callee =>
    obtain ⟨d, after⟩ := sound.schedule pendSv fetched schedules
    exact ⟨d, after, by simp⟩

theorem sound (run : Switching l k past s) (furnished : k.Furnished l entry) :
    ∃ c, s.Sound l (owed k entry past) c := by
  induction run with
  | start first =>
    obtain ⟨c, sound, _⟩ := first.sound furnished
    exact ⟨c, sound⟩
  | next run step ih =>
    obtain ⟨c, sound⟩ := ih
    obtain ⟨d, after, _⟩ := sound_step sound step
    exact ⟨d, after⟩

end SwitchLog

end Sentinel
