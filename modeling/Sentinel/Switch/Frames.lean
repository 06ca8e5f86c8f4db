import Sentinel.Switch.Machine

/-! The frames from which tasks go on: where they are in the stack arrays, that the stacks do
not meet, and that `os_task_create` builds one for the first run. -/

namespace Sentinel

open Words (slot)

/-- The registers that a new task starts with. -/
def initialRegisters (taskptr stackTop : UInt32) : Registers where
  r i :=
    if i.val = 1 then 0x01010101 else if i.val = 2 then 0x02020202
    else if i.val = 3 then 0x03030303 else if i.val = 12 then 0x12121212 else 0
  lr := 0xFFFFFFFF
  pc := taskptr
  xpsr := 0x01000000
  psp := stackTop

/-- The end of a stack array, rounded down to a multiple of 8. -/
def alignedTop (stackBase stackWords : UInt32) : UInt32 := (stackBase + 4 * stackWords) &&& ~~~7

namespace Kernel

/-- The registers with which `t` starts, when `entry` says where its code begins. -/
def initial (k : Kernel) (entry : TaskId → UInt32) (t : TaskId) : Registers :=
  initialRegisters (entry t) (alignedTop (k.osTasks t).stackBase (k.osTasks t).stackSize)

/-- `t` goes on with `g` when it is switched in: its frame is on its stack, `stackPtr` at the
lower end of it, and there are free words between the frame and the canary. -/
structure Saved (k : Kernel) (t : TaskId) (g : Registers) (n : Nat) : Prop where
  free : 17 ≤ n
  inside : n ≤ (k.osTasks t).stackSize.toNat
  stackPtr : (k.osTasks t).stackPtr = slot (k.osTasks t).stackBase (n - 16)
  psp : g.psp = slot (k.osTasks t).stackBase n
  software : Words.load k.memory (slot (k.osTasks t).stackBase (n - 16)) 8 = g.software
  hardware : Words.load k.memory (slot (k.osTasks t).stackBase (n - 8)) 8 = g.hardware

/-- Of the frames at most that of `c`, and of the memory at most its stack, has been changed. -/
structure KeepsOthers (k : Kernel) (c : TaskId) (k' : Kernel) : Prop extends SameStacks k k' where
  stackPtr : ∀ t, t ≠ c → (k'.osTasks t).stackPtr = (k.osTasks t).stackPtr
  memory : ∀ a, ¬ k.InStack c a → k'.memory a = k.memory a

/-- The stack arrays fit the address space and meet neither each other nor the variables. -/
structure Placed (l : Layout) (k : Kernel) : Prop where
  fits : ∀ t, k.Live t → (k.osTasks t).stackSize.toNat ≤ 2 ^ 30
  clear : ∀ t, k.Live t → ∀ a, k.InStack t a → a ≠ l.currentTcb ∧ ∀ u, a ≠ l.osTasks u
  apart : ∀ t u, k.Live t → k.Live u → t ≠ u → ∀ a, k.InStack t a → ¬ k.InStack u a

end Kernel

/-- The kernel after tasks have been created, and where their code begins. The arrays handed
to `os_task_create` are word-aligned, do not wrap, and meet nothing that is there already.
In between, other variables can be initialised. -/
inductive Prepared (l : Layout) : Kernel → (TaskId → UInt32) → Prop
  | init {k : Kernel} (entry : TaskId → UInt32) (none : k.taskCount = 0) : Prepared l k entry
  | create {k k' : Kernel} {entry : TaskId → UInt32} {taskptr stackBase stackWords : UInt32}
      {priority : Nat} {t : TaskId} (before : Prepared l k entry)
      (created : k.osTaskCreate taskptr stackBase stackWords priority = (true, k'))
      (task : t.val = k.taskCount) (aligned : stackBase.toNat % 4 = 0)
      (fits : stackBase.toNat + 4 * stackWords.toNat ≤ 2 ^ 32)
      (clear : ∀ i < stackWords.toNat, slot stackBase i ≠ l.currentTcb ∧
        ∀ u, slot stackBase i ≠ l.osTasks u)
      (apart : ∀ i < stackWords.toNat, ∀ u, k.Live u → ¬ k.InStack u (slot stackBase i)) :
      Prepared l k' (Function.update entry t taskptr)
  | other {k k' : Kernel} {entry : TaskId → UInt32} (before : Prepared l k entry)
      (keeps : k.KeepsContexts k')
      (memory : ∀ u, k.Live u → ∀ a, k.InStack u a → k'.memory a = k.memory a) :
      Prepared l k' entry

namespace Kernel

variable {l : Layout} {k k' : Kernel} {t u : TaskId} {g : Registers} {n : Nat}

theorem SameStacks.live (keeps : k.SameStacks k') : k'.Live t ↔ k.Live t := by
  rw [Live, Live, keeps.taskCount]

theorem SameStacks.inStack (keeps : k.SameStacks k') {a : UInt32} :
    k'.InStack t a ↔ k.InStack t a := by
  rw [InStack, InStack, keeps.stackBase, keeps.stackSize]

theorem SameStacks.placed (keeps : k.SameStacks k') (placed : k.Placed l) : k'.Placed l where
  fits t live := by
    rw [keeps.stackSize]
    exact placed.fits t (keeps.live.mp live)
  clear t live a there := placed.clear t (keeps.live.mp live) a (keeps.inStack.mp there)
  apart t u live live' other a there :=
    mt keeps.inStack.mp (placed.apart t u (keeps.live.mp live) (keeps.live.mp live') other a
      (keeps.inStack.mp there))

theorem SameStacks.initial (keeps : k.SameStacks k') (entry : TaskId → UInt32) :
    k'.initial entry t = k.initial entry t := by
  rw [Kernel.initial, Kernel.initial, keeps.stackBase, keeps.stackSize]

/-- The words of a frame are in the stack. -/
theorem Saved.inStack (saved : k.Saved t g n) {i : Nat} (frame : i < 16) :
    k.InStack t (slot (slot (k.osTasks t).stackBase (n - 16)) i) := by
  refine ⟨n - 16 + i, ?_, Words.slot_slot _ _ _⟩
  have free := saved.free
  have inside := saved.inside
  omega

/-- A frame stays while nothing is written in its stack. -/
theorem Saved.keep (saved : k.Saved t g n)
    (pointer : (k'.osTasks t).stackPtr = (k.osTasks t).stackPtr)
    (base : (k'.osTasks t).stackBase = (k.osTasks t).stackBase)
    (size : (k'.osTasks t).stackSize = (k.osTasks t).stackSize)
    (same : ∀ a, k.InStack t a → k'.memory a = k.memory a) : k'.Saved t g n := by
  refine ⟨saved.free, ?inside, ?stackPtr, ?psp, ?software, ?hardware⟩
  case inside =>
    rw [size]
    exact saved.inside
  case stackPtr =>
    rw [pointer, base]
    exact saved.stackPtr
  case psp =>
    rw [base]
    exact saved.psp
  case software =>
    rw [base, ← saved.software]
    exact Words.load_congr fun i hi => same _ (saved.inStack (by omega))
  case hardware =>
    rw [base, ← saved.hardware]
    refine Words.load_congr fun i hi => same _ ?_
    have there := saved.inStack (i := 8 + i) (by omega)
    have free := saved.free
    rwa [Words.slot_slot, ← Nat.add_assoc, show n - 16 + 8 = n - 8 by omega, ← Words.slot_slot]
      at there

theorem Saved.keepContexts (saved : k.Saved t g n) (keeps : k.KeepsContexts k')
    (same : ∀ a, k.InStack t a → k'.memory a = k.memory a) : k'.Saved t g n :=
  saved.keep (keeps.stackPtr t) (keeps.stackBase t) (keeps.stackSize t) same

theorem Handles.keepsOthers (handles : k.Handles k') (c : TaskId) : k.KeepsOthers c k' :=
  ⟨handles.toSameStacks, fun t _ => handles.stackPtr t, fun a _ => by rw [handles.memory]⟩

/-- Words stored in the stack of `c`. -/
theorem keepsOthers_store {c : TaskId} {m : Nat} (ws : List UInt32)
    (inside : m + ws.length ≤ (k.osTasks c).stackSize.toNat) :
    k.KeepsOthers c { k with memory := Words.store k.memory (slot (k.osTasks c).stackBase m) ws } := by
  refine ⟨⟨rfl, fun _ => rfl, fun _ => rfl⟩, fun _ _ => rfl, fun a outside => ?_⟩
  apply Words.store_apart
  rintro i hi rfl
  rw [Words.slot_slot] at outside
  exact outside ⟨m + i, by omega, rfl⟩

theorem keepsOthers_setTcb {c : TaskId} (word : UInt32) :
    k.KeepsOthers c (k.setTcb c { k.osTasks c with stackPtr := word }) := by
  have other : ∀ t, t ≠ c →
      (k.setTcb c { k.osTasks c with stackPtr := word }).osTasks t = k.osTasks t := fun t differ =>
    Function.update_of_ne differ _ _
  refine ⟨⟨rfl, fun t => ?_, fun t => ?_⟩, fun t differ => by rw [other t differ], fun _ _ => rfl⟩
  · by_cases same : t = c
    · subst same
      simp
    · rw [other t same]
  · by_cases same : t = c
    · subst same
      simp
    · rw [other t same]

/-- What happens in the stack of another task leaves the frame alone. -/
theorem Saved.keepOthers {c : TaskId} (saved : k.Saved t g n) (keeps : k.KeepsOthers c k')
    (placed : k.Placed l) (live : k.Live t) (live' : k.Live c) (other : t ≠ c) :
    k'.Saved t g n :=
  saved.keep (keeps.stackPtr t other) (keeps.stackBase t) (keeps.stackSize t) fun a there =>
    keeps.memory a (placed.apart t c live live' other a there)

theorem Saved.base_inStack (saved : k.Saved t g n) : k.InStack t (k.osTasks t).stackBase := by
  have free := saved.free
  have inside := saved.inside
  exact ⟨0, by omega, (Words.slot_zero _).symm⟩

end Kernel

/-- The aligned top is the end of the array, or one word below it. -/
theorem alignedTop_slot {stackBase stackWords : UInt32} (aligned : stackBase.toNat % 4 = 0)
    (some : 0 < stackWords.toNat) (fits : stackWords.toNat ≤ 2 ^ 30) :
    ∃ n, alignedTop stackBase stackWords = slot stackBase n ∧ stackWords.toNat ≤ n + 1 ∧
      n ≤ stackWords.toNat := by
  have down := Words.toNat_alignDown (stackBase + 4 * stackWords)
  have sum : (stackBase + 4 * stackWords).toNat = (stackBase.toNat + 4 * stackWords.toNat) % 2 ^ 32 := by
    simp only [UInt32.toNat_add, UInt32.toNat_mul, UInt32.toNat_ofNat]
    omega
  have top : ∀ n, n ≤ 2 ^ 30 → (slot stackBase n).toNat = (stackBase.toNat + 4 * n) % 2 ^ 32 := by
    intro n le
    simp only [slot, UInt32.toNat_add, UInt32.toNat_mul, UInt32.toNat_ofNat, UInt32.toNat_ofNat']
    omega
  by_cases even : (stackBase.toNat + 4 * stackWords.toNat) % 8 = 0
  · refine ⟨stackWords.toNat, UInt32.toNat_inj.mp ?_, by omega, le_refl _⟩
    rw [alignedTop, down, sum, top _ fits]
    omega
  · refine ⟨stackWords.toNat - 1, UInt32.toNat_inj.mp ?_, by omega, by omega⟩
    rw [alignedTop, down, sum, top _ (by omega)]
    omega

namespace Kernel

variable {l : Layout} {k k' : Kernel} {t u : TaskId} {taskptr stackBase stackWords : UInt32}
  {priority : Nat} {entry : TaskId → UInt32}

/-- What `os_task_create` has done when it returns `true`. -/
structure CreatedBy (k : Kernel) (taskptr stackBase stackWords : UInt32) (t : TaskId)
    (k' : Kernel) : Prop where
  words : 64 ≤ stackWords.toNat
  taskCount : k'.taskCount = k.taskCount + 1
  base : (k'.osTasks t).stackBase = stackBase
  size : (k'.osTasks t).stackSize = stackWords
  pointer : (k'.osTasks t).stackPtr = alignedTop stackBase stackWords - 64
  memory : k'.memory = Words.store (Function.update k.memory stackBase stackCanary)
    (alignedTop stackBase stackWords - 64)
    ((initialRegisters taskptr (alignedTop stackBase stackWords)).software ++
      (initialRegisters taskptr (alignedTop stackBase stackWords)).hardware)
  others : ∀ u, u ≠ t → k'.osTasks u = k.osTasks u

theorem osTaskInitStack_frame (memory : UInt32 → UInt32) (taskptr stackTop : UInt32) :
    osTaskInitStack memory taskptr stackTop =
      (Words.store memory (stackTop - 64)
        ((initialRegisters taskptr stackTop).software ++
          (initialRegisters taskptr stackTop).hardware), stackTop - 64) := by
  have sixteen : (initialFrame taskptr).length = 16 := rfl
  have pushed := Words.foldl_push memory stackTop (initialFrame taskptr)
    (by rw [sixteen]; decide)
  rw [sixteen] at pushed
  exact pushed

theorem of_osTaskCreate (created : k.osTaskCreate taskptr stackBase stackWords priority = (true, k'))
    (task : t.val = k.taskCount) : k.CreatedBy taskptr stackBase stackWords t k' := by
  unfold osTaskCreate at created
  split at created
  · rename_i room
    split at created
    · cases created
    · rename_i valid
      have slot : (⟨k.taskCount, room⟩ : TaskId) = t := Fin.ext task.symm
      simp only [slot, osTaskInitStack_frame, Prod.mk.injEq, true_and] at created
      subst created
      constructor
      case words => exact UInt32.le_iff_toNat_le.mp (UInt32.not_lt.mp (not_or.mp valid).2)
      case taskCount => rfl
      case base => simp
      case size => simp
      case pointer => simp [alignedTop]
      case memory => simp only [alignedTop]
      case others =>
        intro u other
        simp [other]
  · cases created

namespace CreatedBy

theorem initial (by' : k.CreatedBy taskptr stackBase stackWords t k') :
    k'.initial (Function.update entry t taskptr) t =
      initialRegisters taskptr (alignedTop stackBase stackWords) := by
  rw [Kernel.initial, by'.base, by'.size, Function.update_self]

theorem bottom (by' : k.CreatedBy taskptr stackBase stackWords t k')
    (aligned : stackBase.toNat % 4 = 0) (fits : stackWords.toNat ≤ 2 ^ 30) :
    ∃ n, 17 ≤ n ∧ stackWords.toNat ≤ n + 1 ∧ n ≤ stackWords.toNat ∧
      alignedTop stackBase stackWords = slot stackBase n ∧
      alignedTop stackBase stackWords - 64 = slot stackBase (n - 16) := by
  have words := by'.words
  obtain ⟨n, top, close, inside⟩ := alignedTop_slot aligned (by omega) fits
  refine ⟨n, by omega, close, inside, top, ?_⟩
  rw [top]
  exact Words.slot_back stackBase (n := 16) (by omega)

/-- The new task has its frame, at the top of its stack. -/
theorem saved (by' : k.CreatedBy taskptr stackBase stackWords t k')
    (aligned : stackBase.toNat % 4 = 0) (fits : stackWords.toNat ≤ 2 ^ 30) :
    ∃ n, k'.Saved t (initialRegisters taskptr (alignedTop stackBase stackWords)) n := by
  obtain ⟨n, free, _, inside, top, bottom⟩ := by'.bottom aligned fits
  obtain ⟨software, hardware⟩ := Words.load_store_append
    (Function.update k.memory stackBase stackCanary) (slot stackBase (n - 16))
    (initialRegisters taskptr (alignedTop stackBase stackWords)).software
    (initialRegisters taskptr (alignedTop stackBase stackWords)).hardware
    (by simp [Registers.software, Registers.hardware])
  have upper : slot (slot stackBase (n - 16)) 8 = slot stackBase (n - 8) := by
    rw [Words.slot_slot, show n - 16 + 8 = n - 8 by omega]
  refine ⟨n, free, ?inside, ?stackPtr, ?psp, ?software, ?hardware⟩
  case inside => rwa [by'.size]
  case stackPtr => rw [by'.pointer, by'.base, bottom]
  case psp =>
    rw [by'.base, ← top]
    rfl
  case software =>
    rw [by'.memory, by'.base, bottom]
    exact software
  case hardware =>
    rw [by'.memory, by'.base, bottom, ← upper]
    exact hardware

/-- Only the array handed over is written. -/
theorem untouched (by' : k.CreatedBy taskptr stackBase stackWords t k')
    (aligned : stackBase.toNat % 4 = 0) (fits : stackWords.toNat ≤ 2 ^ 30) {a : UInt32}
    (outside : ∀ i < stackWords.toNat, a ≠ slot stackBase i) : k'.memory a = k.memory a := by
  obtain ⟨n, free, _, inside, _, bottom⟩ := by'.bottom aligned fits
  rw [by'.memory, bottom, Words.store_apart, Function.update_of_ne]
  · simpa using outside 0 (by omega)
  · intro i hi
    rw [Words.slot_slot]
    simp only [Registers.software, Registers.hardware, List.cons_append, List.nil_append,
      List.length_cons, List.length_nil] at hi
    exact outside _ (by omega)

/-- The canary is in the first word of the array. -/
theorem canary (by' : k.CreatedBy taskptr stackBase stackWords t k')
    (aligned : stackBase.toNat % 4 = 0) (fits : stackWords.toNat ≤ 2 ^ 30) :
    k'.memory stackBase = stackCanary := by
  obtain ⟨n, free, _, inside, _, bottom⟩ := by'.bottom aligned fits
  rw [by'.memory, bottom, Words.store_apart, Function.update_self]
  intro i hi same
  rw [Words.slot_slot] at same
  simp only [Registers.software, Registers.hardware, List.cons_append, List.nil_append,
    List.length_cons, List.length_nil] at hi
  have : 0 = n - 16 + i :=
    Words.slot_inj (by omega) (by omega) ((Words.slot_zero stackBase).trans same)
  omega

theorem live (by' : k.CreatedBy taskptr stackBase stackWords t k') (task : t.val = k.taskCount) :
    k'.Live u ↔ u = t ∨ k.Live u := by
  rw [Live, Live, by'.taskCount, Fin.ext_iff, task]
  omega

theorem inStack (by' : k.CreatedBy taskptr stackBase stackWords t k') {a : UInt32} :
    k'.InStack t a ↔ ∃ i < stackWords.toNat, a = slot stackBase i := by
  rw [InStack, by'.base, by'.size]

theorem inStack_other (by' : k.CreatedBy taskptr stackBase stackWords t k') (other : u ≠ t)
    {a : UInt32} : k'.InStack u a ↔ k.InStack u a := by
  rw [InStack, InStack, by'.others u other]

end CreatedBy

end Kernel

/-- Every task that has been created has a frame from which it starts, the canary is below
it, and the stacks are apart. -/
structure Kernel.Furnished (l : Layout) (k : Kernel) (entry : TaskId → UInt32) : Prop where
  placed : k.Placed l
  saved : ∀ t, k.Live t → ∃ n, k.Saved t (k.initial entry t) n
  canary : ∀ t, k.Live t → k.memory (k.osTasks t).stackBase = stackCanary

theorem Kernel.Furnished.create {l : Layout} {k k' : Kernel} {entry : TaskId → UInt32}
    {taskptr stackBase stackWords : UInt32} {t : TaskId} (ready : k.Furnished l entry)
    (by' : k.CreatedBy taskptr stackBase stackWords t k') (task : t.val = k.taskCount)
    (aligned : stackBase.toNat % 4 = 0) (fits : stackWords.toNat ≤ 2 ^ 30)
    (clear : ∀ i < stackWords.toNat, slot stackBase i ≠ l.currentTcb ∧
      ∀ u, slot stackBase i ≠ l.osTasks u)
    (apart : ∀ i < stackWords.toNat, ∀ u, k.Live u → ¬ k.InStack u (slot stackBase i)) :
    k'.Furnished l (Function.update entry t taskptr) := by
  have other : ∀ u, k.Live u → u ≠ t := by
    rintro u live rfl
    exact absurd task (Nat.ne_of_lt live)
  have untouched : ∀ u, k.Live u → ∀ a, k.InStack u a → k'.memory a = k.memory a := by
    intro u live a there
    apply by'.untouched aligned fits
    rintro i hi rfl
    exact apart i hi u live there
  constructor
  case placed =>
    constructor
    case fits =>
      intro u live
      rcases (by'.live task).mp live with rfl | live
      · rwa [by'.size]
      · rw [by'.others u (other u live)]
        exact ready.placed.fits u live
    case clear =>
      intro u live a there
      rcases (by'.live task).mp live with rfl | live
      · obtain ⟨i, hi, rfl⟩ := by'.inStack.mp there
        exact clear i hi
      · exact ready.placed.clear u live a ((by'.inStack_other (other u live)).mp there)
    case apart =>
      intro u v live live' differ a there there'
      rcases (by'.live task).mp live with rfl | live <;>
        rcases (by'.live task).mp live' with rfl | live'
      · exact differ rfl
      · obtain ⟨i, hi, rfl⟩ := by'.inStack.mp there
        exact apart i hi v live' ((by'.inStack_other (other v live')).mp there')
      · obtain ⟨i, hi, rfl⟩ := by'.inStack.mp there'
        exact apart i hi u live ((by'.inStack_other (other u live)).mp there)
      · exact ready.placed.apart u v live live' differ a
          ((by'.inStack_other (other u live)).mp there)
          ((by'.inStack_other (other v live')).mp there')
  case saved =>
    intro u live
    rcases (by'.live task).mp live with rfl | live
    · rw [by'.initial]
      exact by'.saved aligned fits
    · obtain ⟨n, saved⟩ := ready.saved u live
      have same := by'.others u (other u live)
      have start : k'.initial (Function.update entry t taskptr) u = k.initial entry u := by
        rw [Kernel.initial, Kernel.initial, same, Function.update_of_ne (other u live)]
      rw [start]
      exact ⟨n, saved.keep (by rw [same]) (by rw [same]) (by rw [same]) (untouched u live)⟩
  case canary =>
    intro u live
    rcases (by'.live task).mp live with rfl | live
    · rw [by'.base]
      exact by'.canary aligned fits
    · obtain ⟨n, saved⟩ := ready.saved u live
      rw [by'.others u (other u live), untouched u live _ saved.base_inStack]
      exact ready.canary u live

theorem Prepared.furnished {l : Layout} {k : Kernel} {entry : TaskId → UInt32}
    (prepared : Prepared l k entry) : k.Furnished l entry := by
  induction prepared with
  | @init k entry none =>
    have nobody : ∀ t, ¬ k.Live t := fun t live => by simp [Kernel.Live, none] at live
    exact ⟨⟨fun t live => absurd live (nobody t), fun t live => absurd live (nobody t),
      fun t _ live => absurd live (nobody t)⟩, fun t live => absurd live (nobody t),
      fun t live => absurd live (nobody t)⟩
  | create _ created task aligned fits clear apart ready =>
    exact ready.create (Kernel.of_osTaskCreate created task) task aligned (by omega) clear apart
  | @other k k' entry _ keeps memory ready =>
    refine ⟨keeps.placed ready.placed, fun t live => ?_, fun t live => ?_⟩
    · obtain ⟨n, saved⟩ := ready.saved t (keeps.live.mp live)
      rw [keeps.initial]
      exact ⟨n, saved.keepContexts keeps (memory t (keeps.live.mp live))⟩
    · obtain ⟨n, saved⟩ := ready.saved t (keeps.live.mp live)
      rw [keeps.stackBase, memory t (keeps.live.mp live) _ saved.base_inStack]
      exact ready.canary t (keeps.live.mp live)

end Sentinel
