import Sentinel.Interrupt.Handler
import Sentinel.Kernel.Refine

/-! What the arrays mean while the handler takes a task off a queue, and that its
statements and the harmless posts keep that meaning. -/

namespace Sentinel

open Runs (Transition Run)

namespace Kernel

/-- A post that finds a waiter, whose pointers lead to `o`. -/
theorem osSemaphoreRelease_wakes {k : Kernel} {x : Nat} {u : TaskId} {o : Waitable}
    (picked : k.posted x = some u) (queue : (k.osTasks u).waitQueue = some o)
    (count : (k.osTasks u).waitCount = some o) : k.osSemaphoreRelease x =
      { k.removeWaiter u o o with
        osTasks := Function.update k.osTasks u { k.osTasks u with
          waitQueue := none, waitCount := none, sleepTime := 0, waitResult := .success,
          state := .ready }
        pendSv := true } := by
  have picked' : pickWaiter { k with primask := true } (k.queues (.semaphore x)).waitQueue
      (k.queues (.semaphore x)).waitCount = some u := picked
  simp only [osSemaphoreRelease, osEnterCritical, picked', wakeTask, waitQueueRemove, queue, count]
  simp [removeWaiter, setTcb, osExitCritical, osYield, setQueue]

/-- A post that finds none. -/
theorem osSemaphoreRelease_counts {k : Kernel} {x : Nat} (nobody : k.posted x = none) :
    k.osSemaphoreRelease x = if (k.semaphores x).count < (k.semaphores x).maxCount then
      k.setSemaphore x { k.semaphores x with count := (k.semaphores x).count + 1 } else k := by
  have nobody' : pickWaiter { k with primask := true } (k.queues (.semaphore x)).waitQueue
      (k.queues (.semaphore x)).waitCount = none := nobody
  by_cases room : (k.semaphores x).count < (k.semaphores x).maxCount
  · rw [if_pos room]
    unfold osSemaphoreRelease
    simp only [osEnterCritical, nobody']
    exact (congrArg (osExitCritical k.primask) (if_pos room)).trans rfl
  · rw [if_neg room]
    unfold osSemaphoreRelease
    simp only [osEnterCritical, nobody']
    exact (congrArg (osExitCritical k.primask) (if_neg room)).trans rfl

theorem removeWaiter_cell (k : Kernel) (u : TaskId) (o p : Waitable) {c : Nat}
    (beyond : p = o → (k.waiters o).length ≤ c + 1) :
    ((k.removeWaiter u o o).queues p).waitQueue c = (k.queues p).waitQueue c := by
  by_cases here : p = o
  · subst here
    have beyond : 0 + (k.queues p).waitCount ≤ c + 1 := by simpa [waiters] using beyond rfl
    simpa [removeWaiter] using Cells.removeFirst_beyond u (k.queues p).waitQueue _ 0 _ beyond
  · simp [removeWaiter, here]

theorem waiters_length (k : Kernel) (o : Waitable) :
    (k.waiters o).length = (k.queues o).waitCount := Cells.contents_length _ _

theorem posted_mem {k : Kernel} {x : Nat} {u : TaskId} (picked : k.posted x = some u) :
    u ∈ k.waiters (.semaphore x) := by
  rw [posted, pickWaiter_first (fun _ => none)] at picked
  exact Board.mem_of_first picked

end Kernel

/-- The queues as the tasks in them see it: the task that is being removed counts until
the count has been lowered, the cell that the shift has yet to overwrite never. -/
abbrev Queues := Waitable → List TaskId

namespace Handler

/-- What may stand in the cell that the shift has yet to overwrite. -/
def Junk (k : Kernel) (A : List TaskId) (t x : TaskId) : Prop :=
  x = t ∨ x ∈ A ∨ (k.osTasks x).waitQueue = none

/-- The shift that takes `t` off `o` has done the cells `A` and not yet `B`. -/
structure Shifting (k : Kernel) (S : Queues) (t : TaskId) (o : Waitable) (A B : List TaskId) :
    Prop where
  member : t ∈ S o
  rest : (S o).erase t = A ++ B
  cells : ∃ x, k.waiters o = A ++ x :: B ∧ Junk k A t x
  others : ∀ p, p ≠ o → k.waiters p = S p

/-- How far the loops of the removal have come. -/
def Place (k : Kernel) (S : Queues) : Pc → Prop
  | .sleeping t | .countDown t | .waits t => k.waiters = S ∧ k.Live t
  | .guard t => k.waiters = S ∧ ∃ o, t ∈ S o
  | .search t i => k.waiters = S ∧ ∃ o A B, S o = A ++ t :: B ∧ i ≤ A.length
  | .compare t i => k.waiters = S ∧ ∃ o A B, S o = A ++ t :: B ∧
      (i ≤ A.length ∨ B = [] ∧ A.length ≤ i ∧ (k.queues o).waitQueue i = t)
  | .shift t j => ∃ o A B, Shifting k S t o A B ∧ (A.length = j ∨ B = [] ∧ A.length ≤ j)
  | .move t j => ∃ o A B, Shifting k S t o A B ∧ (A.length = j ∨ B = [] ∧ A.length ≤ j) ∧
      (B = [] → Junk k A t ((k.queues o).waitQueue (j + 1)))
  | .decrement t => ∃ o A, Shifting k S t o A []
  | .clearQueue t | .clearCount t | .result t => k.waiters = S ∧ ∀ o, t ∉ S o
  | .fault => False
  | _ => k.waiters = S

structure Shape (k : Kernel) (S : Queues) (pc : Pc) : Prop where
  distinct : ∀ o, (S o).Nodup
  linked : ∀ o u, u ∈ S o → (k.osTasks u).waitQueue = some o ∧ (k.osTasks u).waitCount = some o
  queued : ∀ u o, k.Live u → (k.osTasks u).waitQueue = some o → u ∈ S o ∨ pc = .clearQueue u
  place : Place k S pc

/-- The queues without `u`. -/
def without (S : Queues) (u : TaskId) : Queues := fun o => (S o).erase u

section
variable {k k' : Kernel} {S : Queues} {pc pc' : Pc} {t u : TaskId} {o : Waitable}

theorem Shape.on_one (shape : Shape k S pc) {p : Waitable} (here : u ∈ S o) (there : u ∈ S p) :
    o = p :=
  Option.some.inj ((shape.linked o u here).1.symm.trans (shape.linked p u there).1)

/-- Another task of which only fields other than the pointers change. -/
theorem Shape.reframe (shape : Shape k S pc) (count : k'.taskCount = k.taskCount)
    (same : ∀ u, (k'.osTasks u).waitQueue = (k.osTasks u).waitQueue ∧
      (k'.osTasks u).waitCount = (k.osTasks u).waitCount)
    (settled : ∀ u, pc ≠ .clearQueue u) (place : Place k' S pc') : Shape k' S pc' where
  distinct := shape.distinct
  linked o u hu := by
    rw [(same u).1, (same u).2]
    exact shape.linked o u hu
  queued u o live on := by
    rw [(same u).1] at on
    have live : k.Live u := by simpa only [Kernel.Live, count] using live
    exact .inl ((shape.queued u o live on).resolve_right (settled u))
  place := place

/-- The arrays of the others, and the count of the queue, as a shift sees them. -/
theorem Shifting.count {A B : List TaskId} (shifting : Shifting k S t o A B) :
    (k.queues o).waitCount = A.length + 1 + B.length := by
  obtain ⟨x, cells, _⟩ := shifting.cells
  have length := congrArg List.length cells
  simp only [Kernel.waiters, Cells.contents_length, List.length_append, List.length_cons] at length
  omega

theorem count_of_split {A B : List TaskId} (cells : k.waiters = S) (split : S o = A ++ t :: B) :
    (k.queues o).waitCount = A.length + 1 + B.length := by
  have length := congrArg List.length ((congrFun cells o).trans split)
  simp only [Kernel.waiters, Cells.contents_length, List.length_append, List.length_cons] at length
  omega

theorem fresh_of_split {A B : List TaskId} (distinct : (S o).Nodup) (split : S o = A ++ t :: B) :
    t ∉ A := by
  rw [split, List.nodup_append] at distinct
  intro there
  exact distinct.2.2 t there t List.mem_cons_self rfl

/-- Up to the place of `t` no other cell names it. -/
theorem found_iff {A B : List TaskId} {i : Nat} (distinct : (S o).Nodup) (cells : k.waiters = S)
    (split : S o = A ++ t :: B) (before : i ≤ A.length) :
    (k.queues o).waitQueue i = t ↔ A.length = i := by
  have whole := (congrFun cells o).trans split
  constructor
  · intro found
    apply le_antisymm _ before
    by_contra further
    have earlier : t ∈ A := found ▸ Cells.cell_mem_of_split whole (Nat.lt_of_not_le further)
    exact fresh_of_split distinct split earlier
  · rintro rfl
    exact Cells.cell_of_split whole

/-- The search has met `t`. -/
theorem Shifting.start (distinct : (S o).Nodup) (cells : k.waiters = S) {A B : List TaskId}
    (split : S o = A ++ t :: B) : Shifting k S t o A B where
  member := by simp [split]
  rest := by
    rw [split, List.erase_append_right _ (fresh_of_split distinct split), List.erase_cons_head]
  cells := ⟨t, (congrFun cells o).trans split, .inl rfl⟩
  others p _ := congrFun cells p

/-- `wait_queue[j] = wait_queue[j + 1]`. -/
theorem Shifting.copy {A B : List TaskId} {j : Nat} (shifting : Shifting k S t o A B)
    (here : A.length = j ∨ B = [] ∧ A.length ≤ j)
    (stale : B = [] → Junk k A t ((k.queues o).waitQueue (j + 1)))
    (k' : Kernel) (moved : k' = k.setQueue o { k.queues o with
      waitQueue := Function.update (k.queues o).waitQueue j ((k.queues o).waitQueue (j + 1)) }) :
    ∃ A' B', Shifting k' S t o A' B' ∧ (A'.length = j + 1 ∨ B' = [] ∧ A'.length ≤ j + 1) := by
  obtain ⟨x, cells, junk⟩ := shifting.cells
  have after : k'.waiters o = (A ++ x :: B).set j ((k.queues o).waitQueue (j + 1)) := by
    rw [← cells, moved]
    simpa [Kernel.waiters] using Cells.contents_set (k.queues o).waitQueue _ j _
  have others : ∀ p, p ≠ o → k'.waiters p = S p := fun p other => by
    rw [← shifting.others p other, moved]
    simp [Kernel.waiters, other]
  have tasks : k'.osTasks = k.osTasks := by rw [moved]; rfl
  cases B with
  | nil =>
    have short : A.length ≤ j := here.elim (fun full => full.le) fun empty => empty.2
    refine ⟨A, [], ⟨shifting.member, shifting.rest, ?_, others⟩, .inr ⟨rfl, by omega⟩⟩
    rcases short.eq_or_lt with rfl | short
    · refine ⟨(k.queues o).waitQueue (A.length + 1), ?_, by simpa only [Junk, tasks] using stale rfl⟩
      rw [after, List.set_append_right _ _ le_rfl]
      simp
    · refine ⟨x, ?_, by simpa only [Junk, tasks] using junk⟩
      rw [after]
      exact List.set_eq_of_length_le (by simpa using Nat.succ_le_of_lt short)
  | cons b B =>
    have full : A.length = j := here.resolve_right fun empty => by cases empty.1
    subst full
    have next : (k.queues o).waitQueue (A.length + 1) = b := by
      have split : Cells.contents (k.queues o).waitQueue (k.queues o).waitCount = (A ++ [x]) ++ b :: B := by
        simpa [Kernel.waiters] using cells
      simpa using Cells.cell_of_split split
    refine ⟨A ++ [b], B, ⟨shifting.member, by simp [shifting.rest], ⟨b, ?_, .inr (.inl (by simp))⟩,
      others⟩, .inl (by simp)⟩
    rw [after, next, List.set_append_right _ _ le_rfl]
    simp

/-- `(*task->wait_count)--` ends the removal. -/
theorem Shifting.finish {A : List TaskId} (shape : Shape k S pc)
    (shifting : Shifting k S t o A []) (k' : Kernel)
    (lowered : k' = k.setQueue o { k.queues o with
      waitCount := ((k.queues o).waitCount + 255) % 256 }) : k'.waiters = without S t := by
  obtain ⟨x, cells, _⟩ := shifting.cells
  have rest : (S o).erase t = A := by simpa using shifting.rest
  -- a byte holds the count, which is at most the number of tasks
  have small : A.length ≤ maxTasks := by
    have nodup : A.Nodup := rest ▸ (shape.distinct o).erase t
    simpa using nodup.length_le_card
  have count : (k.queues o).waitCount = A.length + 1 := shifting.count
  have less : ((k.queues o).waitCount + 255) % 256 = (k.queues o).waitCount - 1 := by
    simp only [maxTasks] at small
    omega
  funext p
  by_cases here : p = o
  · subst here
    have left : k'.waiters p = A := by
      rw [lowered, less]
      simpa [Kernel.waiters] using Cells.contents_pred cells
    rw [left, without, rest]
  · have fresh : t ∉ S p := fun there => here (shape.on_one there shifting.member)
    rw [without, List.erase_of_not_mem fresh, ← shifting.others p here, lowered]
    simp [Kernel.waiters, here]

/-- What a statement does to the meaning of the queues. -/
def afterStatement (S : Queues) : Pc → Queues
  | .decrement t => without S t
  | _ => S

theorem edit_shape (shape : Shape k S pc) (settled : ∀ u, pc ≠ .clearQueue u) (f : Tcb → Tcb)
    (same : ∀ x, (f x).waitQueue = x.waitQueue ∧ (f x).waitCount = x.waitCount)
    (place : Place (k.setTcb t (f (k.osTasks t))) S pc') :
    Shape (k.setTcb t (f (k.osTasks t))) S pc' := by
  refine shape.reframe rfl (fun u => ?_) settled place
  by_cases self : u = t
  · subst self
    simpa using same (k.osTasks u)
  · simp [self]

/-- The pointers of a task that is on no queue any more. -/
theorem unlink_shape (shape : Shape k S pc) (gone : ∀ o, t ∉ S o)
    (settled : ∀ u, u ≠ t → pc ≠ .clearQueue u) (f : Tcb → Tcb)
    (off : (f (k.osTasks t)).waitQueue = none ∨
      pc ≠ .clearQueue t ∧ (f (k.osTasks t)).waitQueue = (k.osTasks t).waitQueue)
    (place : Place (k.setTcb t (f (k.osTasks t))) S pc') :
    Shape (k.setTcb t (f (k.osTasks t))) S pc' := by
  refine ⟨shape.distinct, fun o u hu => ?_, fun u o live on => ?_, place⟩
  · have other : u ≠ t := fun self => gone o (self ▸ hu)
    simpa [other] using shape.linked o u hu
  · by_cases self : u = t
    · subst self
      simp only [Kernel.setTcb_osTasks, Function.update_self] at on
      rcases off with none | ⟨settled, same⟩
      · cases none.symm.trans on
      · exact absurd ((shape.queued u o live (same ▸ on)).resolve_right settled) (gone o)
    · simp only [Kernel.setTcb_osTasks, Function.update_of_ne self] at on
      exact .inl ((shape.queued u o live on).resolve_right (settled u self))

theorem Shape.statement (shape : Shape k S pc) {s : Handler}
    (step : Handler.statement ⟨k, pc⟩ = some s) : Shape s.kernel (afterStatement S pc) s.pc := by
  have place := shape.place
  have move : ∀ {pc'}, (∀ u, pc ≠ .clearQueue u) → Place k S pc' → Shape k S pc' :=
    fun settled place => shape.reframe rfl (fun _ => ⟨rfl, rfl⟩) settled place
  cases pc with
  | enter =>
    obtain rfl := Option.some.inj step
    exact shape.reframe rfl (fun _ => ⟨rfl, rfl⟩) (by simp) place
  | next i =>
    simp only [statement] at step
    split at step <;> obtain rfl := Option.some.inj step
    · rename_i live
      exact move (by simp) ⟨place, live⟩
    · exact move (by simp) place
  | sleeping t =>
    simp only [statement] at step
    split at step <;> obtain rfl := Option.some.inj step
    · exact move (by simp) place.1
    · exact move (by simp) place
  | countDown t =>
    obtain rfl := Option.some.inj step
    refine edit_shape shape (by simp) (fun x => { x with sleepTime := x.sleepTime - 1 })
      (fun _ => ⟨rfl, rfl⟩) ?_
    split
    · exact place
    · exact place.1
  | waits t =>
    simp only [statement] at step
    split at step <;> obtain rfl := Option.some.inj step
    · rename_i on
      obtain ⟨o, on⟩ := Option.ne_none_iff_exists'.mp on
      exact move (by simp) ⟨place.1, o, (shape.queued t o place.2 on).resolve_right (by simp)⟩
    · exact move (by simp) place.1
  | guard t =>
    obtain ⟨cells, o, member⟩ := place
    obtain ⟨queue, count⟩ := shape.linked o t member
    simp only [statement, queue, count, reduceCtorEq, or_self, if_false] at step
    obtain rfl := Option.some.inj step
    obtain ⟨A, B, split⟩ := List.append_of_mem member
    exact move (by simp) ⟨cells, o, A, B, split, Nat.zero_le _⟩
  | search t i =>
    obtain ⟨cells, o, A, B, split, before⟩ := place
    have count := count_of_split cells split
    simp only [statement, (shape.linked o t (by simp [split])).2,
      show i < (k.queues o).waitCount by omega, if_true] at step
    obtain rfl := Option.some.inj step
    exact move (by simp) ⟨cells, o, A, B, split, .inl before⟩
  | compare t i =>
    obtain ⟨cells, o, A, B, split, where'⟩ := place
    have start := Shifting.start (shape.distinct o) cells split
    simp only [statement, (shape.linked o t (by simp [split])).1] at step
    split at step <;> obtain rfl := Option.some.inj step
    · rename_i found
      refine move (by simp) ⟨o, A, B, start, ?_⟩
      rcases where' with before | ⟨empty, short, _⟩
      · exact .inl ((found_iff (shape.distinct o) cells split before).mp found)
      · exact .inr ⟨empty, short⟩
    · rename_i other
      refine move (by simp) ⟨cells, o, A, B, split, ?_⟩
      rcases where' with before | ⟨_, _, stale⟩
      · have past := mt (found_iff (shape.distinct o) cells split before).mpr other
        exact lt_of_le_of_ne before (Ne.symm past)
      · exact absurd stale other
  | shift t j =>
    obtain ⟨o, A, B, shifting, here⟩ := place
    have count := shifting.count
    simp only [statement, (shape.linked o t shifting.member).2] at step
    split at step <;> obtain rfl := Option.some.inj step
    · refine move (by simp) ⟨o, A, B, shifting, here, ?_⟩
      rintro rfl
      simp only [List.length_nil] at count
      rcases here with here | ⟨_, short⟩ <;> omega
    · have empty : B = [] := by
        rcases here with here | ⟨empty, _⟩
        · exact List.eq_nil_of_length_eq_zero (by omega)
        · exact empty
      subst empty
      exact move (by simp) ⟨o, A, shifting⟩
  | move t j =>
    obtain ⟨o, A, B, shifting, here, stale⟩ := place
    simp only [statement, (shape.linked o t shifting.member).1] at step
    obtain rfl := Option.some.inj step
    obtain ⟨A', B', shifting', here'⟩ := shifting.copy here stale _ rfl
    exact shape.reframe rfl (fun _ => ⟨rfl, rfl⟩) (by simp) ⟨o, A', B', shifting', here'⟩
  | decrement t =>
    obtain ⟨o, A, shifting⟩ := place
    simp only [statement, (shape.linked o t shifting.member).2] at step
    obtain rfl := Option.some.inj step
    have cells := shifting.finish shape _ rfl
    have gone : ∀ p, t ∉ without S t p := fun p => (shape.distinct p).not_mem_erase
    refine ⟨fun p => (shape.distinct p).erase t, fun p u hu => shape.linked p u (List.mem_of_mem_erase hu),
      fun u p live on => ?_, cells, gone⟩
    have there := (shape.queued u p live on).resolve_right (by simp)
    by_cases self : u = t
    · exact .inr (by rw [self])
    · exact .inl ((List.mem_erase_of_ne self).mpr there)
  | clearQueue t =>
    obtain rfl := Option.some.inj step
    exact unlink_shape shape place.2 (by simp [eq_comm]) (fun x => { x with waitQueue := none })
      (.inl rfl) place
  | clearCount t =>
    obtain rfl := Option.some.inj step
    exact unlink_shape shape place.2 (by simp) (fun x => { x with waitCount := none })
      (.inr ⟨by simp, rfl⟩) place
  | result t =>
    obtain rfl := Option.some.inj step
    exact edit_shape shape (by simp) (fun x => { x with waitResult := .timeout })
      (fun _ => ⟨rfl, rfl⟩) place.1
  | wake t =>
    obtain rfl := Option.some.inj step
    exact edit_shape shape (by simp) (fun x => { x with state := .ready })
      (fun _ => ⟨rfl, rfl⟩) place
  | yield =>
    obtain rfl := Option.some.inj step
    exact shape.reframe rfl (fun _ => ⟨rfl, rfl⟩) (by simp) place
  | finished => cases step
  | fault => exact place.elim

/-! ### Posts -/

theorem Shifting.setSemaphore {A B : List TaskId} (shifting : Shifting k S t o A B) (x : Nat)
    (y : OsSemaphore) : Shifting (k.setSemaphore x y) S t o A B :=
  ⟨shifting.member, shifting.rest, shifting.cells, shifting.others⟩

/-- A count says nothing about the queues. -/
theorem Shape.setSemaphore (shape : Shape k S pc) (x : Nat) (y : OsSemaphore) :
    Shape (k.setSemaphore x y) S pc := by
  refine ⟨shape.distinct, shape.linked, shape.queued, ?_⟩
  have place := shape.place
  cases pc with
  | shift | move =>
    obtain ⟨o, A, B, shifting, rest⟩ := place
    exact ⟨o, A, B, shifting.setSemaphore x y, rest⟩
  | decrement =>
    obtain ⟨o, A, shifting⟩ := place
    exact ⟨o, A, shifting.setSemaphore x y⟩
  | enter | next | sleeping | countDown | waits | guard | search | compare | clearQueue
    | clearCount | result | wake | yield | finished | fault => exact place

/-- What a post does to the kernel that it wakes `u` in. -/
structure Woke (k : Kernel) (u : TaskId) (o : Waitable) (k' : Kernel) : Prop where
  count : k'.taskCount = k.taskCount
  others : ∀ v, v ≠ u → k'.osTasks v = k.osTasks v
  off : (k'.osTasks u).waitQueue = none
  result : (k'.osTasks u).waitResult = .success
  timer : (k'.osTasks u).sleepTime = 0
  semaphores : k'.semaphores = k.semaphores
  waiters : k'.waiters = Function.update k.waiters o ((k.waiters o).erase u)
  cell : ∀ p c, (p = o → (k.waiters o).length ≤ c + 1) →
    (k'.queues p).waitQueue c = (k.queues p).waitQueue c

theorem Woke.of_post {x : Nat} (picked : k.posted x = some u)
    (queue : (k.osTasks u).waitQueue = some o) (count : (k.osTasks u).waitCount = some o) :
    Woke k u o (k.osSemaphoreRelease x) := by
  rw [Kernel.osSemaphoreRelease_wakes picked queue count]
  exact ⟨rfl, fun v other => Function.update_of_ne other _ _, by simp, by simp, by simp, rfl,
    Kernel.removeWaiter_waiters k u o, fun p c beyond => Kernel.removeWaiter_cell k u o p beyond⟩

/-- The meaning changes as the array does when the array is what is meant. -/
theorem Woke.cells (woke : Woke k u o k') (shape : Shape k S pc) (member : u ∈ S o)
    (cells : k.waiters = S) : k'.waiters = without S u := by
  rw [woke.waiters, cells]
  funext p
  by_cases here : p = o
  · subst here
    simp [without]
  · have fresh : u ∉ S p := fun there => here (shape.on_one there member)
    simp [without, here, List.erase_of_not_mem fresh]

theorem Woke.junk (woke : Woke k u o k') {A : List TaskId} {y : TaskId} (junk : Junk k A t y) :
    Junk k' (A.erase u) t y := by
  by_cases self : y = u
  · exact .inr (.inr (self ▸ woke.off))
  · refine junk.imp id (Or.imp (fun there => (List.mem_erase_of_ne self).mpr there) fun none => ?_)
    rw [woke.others y self]
    exact none

/-- The task that a harmless post wakes during a shift of its own queue. -/
theorem Shifting.picked {A B : List TaskId} (shifting : Shifting k S t o A B) (queued : u ∈ k.waiters o)
    (other : u ≠ t) (on : (k.osTasks u).waitQueue ≠ none) :
    u ∈ A ++ B ∧ ∀ x, k.waiters o = A ++ x :: B → Junk k A t x → x = u → u ∈ A := by
  have status : ∀ x, Junk k A t x → x = u → u ∈ A := by
    rintro x (same | there | off) rfl
    · exact absurd same other
    · exact there
    · exact absurd off on
  obtain ⟨x, cells, junk⟩ := shifting.cells
  refine ⟨?_, fun x _ => status x⟩
  rw [cells, List.mem_append, List.mem_cons] at queued
  rw [List.mem_append]
  rcases queued with before | same | after
  · exact .inl before
  · exact .inl (status x junk same.symm)
  · exact .inr after

/-- Such a post takes its task out of the done or of the remaining part. -/
theorem Shifting.woke {A B : List TaskId} {j : Nat} (shifting : Shifting k S t o A B)
    (shape : Shape k S pc) (woke : Woke k u o k') (queued : u ∈ k.waiters o) (other : u ≠ t)
    (on : (k.osTasks u).waitQueue ≠ none) (here : A.length = j ∨ B = [] ∧ A.length ≤ j)
    (harmless : ¬ (j + 1 < (k.queues o).waitCount ∧ (k.waiters o).idxOf u ≤ j)) :
    ∃ A' B', Shifting k' (without S u) t o A' B' ∧ (A'.length = j ∨ B' = [] ∧ A'.length ≤ j) ∧
      (B = [] ∧ A' = A.erase u ∧ B' = [] ∨ A' = A ∧ u ∈ B ∧ B' = B.erase u) := by
  obtain ⟨x, cells, junk⟩ := shifting.cells
  obtain ⟨there, status⟩ := shifting.picked queued other on
  have count := shifting.count
  have after : k'.waiters o = (A ++ x :: B).erase u := by rw [woke.waiters, Function.update_self, cells]
  have member : t ∈ without S u o := (List.mem_erase_of_ne other.symm).mpr shifting.member
  have rest : (without S u o).erase t = (A ++ B).erase u := by
    rw [without, List.erase_comm, shifting.rest]
  have others : ∀ p, p ≠ o → k'.waiters p = without S u p := fun p ne => by
    have fresh : u ∉ S p := fun elsewhere => by
      have inO : u ∈ S o := List.mem_of_mem_erase (shifting.rest ▸ there)
      exact ne (shape.on_one elsewhere inO)
    rw [woke.waiters, Function.update_of_ne ne, shifting.others p ne, without,
      List.erase_of_not_mem fresh]
  by_cases done : u ∈ A
  · have empty : B = [] := by
      by_contra more
      have full : A.length = j := here.resolve_right fun h => more h.1
      have := List.length_pos_iff.mpr more
      refine harmless ⟨by omega, ?_⟩
      rw [cells, List.idxOf_append_of_mem done]
      exact full ▸ (List.idxOf_lt_length_iff.mpr done).le
    subst empty
    refine ⟨A.erase u, [], ⟨member, ?_, ⟨x, ?_, woke.junk junk⟩, others⟩, .inr ⟨rfl, ?_⟩,
      .inl ⟨rfl, rfl, rfl⟩⟩
    · rw [rest, List.append_nil, List.append_nil]
    · rw [after, List.erase_append_left _ done]
    · have short : A.length ≤ j := here.elim (fun full => full.le) fun empty => empty.2
      exact (List.length_erase_le).trans short
  · have later : u ∈ B := (List.mem_append.mp there).resolve_left done
    have ne : x ≠ u := fun same => done (status x cells junk same)
    have full : A.length = j := here.resolve_right fun h => by simp [h.1] at later
    refine ⟨A, B.erase u, ⟨member, ?_, ⟨x, ?_, ?_⟩, others⟩, .inl full, .inr ⟨rfl, later, rfl⟩⟩
    · rw [rest, List.erase_append_right _ done]
    · rw [after, List.erase_append_right _ done, List.erase_cons_tail (by simpa using ne)]
    · rw [← List.erase_of_not_mem done]
      exact woke.junk junk

/-- A harmless post wakes a task that is meant to be waiting. -/
theorem Shape.picked (shape : Shape k S pc) {x : Nat} (harmless : Harmless ⟨k, pc⟩ x)
    (picked : k.posted x = some u) : u ∈ S (.semaphore x) := by
  have queued := Kernel.posted_mem picked
  have harmless := harmless u picked
  have shifted : ∀ {t o A B}, Shifting k S t o A B →
      ((k.osTasks t).waitQueue = some (.semaphore x) → u ≠ t ∧ (k.osTasks u).waitQueue ≠ none) →
      u ∈ S (.semaphore x) := by
    intro t o A B shifting safe
    by_cases here : o = .semaphore x
    · subst here
      obtain ⟨other, on⟩ := safe (shape.linked _ t shifting.member).1
      exact List.mem_of_mem_erase (shifting.rest ▸ (shifting.picked queued other on).1)
    · exact shifting.others _ (Ne.symm here) ▸ queued
  have place := shape.place
  cases pc with
  | enter | next | wake | yield | finished => exact congrFun place _ ▸ queued
  | sleeping | countDown | waits | guard | search | compare | clearQueue | clearCount | result =>
    exact congrFun place.1 _ ▸ queued
  | shift t j | move t j =>
    obtain ⟨o, A, B, shifting, _⟩ := place
    exact shifted shifting fun removes => ⟨(harmless removes).1, (harmless removes).2.1⟩
  | decrement t =>
    obtain ⟨o, A, shifting⟩ := place
    exact shifted shifting harmless
  | fault => exact place.elim

/-- The parts of a queue around `t` after a post has taken `u` out. -/
theorem split_erase {A B : List TaskId} (split : S o = A ++ t :: B) (other : u ≠ t) :
    u ∈ A ∧ without S u o = A.erase u ++ t :: B ∧ (A.erase u).length + 1 = A.length ∨
      u ∉ A ∧ without S u o = A ++ t :: B.erase u := by
  by_cases before : u ∈ A
  · refine .inl ⟨before, by rw [without, split, List.erase_append_left _ before], ?_⟩
    rw [List.length_erase_of_mem before]
    have := List.length_pos_of_mem before
    omega
  · refine .inr ⟨before, ?_⟩
    rw [without, split, List.erase_append_right _ before, List.erase_cons_tail (by simpa using other.symm)]

theorem place_of_split {x : Nat} {A B : List TaskId} (cells : k.waiters = S)
    (distinct : (S (.semaphore x)).Nodup) (split : S (.semaphore x) = A ++ t :: B) :
    k.place x t = A.length ∧ ∀ u ∈ A, k.place x u < A.length := by
  have fresh := fresh_of_split distinct split
  simp only [Kernel.place, cells, split]
  constructor
  · rw [List.idxOf_append_of_notMem fresh, List.idxOf_cons_self, Nat.add_zero]
  · intro u there
    rw [List.idxOf_append_of_mem there]
    exact List.idxOf_lt_length_iff.mpr there

/-- A shift on another queue than that of the woken task. -/
theorem Shifting.elsewhere {A B : List TaskId} {p : Waitable} (shifting : Shifting k S t o A B)
    (shape : Shape k S pc) (woke : Woke k u p k') (member : u ∈ S p) (other : o ≠ p) :
    Shifting k' (without S u) t o A B ∧ ∀ y, Junk k A t y → Junk k' A t y := by
  have fresh : ∀ q, q ≠ p → u ∉ S q := fun q ne there => ne (shape.on_one there member)
  have same : without S u o = S o := List.erase_of_not_mem (fresh o other)
  have junk : ∀ y, Junk k A t y → Junk k' A t y := fun y junk => by
    have notDone : u ∉ A := fun there => fresh o other (List.mem_of_mem_erase
      (shifting.rest ▸ List.mem_append_left B there))
    rw [← List.erase_of_not_mem notDone]
    exact woke.junk junk
  refine ⟨⟨by rw [same]; exact shifting.member, by rw [same]; exact shifting.rest, ?_, ?_⟩, junk⟩
  · obtain ⟨y, cells, old⟩ := shifting.cells
    exact ⟨y, by rw [woke.waiters, Function.update_of_ne other, cells], junk y old⟩
  · intro q ne
    rw [woke.waiters]
    by_cases here : q = p
    · subst here
      rw [Function.update_self, shifting.others q ne, without]
    · rw [Function.update_of_ne here, shifting.others q ne, without,
        List.erase_of_not_mem (fresh q here)]

section
variable {x : Nat} {i j : Nat}

/-- A task on another queue than that of the woken one is another task. -/
theorem Shape.apart (shape : Shape k S pc) (member : u ∈ S (.semaphore x)) (there : t ∈ S o)
    (other : o ≠ .semaphore x) : u ≠ t := by
  rintro rfl
  exact other (shape.on_one there member)

theorem Shape.elsewhere (shape : Shape k S pc) (member : u ∈ S (.semaphore x))
    (other : o ≠ .semaphore x) : without S u o = S o := by
  apply List.erase_of_not_mem
  intro there
  exact other (shape.on_one there member)

theorem stays (there : t ∈ S o) (other : u ≠ t) : t ∈ without S u o :=
  (List.mem_erase_of_ne other.symm).mpr there

theorem Shape.post_search (shape : Shape k S (.search t i)) (woke : Woke k u (.semaphore x) k')
    (member : u ∈ S (.semaphore x)) (safe : Safe k x u (.search t i)) :
    Place k' (without S u) (.search t i) := by
  obtain ⟨cells, o, A, B, split, before⟩ := shape.place
  refine ⟨woke.cells shape member cells, o, ?_⟩
  by_cases here : o = .semaphore x
  · subst here
    obtain ⟨other, clear⟩ := safe (shape.linked _ t (by simp [split])).1
    obtain ⟨placeT, placeU⟩ := place_of_split cells (shape.distinct _) split
    rcases split_erase split other with ⟨done, split', short⟩ | ⟨_, split'⟩
    · have passed : A.length ≠ i := fun full => clear ⟨full ▸ placeU u done, full ▸ placeT⟩
      exact ⟨_, _, split', by omega⟩
    · exact ⟨_, _, split', before⟩
  · exact ⟨A, B, (shape.elsewhere member here).trans split, before⟩

theorem Shape.post_compare (shape : Shape k S (.compare t i)) (woke : Woke k u (.semaphore x) k')
    (member : u ∈ S (.semaphore x)) (safe : Safe k x u (.compare t i)) :
    Place k' (without S u) (.compare t i) := by
  obtain ⟨cells, o, A, B, split, where'⟩ := shape.place
  refine ⟨woke.cells shape member cells, o, ?_⟩
  have count := count_of_split cells split
  by_cases here : o = .semaphore x
  · subst here
    obtain ⟨other, clear⟩ := safe (shape.linked _ t (by simp [split])).1
    obtain ⟨placeT, placeU⟩ := place_of_split cells (shape.distinct _) split
    -- the post does not write the cell that the comparison looks at past the last one
    have stale : B = [] → A.length ≤ i →
        (k'.queues (.semaphore x)).waitQueue i = (k.queues (.semaphore x)).waitQueue i := by
      rintro rfl short
      apply woke.cell
      intro _
      rw [Kernel.waiters_length, count]
      simpa using short
    rcases split_erase split other with ⟨done, split', short⟩ | ⟨_, split'⟩
    · refine ⟨_, _, split', ?_⟩
      rcases where' with before | ⟨empty, past, found⟩
      · rcases before.eq_or_lt with here | further
        · have empty : B = [] := by
            by_contra more
            have := List.length_pos_iff.mpr more
            exact clear ⟨here ▸ placeU u done, here ▸ placeT, by rw [count]; omega⟩
          refine .inr ⟨empty, by omega, (stale empty here.ge).trans ?_⟩
          rw [here]
          exact Cells.cell_of_split ((congrFun cells _).trans split)
        · exact .inl (by omega)
      · exact .inr ⟨empty, by omega, (stale empty past).trans found⟩
    · refine ⟨_, _, split', where'.imp_right ?_⟩
      rintro ⟨empty, past, found⟩
      exact ⟨by simp [empty], past, (stale empty past).trans found⟩
  · refine ⟨A, B, (shape.elsewhere member here).trans split, where'.imp_right ?_⟩
    rintro ⟨empty, past, found⟩
    exact ⟨empty, past, (woke.cell o i fun same => absurd same here).trans found⟩

/-- What the next move copies, when the woken task was in the part that is not moved yet. -/
theorem Shifting.last {A B : List TaskId} (shifting : Shifting k S t o A B)
    (full : A.length = j ∨ B = [] ∧ A.length ≤ j) (later : u ∈ B) (only : B.erase u = []) :
    B = [u] ∧ (k.queues o).waitQueue (j + 1) = u := by
  have single : B = [u] := by
    have less := List.length_erase_of_mem later
    have some := List.length_pos_of_mem later
    rw [only, List.length_nil] at less
    obtain ⟨b, rfl⟩ := List.length_eq_one_iff.mp (show B.length = 1 by omega)
    rw [List.mem_singleton.mp later]
  subst single
  refine ⟨rfl, ?_⟩
  obtain ⟨y, cells, _⟩ := shifting.cells
  obtain rfl : A.length = j := full.resolve_right fun empty => by cases empty.1
  have split : Cells.contents (k.queues o).waitQueue (k.queues o).waitCount =
      (A ++ [y]) ++ u :: [] := by simpa [Kernel.waiters] using cells
  simpa using Cells.cell_of_split split

theorem Shape.post_move (shape : Shape k S (.move t j)) (woke : Woke k u (.semaphore x) k')
    (queued : u ∈ k.waiters (.semaphore x)) (member : u ∈ S (.semaphore x))
    (safe : Safe k x u (.move t j)) : Place k' (without S u) (.move t j) := by
  obtain ⟨o, A, B, shifting, full, stale⟩ := shape.place
  by_cases here : o = .semaphore x
  · subst here
    obtain ⟨other, on, clear⟩ := safe (shape.linked _ t shifting.member).1
    obtain ⟨A', B', shifting', full', parts⟩ :=
      shifting.woke shape woke queued other on full clear
    have short : A.length ≤ j := full.elim (fun full => full.le) fun empty => empty.2
    have kept : B.length ≤ 1 → (k'.queues (.semaphore x)).waitQueue (j + 1) =
        (k.queues (.semaphore x)).waitQueue (j + 1) := by
      intro few
      apply woke.cell
      intro _
      rw [Kernel.waiters_length, shifting.count]
      omega
    refine ⟨_, A', B', shifting', full', ?_⟩
    rcases parts with ⟨rfl, rfl, rfl⟩ | ⟨rfl, later, rfl⟩
    · intro _
      rw [kept (by simp)]
      exact woke.junk (stale rfl)
    · -- the woken task was the only one left to move, and its cell still names it
      intro empty
      obtain ⟨rfl, cell⟩ := shifting.last full later empty
      rw [kept (by simp), cell]
      exact .inr (.inr woke.off)
  · obtain ⟨shifting', junk⟩ := shifting.elsewhere shape woke member here
    refine ⟨o, A, B, shifting', full, ?_⟩
    intro empty
    rw [woke.cell o (j + 1) fun same => absurd same here]
    exact junk _ (stale empty)

theorem Shape.post_place (shape : Shape k S pc) (woke : Woke k u (.semaphore x) k')
    (queued : u ∈ k.waiters (.semaphore x)) (member : u ∈ S (.semaphore x))
    (safe : Safe k x u pc) : Place k' (without S u) pc := by
  have place := shape.place
  cases pc with
  | enter | next | wake | yield | finished => exact woke.cells shape member place
  | sleeping t | countDown t | waits t =>
    exact ⟨woke.cells shape member place.1, by simpa only [Kernel.Live, woke.count] using place.2⟩
  | clearQueue t | clearCount t | result t =>
    exact ⟨woke.cells shape member place.1, fun o there => place.2 o (List.mem_of_mem_erase there)⟩
  | guard t =>
    obtain ⟨cells, o, there⟩ := place
    refine ⟨woke.cells shape member cells, o, stays there ?_⟩
    by_cases here : o = .semaphore x
    · subst here
      exact safe (shape.linked _ t there).1
    · exact shape.apart member there here
  | search t i => exact shape.post_search woke member safe
  | compare t i => exact shape.post_compare woke member safe
  | shift t j =>
    obtain ⟨o, A, B, shifting, full⟩ := place
    by_cases here : o = .semaphore x
    · subst here
      obtain ⟨other, on, clear⟩ := safe (shape.linked _ t shifting.member).1
      obtain ⟨A', B', shifting', full', _⟩ :=
        shifting.woke shape woke queued other on full clear
      exact ⟨_, A', B', shifting', full'⟩
    · exact ⟨o, A, B, (shifting.elsewhere shape woke member here).1, full⟩
  | move t j => exact shape.post_move woke queued member safe
  | decrement t =>
    obtain ⟨o, A, shifting⟩ := place
    by_cases here : o = .semaphore x
    · subst here
      obtain ⟨other, on⟩ := safe (shape.linked _ t shifting.member).1
      have count := shifting.count
      obtain ⟨A', B', shifting', _, parts⟩ :=
        shifting.woke shape woke queued other on (.inl rfl)
          (fun clear => by simp only [List.length_nil] at count; omega)
      rcases parts with ⟨_, _, rfl⟩ | ⟨_, later, _⟩
      · exact ⟨_, A', shifting'⟩
      · cases later
    · exact ⟨o, A, (shifting.elsewhere shape woke member here).1⟩
  | fault => exact place.elim

/-- **A harmless post keeps the meaning of the queues.** -/
theorem Shape.post (shape : Shape k S pc) {x : Nat} (harmless : Harmless ⟨k, pc⟩ x)
    (picked : k.posted x = some u) : Shape (k.osSemaphoreRelease x) (without S u) pc := by
  have member := shape.picked harmless picked
  obtain ⟨queue, count⟩ := shape.linked _ u member
  have woke := Woke.of_post picked queue count
  refine ⟨fun o => (shape.distinct o).erase u, ?_, ?_, ?_⟩
  · intro o v hv
    obtain ⟨ne, hv⟩ := (shape.distinct o).mem_erase_iff.mp hv
    rw [woke.others v ne]
    exact shape.linked o v hv
  · intro v o live on
    have ne : v ≠ u := by
      rintro rfl
      cases woke.off.symm.trans on
    rw [woke.others v ne] at on
    have live : k.Live v := by simpa only [Kernel.Live, woke.count] using live
    exact (shape.queued v o live on).imp_left fun there => stays there ne.symm
  · exact shape.post_place woke (Kernel.posted_mem picked) member (harmless u picked)

end

end

end Handler

end Sentinel
