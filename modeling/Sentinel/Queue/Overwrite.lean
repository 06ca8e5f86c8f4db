import Sentinel.Queue.Delivery

/-! What a send overwrites. The decision that the queue is full is taken before the lock is
held, and it can be out of date when the message is written. -/

namespace Sentinel

open Runs (Transition Run)

/-- The write of `y` discards nothing but the oldest message of a full ring, which is in the
cell that it writes, and it does not discard its own message. -/
structure SoundWrite (older : Log) (y : Transition Traffic Deed) (message : UInt32) : Prop where
  oldest : ∀ e ∈ older.unread, e ∉ Log.unread (y :: older) →
    older.unread.length = y.pre.queue.capacity ∧ older.unread.head? = some e ∧
      older.stamp y.pre.queue.head = some e.1
  own : (older.sent.length, message) ∈ Log.unread (y :: older)

/-- The message that a deed writes without a slot. -/
def Traffic.overwrites (s : Traffic) (d : Deed) : Option UInt32 :=
  match s.accessed d with
  | some (.sendWrite message false) => some message
  | _ => none

/-- No slot is free, or in the hands of a call, or on the way to one. -/
structure Traffic.Full (s : Traffic) : Prop where
  count : (s.system.kernel.semaphores s.queue.emptySlots).count = 0
  hands : ∀ t f, s.doing t = some f → f.slots = 0
  handed : ∀ t, s.system.board.handed s.queue.emptySlots t = 0

section
variable {idle : TaskId} {past older recent : Log} {s : Traffic} {y : Transition Traffic Deed}
  {message : UInt32} {hadSlot : Bool}

theorem Traffic.overwrites_iff {d : Deed} :
    s.overwrites d = some message ↔ s.accessed d = some (.sendWrite message false) := by
  constructor
  · intro writes
    unfold overwrites at writes
    split at writes
    · rename_i here
      rw [here, Option.some.inj writes]
    · cases writes
  · intro here
    simp [overwrites, here]

theorem Traffic.full_iff : s.Full ↔ s.free = 0 := by
  have tokens : s.free = 0 ↔ (s.system.kernel.semaphores s.queue.emptySlots).count = 0 ∧
      ∀ t, (s.doing t).elim 0 Frame.slots = 0 ∧ s.system.board.handed s.queue.emptySlots t = 0 := by
    simp [Traffic.free, Traffic.stock, Traffic.tokens]
  rw [tokens]
  constructor
  · rintro ⟨count, hands, handed⟩
    refine ⟨count, fun t => ⟨?_, handed t⟩⟩
    cases doing : s.doing t with
    | none => rfl
    | some f => exact hands t f doing
  · rintro ⟨count, each⟩
    refine ⟨count, fun t f doing => ?_, fun t => (each t).2⟩
    simpa [doing] using (each t).1

/-- When the ring is full, `head` is at the oldest message. -/
theorem Traffic.Filled.head_oldest (filled : s.Filled past) {e : Nat × UInt32}
    {rest : List (Nat × UInt32)} (list : past.unread = e :: rest)
    (full : past.unread.length = s.queue.capacity)
    (settled : s.writeAt = s.queue.head ∧ s.readAt = s.queue.tail) :
    past.stamp s.queue.head = some e.1 := by
  obtain ⟨head, tail, holds, _, _, _⟩ := filled
  have same := holds.full.mpr (.inr (by simpa using full))
  rw [settled.1, settled.2, Nat.mod_eq_of_lt head, Nat.mod_eq_of_lt tail] at same
  rw [list, settled.2, List.map_cons] at holds
  have first := holds.pop.1
  rw [Nat.mod_eq_of_lt tail] at first
  rw [same]
  exact (Prod.mk.inj first).1

/-- A write without a slot is sound when the ring is full, and only then. -/
theorem Traffic.Filled.overwrite (filled : y.pre.Filled older)
    (writes : y.pre.accessed y.event = some (.sendWrite message false))
    (settled : y.pre.writeAt = y.pre.queue.head ∧ y.pre.readAt = y.pre.queue.tail) :
    SoundWrite older y message ↔ older.unread.length = y.pre.queue.capacity := by
  have after : Log.unread (y :: older) = (older.unread ++ [(older.sent.length, message)]).tail := by
    simp [Log.unread, writes]
  constructor
  · rintro ⟨oldest, own⟩
    rw [after] at oldest own
    cases list : older.unread with
    | nil => simp [list] at own
    | cons e rest =>
      rw [list] at oldest
      refine (oldest e List.mem_cons_self fun still => ?_).1
      -- `e` is older than everything behind it
      have rising := filled.rising
      rw [list, List.pairwise_cons] at rising
      have numbered := filled.numbered (n := e.1) (m := e.2)
        (filled.suffix.subset (list ▸ List.mem_cons_self))
      rcases List.mem_append.mp still with behind | new
      · exact (rising.1 e behind).false
      · rw [List.mem_singleton.mp new] at numbered
        exact numbered.false
  · intro full
    obtain ⟨e, rest, list⟩ : ∃ e rest, older.unread = e :: rest := by
      have room := Nat.zero_lt_of_lt filled.head
      exact List.exists_cons_of_length_pos (full ▸ room)
    have there := filled.head_oldest list full settled
    rw [list, List.cons_append, List.tail_cons] at after
    refine ⟨fun e' before gone => ?_, by simp [after]⟩
    rw [list] at before
    rw [after] at gone
    rcases List.mem_cons.mp before with rfl | behind
    · exact ⟨full, by rw [list]; rfl, there⟩
    · exact absurd (List.mem_append_left _ behind) gone

/-- **A write discards only the oldest message of a full ring** as long as its send has a
slot or there is none when it writes, and only then. -/
theorem overwrite_when_full (run : Service idle (recent ++ y :: older) s)
    (writes : y.pre.accessed y.event = some (.sendWrite message hadSlot)) :
    SoundWrite older y message ↔ (hadSlot = false → y.pre.Full) := by
  obtain ⟨before, step, _⟩ := run.transition
  have filled : y.pre.Filled older := Service.filled before
  have sound : y.pre.Sound idle := Service.sound before
  cases hadSlot with
  | true =>
    have after : Log.unread (y :: older) = older.unread ++ [(older.sent.length, message)] := by
      simp [Log.unread, writes]
    have kept : SoundWrite older y message :=
      ⟨fun e there gone => absurd (after ▸ List.mem_append_left _ there) gone, by simp [after]⟩
    exact ⟨fun _ h => (Bool.noConfusion h), fun _ => kept⟩
  | false =>
    obtain ⟨t, here⟩ : ∃ t, y.pre.doing t = some (.sendWrite message false) := by
      cases event : y.event with
      | access t => exact ⟨t, by simpa [Traffic.accessed, event] using writes⟩
      | enter | kernel | leave => simp [Traffic.accessed, event] at writes
    rw [filled.overwrite writes (sound.guarded.settled here rfl rfl rfl), filled.length,
      Traffic.full_iff]
    have total := sound.stocked.total
    constructor
    · intro full _
      omega
    · intro free
      have := free rfl
      omega

/-- A full ring of one cell: the second message takes the place of the first. -/
theorem overwrite_when_full_displaced : ∃ (recent older : Log) (y : Transition Traffic Deed)
    (s : Traffic), Service 0 (recent ++ y :: older) s ∧ older.unread = [(0, 5)] ∧
      Log.unread (y :: older) = [(1, 8)] ∧ SoundWrite older y 8 := by
  obtain ⟨past, s, run, latest⟩ := serve_run
    (show serve 0 1 [0, 1]
      (fun past _ => match past with
        | y :: older => y.pre.overwrites y.event = some 8 ∧ y.pre.free = 0 ∧
          Log.unread older = [(0, 5)] ∧ Log.unread (y :: older) = [(1, 8)]
        | [] => false)
      [.enter 1 (.send 5 0), .kernel (.call 1 (.semaphoreAcquire 0 0) (.returned .success)),
        .kernel (.call 1 (.mutexAcquire 0 waitForever) (.returned .success)), .access 1, .access 1,
        .kernel (.call 1 (.mutexRelease 0) .finished),
        .kernel (.call 1 (.semaphoreRelease 1) .finished), .leave 1 (.sent .success),
        .enter 1 (.send 8 0), .kernel (.call 1 (.semaphoreAcquire 0 0) (.returned .timeout)),
        .kernel (.call 1 (.mutexAcquire 0 waitForever) (.returned .success)), .access 1] by
      decide +kernel)
  cases past with
  | nil => cases latest
  | cons y older =>
    obtain ⟨writes, full, before, after⟩ := of_decide_eq_true latest
    have run : Service 0 ([] ++ y :: older) s := run
    exact ⟨[], older, y, s, run, before, after,
      (overwrite_when_full run (Traffic.overwrites_iff.mp writes)).mpr fun _ =>
        Traffic.full_iff.mpr full⟩

/-- Between the poll that finds no slot and the lock, a receive takes the only message out.
The send writes into the empty ring, moves `tail` past its own message and returns
`OS_SUCCESS`. -/
theorem overwrite_discards_own : ∃ (recent older : Log) (y : Transition Traffic Deed)
    (s : Traffic), Service 0 (recent ++ y :: older) s ∧
      y.pre.accessed y.event = some (.sendWrite 8 false) ∧
      recent.map (·.event) = [.leave 1 (.sent .success),
        .kernel (.call 1 (.mutexRelease 0) .finished), .access 1, .access 1] ∧
      older.unread = [] ∧ Log.unread (y :: older) = [] ∧ ¬ SoundWrite older y 8 := by
  obtain ⟨past, s, run, latest⟩ := serve_run
    (show serve 0 1 [0, 1, 2]
      (fun past _ => match past.drop 4 with
        | y :: older => y.pre.overwrites y.event = some 8 ∧
          (past.take 4).map (·.event) = [.leave 1 (.sent .success),
            .kernel (.call 1 (.mutexRelease 0) .finished), .access 1, .access 1] ∧
          Log.unread older = [] ∧ Log.unread (y :: older) = []
        | [] => false)
      [.kernel (.call 2 (.delay 2) .parked), .kernel .pass, .enter 1 (.send 5 0),
        .kernel (.call 1 (.semaphoreAcquire 0 0) (.returned .success)),
        .kernel (.call 1 (.mutexAcquire 0 waitForever) (.returned .success)), .access 1, .access 1,
        .kernel (.call 1 (.mutexRelease 0) .finished),
        .kernel (.call 1 (.semaphoreRelease 1) .finished), .leave 1 (.sent .success),
        .enter 1 (.send 8 0), .kernel (.call 1 (.semaphoreAcquire 0 0) (.returned .timeout)),
        .kernel .tick, .kernel .tick, .kernel .pass, .kernel (.resume 2 (.delay 2) .finished),
        .enter 2 (.receive 0), .kernel (.call 2 (.semaphoreAcquire 1 0) (.returned .success)),
        .kernel (.call 2 (.mutexAcquire 0 waitForever) (.returned .success)), .access 2, .access 2,
        .kernel (.call 2 (.mutexRelease 0) .finished),
        .kernel (.call 2 (.semaphoreRelease 0) .finished), .leave 2 (.received 5),
        .kernel (.call 2 (.delay 9) .parked), .kernel .pass,
        .kernel (.call 1 (.mutexAcquire 0 waitForever) (.returned .success)), .access 1, .access 1,
        .access 1, .kernel (.call 1 (.mutexRelease 0) .finished), .leave 1 (.sent .success)] by
      decide +kernel)
  split at latest
  · rename_i y older rest
    obtain ⟨writes, recent, before, after⟩ := of_decide_eq_true latest
    have whole : past = past.take 4 ++ y :: older := by rw [← rest, List.take_append_drop]
    refine ⟨past.take 4, older, y, s, by rwa [← whole], Traffic.overwrites_iff.mp writes, recent,
      before, after, fun kept => ?_⟩
    have own := kept.own
    rw [after] at own
    cases own
  · cases latest

end

end Sentinel
