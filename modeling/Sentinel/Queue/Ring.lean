import Sentinel.Lib.Ring
import Sentinel.Queue.Slots

/-! What the buffer means. The unread messages stand between `tail` and `head`, in the
order in which they were written, whatever the calls in flight are doing. -/

namespace Sentinel

open Runs (Transition Run)

namespace Log

/-- The messages written so far, oldest first and numbered. -/
def sent : Log → List (Nat × UInt32)
  | [] => []
  | y :: past =>
    match y.pre.accessed y.event with
    | some (.sendWrite message _) => sent past ++ [((sent past).length, message)]
    | _ => sent past

/-- The messages that nobody has read and no later one has displaced, oldest first. A
write without a slot displaces the oldest. -/
def unread : Log → List (Nat × UInt32)
  | [] => []
  | y :: past =>
    match y.pre.accessed y.event with
    | some (.sendWrite message true) => unread past ++ [((sent past).length, message)]
    | some (.sendWrite message false) => (unread past ++ [((sent past).length, message)]).tail
    | some .receiveRead => (unread past).tail
    | _ => unread past

/-- The number of the message that was last written into a cell. -/
def stamp : Log → Nat → Option Nat
  | [] => fun _ => none
  | y :: past =>
    match y.pre.accessed y.event with
    | some (.sendWrite _ _) =>
      Function.update (stamp past) y.pre.queue.head (some (sent past).length)
    | _ => stamp past

end Log

namespace Frame

/-- The write has been done and `head` has not been moved past it yet. -/
def headDue : Frame → Nat
  | .sendHead _ => 1
  | _ => 0

/-- The oldest message has been given up and `tail` has not been moved past it yet. -/
def tailDue : Frame → Nat
  | .sendHead false | .sendTail | .receiveTail _ => 1
  | _ => 0

end Frame

namespace Traffic

/-- The total of a weight over the queue calls in progress. -/
def sum (s : Traffic) (weight : Frame → Nat) : Nat := ∑ t, (s.doing t).elim 0 weight

/-- Where the next message goes, and where the oldest one is: `head` and `tail`, as they
will be after the update in progress, if there is one. -/
def writeAt (s : Traffic) : Nat := s.queue.head + s.sum Frame.headDue

def readAt (s : Traffic) : Nat := s.queue.tail + s.sum Frame.tailDue

/-- The cells of the ring, each with the number of its message. -/
def cells (s : Traffic) (past : Log) (p : Nat) : Option Nat × UInt32 := (past.stamp p, s.queue.buffer p)

end Traffic

/-- The state of the ring after a run. -/
structure Traffic.Filled (past : Log) (s : Traffic) : Prop where
  head : s.queue.head < s.queue.capacity
  tail : s.queue.tail < s.queue.capacity
  holds : Ring.Holds (s.cells past) s.queue.capacity s.readAt s.writeAt
    (past.unread.map fun e => (some e.1, e.2))
  length : past.unread.length = s.occupied
  suffix : past.unread <:+ past.sent
  numbers : past.sent.map Prod.fst = List.range past.sent.length

section
variable {idle : TaskId} {s t : Traffic} {d : Deed} {u : TaskId} {f : Frame}

/-- At the ring a task is alone. -/
theorem Traffic.Guarded.sum_eq (guarded : s.Guarded) (here : s.doing u = some f) (inRing : f.inRing)
    (weight : Frame → Nat) (ring : ∀ f, weight f ≠ 0 → f.inRing) : s.sum weight = weight f := by
  have others : ∀ v ∈ Finset.univ, v ≠ u → (s.doing v).elim 0 weight = 0 := by
    intro v _ other
    cases doing : s.doing v with
    | none => rfl
    | some g =>
      by_contra busy
      have owner := guarded.owner v g doing (ring g busy)
      exact other (Option.some.inj (owner.symm.trans (guarded.owner u f here inRing)))
  rw [sum, Finset.sum_eq_single u others (by simp), here, Option.elim_some]

theorem Frame.headDue_inRing (f : Frame) (due : f.headDue ≠ 0) : f.inRing := by
  cases f <;> first | rfl | exact absurd rfl due

theorem Frame.tailDue_inRing (f : Frame) (due : f.tailDue ≠ 0) : f.inRing := by
  cases f <;> first | rfl | exact absurd rfl due

theorem Frame.due_call {q : OsMessageQueue} {c : Call} (calls : f.call q = some c) (out : Outcome) :
    f.headDue = 0 ∧ f.tailDue = 0 ∧ (f.proceed out).headDue = 0 ∧ (f.proceed out).tailDue = 0 := by
  cases f with
  | sendLock _ hadSlot =>
    by_cases success : out = .returned .success <;> cases hadSlot <;>
      simp [Frame.proceed, Frame.headDue, Frame.tailDue, success]
  | receiveSlot | receiveLock =>
    by_cases success : out = .returned .success <;>
      simp [Frame.proceed, Frame.headDue, Frame.tailDue, success]
  | sendUnlock hadSlot => cases hadSlot <;> exact ⟨rfl, rfl, rfl, rfl⟩
  | sendSlot | sendGiveBack | sendPost | receiveGiveBack | receiveUnlock | receivePost =>
    exact ⟨rfl, rfl, rfl, rfl⟩
  | sendWrite | sendHead | sendTail | receiveRead | receiveTail | returning => cases calls

/-- Only the accesses to the ring put off updates of the indices. -/
theorem QueueStep.due_kept (h : QueueStep idle s d t) (sound : s.Sound idle)
    (elsewhere : ∀ t, d ≠ .access t) : t.writeAt = s.writeAt ∧ t.readAt = s.readAt := by
  have same : ∀ u, (t.doing u).elim 0 Frame.headDue = (s.doing u).elim 0 Frame.headDue ∧
      (t.doing u).elim 0 Frame.tailDue = (s.doing u).elim 0 Frame.tailDue := by
    intro u
    cases h with
    | @enter v op runs free outside =>
      by_cases self : u = v
      · subst self
        cases op <;> simp [outside, Operation.start, Frame.headDue, Frame.tailDue]
      · simp [self]
    | @leave v reply runs free here =>
      by_cases self : u = v
      · simp [self, here, Frame.headDue, Frame.tailDue]
      · simp [self]
    | access => exact absurd rfl (elsewhere _)
    | @kernel e system step allowed =>
      rcases s.moved_cases e u with ⟨same, _⟩ | ⟨f, c, out, doing, _, event, after⟩
      · simp [same]
      · have may := sound.placed.may_of_event allowed (step.refines sound.board) event
        have due := Frame.due_call (Traffic.may_doing may doing) out
        simp [doing, after, due]
  have queue : t.queue = s.queue := by
    cases h with
    | access => exact absurd rfl (elsewhere _)
    | enter | leave | kernel => rfl
  simp only [Traffic.writeAt, Traffic.readAt, Traffic.sum, same, queue, and_self]

/-- A deed that does not write or read a message. -/
theorem Log.kept {past : Log} (silent : ∀ m h, s.accessed d ≠ some (.sendWrite m h))
    (deaf : s.accessed d ≠ some .receiveRead) :
    Log.sent (⟨s, d, t⟩ :: past) = past.sent ∧ Log.unread (⟨s, d, t⟩ :: past) = past.unread ∧
      Log.stamp (⟨s, d, t⟩ :: past) = past.stamp := by
  refine ⟨?_, ?_, ?_⟩
  · rw [sent]
    split
    · rename_i h
      exact absurd h (silent _ _)
    · rfl
  · rw [unread]
    split
    · rename_i h
      exact absurd h (silent _ _)
    · rename_i h
      exact absurd h (silent _ _)
    · rename_i h
      exact absurd h deaf
    · rfl
  · rw [stamp]
    split
    · rename_i h
      exact absurd h (silent _ _)
    · rfl

/-- A deed that moves at most the indices, and these only as far as they were due. -/
theorem Traffic.Filled.keep {past : Log} (filled : s.Filled past)
    (silent : ∀ m h, s.accessed d ≠ some (.sendWrite m h)) (deaf : s.accessed d ≠ some .receiveRead)
    (buffer : t.queue.buffer = s.queue.buffer) (capacity : t.queue.capacity = s.queue.capacity)
    (occupied : t.occupied = s.occupied) (head : t.queue.head < s.queue.capacity)
    (tail : t.queue.tail < s.queue.capacity)
    (writeAt : t.writeAt % s.queue.capacity = s.writeAt % s.queue.capacity)
    (readAt : t.readAt % s.queue.capacity = s.readAt % s.queue.capacity) :
    t.Filled (⟨s, d, t⟩ :: past) := by
  have kept : _ ∧ _ ∧ Log.stamp (⟨s, d, t⟩ :: past) = _ := Log.kept silent deaf
  obtain ⟨sent, unread, stamp⟩ := kept
  have cells : t.cells (⟨s, d, t⟩ :: past) = s.cells past := by
    funext p
    simp only [Traffic.cells, stamp, buffer]
  refine ⟨capacity ▸ head, capacity ▸ tail, ?_, ?_, ?_, ?_⟩
  · rw [cells, capacity, unread]
    exact filled.holds.congr readAt writeAt
  · rw [unread, occupied]
    exact filled.length
  · rw [unread, sent]
    exact filled.suffix
  · rw [sent]
    exact filled.numbers

/-- A message is written, behind the others or over the oldest of a full ring. -/
theorem Traffic.Filled.write {past : Log} (filled : s.Filled past) {message : UInt32}
    {hadSlot : Bool} (accessed : s.accessed d = some (.sendWrite message hadSlot))
    (queue : t.queue = { s.queue with
      buffer := Function.update s.queue.buffer s.queue.head message })
    (before : s.writeAt = s.queue.head ∧ s.readAt = s.queue.tail)
    (after : t.writeAt = s.queue.head + 1 ∧ t.readAt = s.queue.tail + if hadSlot then 0 else 1)
    (occupied : t.occupied = s.occupied + if hadSlot then 1 else 0)
    (room : hadSlot → s.occupied < s.queue.capacity) : t.Filled (⟨s, d, t⟩ :: past) := by
  obtain ⟨head, tail, holds, length, suffix, numbers⟩ := filled
  have sent : Log.sent (⟨s, d, t⟩ :: past) = past.sent ++ [(past.sent.length, message)] := by
    simp [Log.sent, accessed]
  have cells : t.cells (⟨s, d, t⟩ :: past) = Function.update (s.cells past)
      (s.queue.head % s.queue.capacity) (some past.sent.length, message) := by
    funext p
    rw [Nat.mod_eq_of_lt head]
    by_cases here : p = s.queue.head <;> simp [Traffic.cells, Log.stamp, accessed, queue, here]
  rw [before.1, before.2] at holds
  have joined : past.unread ++ [(past.sent.length, message)] <:+
      past.sent ++ [(past.sent.length, message)] := by
    obtain ⟨older, whole⟩ := suffix
    exact ⟨older, by rw [← whole, List.append_assoc]⟩
  have numbered : (Log.sent (⟨s, d, t⟩ :: past)).map Prod.fst =
      List.range (Log.sent (⟨s, d, t⟩ :: past)).length := by
    rw [sent, List.map_append, numbers, List.length_append, List.length_singleton, List.range_succ]
    rfl
  have capacity : t.queue.capacity = s.queue.capacity := by rw [queue]
  refine ⟨by rwa [queue], by rwa [queue], ?_, ?_, ?_, numbered⟩
  · rw [cells, after.1, after.2, capacity]
    cases hadSlot with
    | true =>
      have push := holds.push (by simpa [length] using room rfl) (some past.sent.length, message)
      simpa [Log.unread, accessed] using push
    | false =>
      have rotate := holds.rotate (some past.sent.length, message)
      simpa [Log.unread, accessed] using rotate
  · rw [occupied, ← length]
    cases hadSlot <;> simp [Log.unread, accessed]
  · rw [sent]
    cases hadSlot with
    | true => simpa [Log.unread, accessed] using joined
    | false => simpa [Log.unread, accessed] using (List.tail_suffix _).trans joined

/-- The oldest message is in the cell at `tail`. -/
theorem Traffic.Filled.oldest {past : Log} (filled : s.Filled past) (some : 0 < s.occupied)
    (settled : s.readAt = s.queue.tail) : ∃ n rest,
      past.unread = (n, s.queue.buffer s.queue.tail) :: rest ∧ past.stamp s.queue.tail = n := by
  obtain ⟨_, tail, holds, length, _, _⟩ := filled
  cases list : past.unread with
  | nil =>
    rw [list, List.length_nil] at length
    omega
  | cons e rest =>
    rw [list, settled, List.map_cons] at holds
    have first := holds.pop.1
    rw [Nat.mod_eq_of_lt tail] at first
    obtain ⟨number, message⟩ := Prod.mk.inj first
    exact ⟨e.1, rest, by rw [message], number⟩

/-- The oldest message is read. -/
theorem Traffic.Filled.read {past : Log} (filled : s.Filled past)
    (accessed : s.accessed d = some .receiveRead) (occupied : t.occupied + 1 = s.occupied)
    (queue : t.queue = s.queue) (before : s.writeAt = s.queue.head ∧ s.readAt = s.queue.tail)
    (after : t.writeAt = s.queue.head ∧ t.readAt = s.queue.tail + 1) :
    t.Filled (⟨s, d, t⟩ :: past) := by
  obtain ⟨n, rest, list, _⟩ := filled.oldest (by omega) before.2
  obtain ⟨head, tail, holds, length, suffix, numbers⟩ := filled
  have sent : Log.sent (⟨s, d, t⟩ :: past) = past.sent := by simp [Log.sent, accessed]
  have unread : Log.unread (⟨s, d, t⟩ :: past) = rest := by simp [Log.unread, accessed, list]
  have cells : t.cells (⟨s, d, t⟩ :: past) = s.cells past := by
    funext p
    simp [Traffic.cells, Log.stamp, accessed, queue]
  rw [before.1, before.2, list, List.map_cons] at holds
  rw [list] at length suffix
  refine ⟨by rwa [queue], by rwa [queue], ?_, ?_, ?_, by rwa [sent]⟩
  · rw [cells, after.1, after.2, queue, unread]
    exact holds.pop.2
  · rw [unread]
    rw [List.length_cons] at length
    omega
  · rw [unread, sent]
    exact (List.suffix_cons _ _).trans suffix

/-- No update of an index is put off when a task is about to write or to read. -/
theorem Traffic.Guarded.settled (guarded : s.Guarded) (here : s.doing u = some f)
    (inRing : f.inRing) (head : f.headDue = 0) (tail : f.tailDue = 0) :
    s.writeAt = s.queue.head ∧ s.readAt = s.queue.tail := by
  rw [writeAt, readAt, guarded.sum_eq here inRing _ Frame.headDue_inRing,
    guarded.sum_eq here inRing _ Frame.tailDue_inRing, head, tail]
  exact ⟨rfl, rfl⟩

theorem Traffic.Filled.step {past : Log} (filled : s.Filled past) (sound : s.Sound idle)
    (h : QueueStep idle s d t) : t.Filled (⟨s, d, t⟩ :: past) := by
  have after := h.sound sound
  have occupied := h.occupied sound.stocked sound.placed sound.board
  obtain ⟨capacity, _⟩ := h.queue_kept
  by_cases elsewhere : ∀ t, d ≠ .access t
  · have none : s.accessed d = none := by
      cases d with
      | access u => exact absurd rfl (elsewhere u)
      | enter | kernel | leave => rfl
    have queue : t.queue = s.queue := by
      cases h with
      | access => exact absurd rfl (elsewhere _)
      | enter | leave | kernel => rfl
    obtain ⟨writeAt, readAt⟩ := h.due_kept sound elsewhere
    rw [none] at occupied
    exact filled.keep (by simp [none]) (by simp [none]) (by rw [queue]) capacity occupied.1
      (queue ▸ filled.head) (queue ▸ filled.tail) (by rw [writeAt]) (by rw [readAt])
  · obtain ⟨u, rfl⟩ := not_forall_not.mp elsewhere
    cases h with
    | @access _ f f' q runs free here done =>
      have accessed : s.accessed (.access u) = some f := here
      obtain ⟨inRing, inRing', _⟩ := Frame.access_keeps done
      have now : (Function.update s.doing u (some f')) u = some f' := Function.update_self ..
      have headBefore := sound.guarded.sum_eq here inRing _ Frame.headDue_inRing
      have headAfter := after.guarded.sum_eq now inRing' _ Frame.headDue_inRing
      have tailBefore := sound.guarded.sum_eq here inRing _ Frame.tailDue_inRing
      have tailAfter := after.guarded.sum_eq now inRing' _ Frame.tailDue_inRing
      have room : 0 < s.queue.capacity := Nat.zero_lt_of_lt filled.head
      rw [accessed] at occupied
      cases f with
      | sendWrite message hadSlot =>
        obtain ⟨rfl, rfl⟩ := Prod.mk.inj (Option.some.inj done)
        have total := sound.stocked.total
        simp only [Option.any_some, Frame.fills, Frame.drains, Bool.false_eq_true, if_false] at occupied
        refine filled.write accessed rfl (sound.guarded.settled here rfl rfl rfl) ⟨?_, ?_⟩
          occupied.1 fun slot => ?_
        · simp only [Traffic.writeAt, headAfter]
          rfl
        · simp only [Traffic.readAt, tailAfter]
          cases hadSlot <;> rfl
        · subst slot
          simp only [if_true] at occupied
          omega
      | sendHead hadSlot =>
        obtain ⟨rfl, rfl⟩ := Prod.mk.inj (Option.some.inj done)
        refine filled.keep (by simp [accessed]) (by simp [accessed]) rfl rfl occupied.1
          (Nat.mod_lt _ room) filled.tail ?_ ?_
        · simp only [Traffic.writeAt, headBefore, headAfter]
          cases hadSlot <;> simp [Frame.headDue]
        · simp only [Traffic.readAt, tailBefore, tailAfter]
          cases hadSlot <;> rfl
      | sendTail =>
        obtain ⟨rfl, rfl⟩ := Prod.mk.inj (Option.some.inj done)
        refine filled.keep (by simp [accessed]) (by simp [accessed]) rfl rfl occupied.1
          filled.head (Nat.mod_lt _ room) ?_ ?_
        · simp only [Traffic.writeAt, headBefore, headAfter]
          rfl
        · simp only [Traffic.readAt, tailBefore, tailAfter]
          simp [Frame.tailDue]
      | receiveRead =>
        obtain ⟨rfl, rfl⟩ := Prod.mk.inj (Option.some.inj done)
        refine filled.read accessed occupied.1 rfl (sound.guarded.settled here rfl rfl rfl) ⟨?_, ?_⟩
        · simp only [Traffic.writeAt, headAfter]
          rfl
        · simp only [Traffic.readAt, tailAfter]
          rfl
      | receiveTail message =>
        obtain ⟨rfl, rfl⟩ := Prod.mk.inj (Option.some.inj done)
        refine filled.keep (by simp [accessed]) (by simp [accessed]) rfl rfl occupied.1
          filled.head (Nat.mod_lt _ room) ?_ ?_
        · simp only [Traffic.writeAt, headBefore, headAfter]
          rfl
        · simp only [Traffic.readAt, tailBefore, tailAfter]
          simp [Frame.tailDue]
      | sendSlot | sendLock | sendGiveBack | sendUnlock | sendPost | receiveSlot | receiveLock
        | receiveGiveBack | receiveUnlock | receivePost | returning => cases done

theorem Opened.filled (opened : Opened idle s) : s.Filled [] := by
  have sound := opened.sound
  obtain ⟨launched, fresh, room, apart, outside⟩ := opened
  have none : s.occupied = 0 := by
    have total := sound.stocked.total
    have free : (s.system.kernel.semaphores s.queue.emptySlots).count ≤ s.free := by
      simp only [Traffic.free, Traffic.stock]
      omega
    simp only [fresh.emptySlots] at free
    omega
  have settled : s.writeAt = 0 ∧ s.readAt = 0 := by
    simp [Traffic.writeAt, Traffic.readAt, Traffic.sum, outside, fresh.head, fresh.tail]
  refine ⟨by rwa [fresh.head], by rwa [fresh.tail], ?_, none.symm, List.nil_suffix, rfl⟩
  rw [settled.1, settled.2]
  exact .empty _ _ _

theorem Service.filled {past : Log} (run : Service idle past s) : s.Filled past :=
  run.induct (fun _ opened => opened.filled) fun _ _ _ _ run filled h =>
    filled.step (Service.sound run) h

end
end Sentinel
