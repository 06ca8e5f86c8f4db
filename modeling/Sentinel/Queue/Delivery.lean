import Sentinel.Queue.Ring

/-! What arrives. Every message that a receive returns was written by a send, none is
returned twice, and they are read in the order in which they were written. -/

namespace Sentinel

open Runs (Transition Run)

/-- A message taken out of the ring: by which task, and the number and the contents of
the cell. -/
structure Fetch where
  task : TaskId
  number : Option Nat
  message : UInt32
  deriving DecidableEq, Repr

namespace Log

/-- What the receives have read so far, latest first. -/
def reads : Log → List Fetch
  | [] => []
  | y :: past =>
    match y.event with
    | .access t =>
      match y.pre.doing t with
      | some .receiveRead =>
        ⟨t, stamp past y.pre.queue.tail, y.pre.queue.buffer y.pre.queue.tail⟩ :: reads past
      | _ => reads past
    | _ => reads past

/-- The latest read of a task. -/
def fetched (past : Log) (t : TaskId) : Option Fetch := past.reads.find? fun r => r.task = t

/-- The reads of the receives that have returned with success. -/
def received : Log → List Fetch
  | [] => []
  | y :: past =>
    match y.event with
    | .leave t (.received _) => (fetched past t).toList ++ received past
    | _ => received past

end Log

/-- The message that a receive has read and not returned yet. -/
def Frame.carries : Frame → Option UInt32
  | .receiveTail message | .receiveUnlock message | .receivePost message
    | .returning (.received message) => some message
  | _ => none

/-- What has been read and returned so far. -/
structure Traffic.Delivers (past : Log) (s : Traffic) : Prop where
  known : ∀ r ∈ past.reads, ∃ n, r.number = some n ∧ (n, r.message) ∈ past.sent ∧
    ∀ e ∈ past.unread, n < e.1
  order : past.reads.Pairwise fun later earlier => ∃ m n, later.number = some m ∧
    earlier.number = some n ∧ n < m
  carried : ∀ t f m, s.doing t = some f → f.carries = some m →
    ∃ r, past.fetched t = some r ∧ r.message = m ∧ r ∉ past.received
  genuine : ∀ r ∈ past.received, r ∈ past.reads
  once : past.received.Nodup

section
variable {idle : TaskId} {s t : Traffic} {d : Deed} {past : Log}

theorem Frame.carries_call {q : OsMessageQueue} {f : Frame} {c : Call} (calls : f.call q = some c)
    (out : Outcome) : (f.proceed out).carries = f.carries := by
  cases f with
  | sendLock _ hadSlot =>
    by_cases success : out = .returned .success <;> cases hadSlot <;>
      simp [Frame.proceed, Frame.carries, success]
  | receiveSlot | receiveLock =>
    by_cases success : out = .returned .success <;> simp [Frame.proceed, Frame.carries, success]
  | sendUnlock hadSlot => cases hadSlot <;> rfl
  | sendSlot | sendGiveBack | sendPost | receiveGiveBack | receiveUnlock | receivePost => rfl
  | sendWrite | sendHead | sendTail | receiveRead | receiveTail | returning => cases calls

/-- Among the messages sent, numbers rise. -/
theorem Traffic.Filled.rising (filled : s.Filled past) :
    past.unread.Pairwise fun e e' => e.1 < e'.1 := by
  have ordered : (past.sent.map Prod.fst).Pairwise (· < ·) := by
    rw [filled.numbers]
    exact List.pairwise_lt_range
  exact (List.pairwise_map.mp ordered).sublist filled.suffix.sublist

theorem Traffic.Filled.numbered (filled : s.Filled past) {n : Nat} {m : UInt32}
    (sent : (n, m) ∈ past.sent) : n < past.sent.length := by
  have there : n ∈ past.sent.map Prod.fst := List.mem_map_of_mem sent
  rw [filled.numbers] at there
  exact List.mem_range.mp there

/-- A deed that reads nothing and returns nothing. What it writes is younger than all
that has been read. -/
theorem Traffic.Delivers.keep (delivers : s.Delivers past) (filled : s.Filled past)
    (reads : Log.reads (⟨s, d, t⟩ :: past) = past.reads)
    (received : Log.received (⟨s, d, t⟩ :: past) = past.received)
    (sent : ∀ e ∈ past.sent, e ∈ Log.sent (⟨s, d, t⟩ :: past))
    (unread : ∀ e ∈ Log.unread (⟨s, d, t⟩ :: past), e ∈ past.unread ∨ past.sent.length ≤ e.1)
    (carry : ∀ u f m, t.doing u = some f → f.carries = some m →
      ∃ g, s.doing u = some g ∧ g.carries = some m) :
    t.Delivers (⟨s, d, t⟩ :: past) := by
  obtain ⟨known, order, carried, genuine, once⟩ := delivers
  refine ⟨fun r there => ?_, by rwa [reads], fun u f m doing message => ?_, by rwa [reads, received],
    by rwa [received]⟩
  · rw [reads] at there
    obtain ⟨n, number, written, before⟩ := known r there
    refine ⟨n, number, sent _ written, fun e waits => ?_⟩
    rcases unread e waits with old | new
    · exact before e old
    · exact (filled.numbered written).trans_le new
  · obtain ⟨g, doing, message⟩ := carry u f m doing message
    rw [Log.fetched, reads, received]
    exact carried u g m doing message

theorem Traffic.Delivers.read (delivers : s.Delivers past) (filled : s.Filled past) {u : TaskId}
    (reading : s.doing u = some .receiveRead) (waiting : 0 < s.occupied)
    (settled : s.readAt = s.queue.tail)
    (doing : t.doing =
      Function.update s.doing u (some (.receiveTail (s.queue.buffer s.queue.tail)))) :
    t.Delivers (⟨s, .access u, t⟩ :: past) := by
  obtain ⟨known, order, carried, genuine, once⟩ := delivers
  obtain ⟨n, rest, list, number⟩ := filled.oldest waiting settled
  let new : Fetch := ⟨u, some n, s.queue.buffer s.queue.tail⟩
  have reads : Log.reads (⟨s, .access u, t⟩ :: past) = new :: past.reads := by
    simp [Log.reads, reading, new, number]
  have accessed : s.accessed (.access u) = some .receiveRead := reading
  have sent : Log.sent (⟨s, .access u, t⟩ :: past) = past.sent := by simp [Log.sent, accessed]
  have unread : Log.unread (⟨s, .access u, t⟩ :: past) = rest := by
    simp [Log.unread, accessed, list]
  have received : Log.received (⟨s, .access u, t⟩ :: past) = past.received := rfl
  -- the reads before were of older messages
  have older : ∀ r ∈ past.reads, ∃ m, r.number = some m ∧ m < n := fun r there => by
    obtain ⟨m, number, _, before⟩ := known r there
    exact ⟨m, number, before _ (by rw [list]; exact List.mem_cons_self)⟩
  have fresh : new ∉ past.reads := fun there => by
    obtain ⟨m, number, less⟩ := older new there
    obtain rfl : n = m := Option.some.inj number
    exact less.false
  refine ⟨fun r there => ?_, ?_, fun v f m here message => ?_, fun r there => ?_, once⟩
  · rw [sent, unread]
    rw [reads] at there
    rcases List.mem_cons.mp there with rfl | there
    · have rising := filled.rising
      rw [list, List.pairwise_cons] at rising
      exact ⟨n, rfl, filled.suffix.subset (by rw [list]; exact List.mem_cons_self), rising.1⟩
    · obtain ⟨m, number, written, before⟩ := known r there
      exact ⟨m, number, written, fun e waits => before e (by rw [list]; exact List.mem_cons_of_mem _ waits)⟩
  · rw [reads]
    refine List.pairwise_cons.mpr ⟨fun r there => ?_, order⟩
    obtain ⟨m, number, less⟩ := older r there
    exact ⟨n, m, rfl, number, less⟩
  · rw [Log.fetched, reads, received]
    by_cases self : v = u
    · subst self
      rw [doing, Function.update_self] at here
      obtain rfl := Option.some.inj here
      obtain rfl := Option.some.inj message
      exact ⟨new, by simp [new], rfl, fun there => fresh (genuine _ there)⟩
    · rw [doing, Function.update_of_ne self] at here
      rw [List.find?_cons_of_neg (by simpa [new] using Ne.symm self)]
      exact carried v f m here message
  · rw [reads]
    exact List.mem_cons_of_mem _ (genuine r there)

theorem Traffic.Delivers.return (delivers : s.Delivers past) {u : TaskId} {message : UInt32}
    (here : s.doing u = some (.returning (.received message)))
    (doing : t.doing = Function.update s.doing u none) :
    t.Delivers (⟨s, .leave u (.received message), t⟩ :: past) := by
  obtain ⟨known, order, carried, genuine, once⟩ := delivers
  obtain ⟨r, fetched, _, fresh⟩ := carried u _ message here rfl
  have received : Log.received (⟨s, .leave u (.received message), t⟩ :: past) = r :: past.received := by
    simp [Log.received, fetched]
  have read : r ∈ past.reads := List.mem_of_find?_eq_some fetched
  have mine : r.task = u := by simpa using List.find?_some fetched
  refine ⟨known, order, fun v f m there carries => ?_, fun r' there => ?_, ?_⟩
  · have other : v ≠ u := fun self => by simp [self, doing] at there
    rw [doing, Function.update_of_ne other] at there
    obtain ⟨r', fetched', same', fresh'⟩ := carried v f m there carries
    refine ⟨r', fetched', same', ?_⟩
    rw [received]
    refine List.not_mem_cons_of_ne_of_not_mem (fun h => other ?_) fresh'
    have mine' : r'.task = v := by simpa using List.find?_some fetched'
    rw [← mine', h, mine]
  · rw [received] at there
    rcases List.mem_cons.mp there with rfl | there
    · exact read
    · exact genuine r' there
  · rw [received]
    exact List.nodup_cons.mpr ⟨fresh, once⟩

/-- What an access other than a read can do to the messages. -/
theorem Log.write_grows {u : TaskId} {f : Frame} (here : s.doing u = some f) (other : f ≠ .receiveRead) :
    Log.reads (⟨s, .access u, t⟩ :: past) = past.reads ∧
    (∀ e ∈ past.sent, e ∈ Log.sent (⟨s, .access u, t⟩ :: past)) ∧
    ∀ e ∈ Log.unread (⟨s, .access u, t⟩ :: past), e ∈ past.unread ∨ past.sent.length ≤ e.1 := by
  have accessed : s.accessed (.access u) = some f := here
  refine ⟨by simp [Log.reads, here, other], ?_⟩
  by_cases writes : ∃ message hadSlot, f = .sendWrite message hadSlot
  · obtain ⟨message, hadSlot, rfl⟩ := writes
    have joined : ∀ e ∈ past.unread ++ [(past.sent.length, message)],
        e ∈ past.unread ∨ past.sent.length ≤ e.1 := by
      intro e there
      apply (List.mem_append.mp there).imp_right
      intro new
      rw [List.mem_singleton.mp new]
    refine ⟨fun e there => by simp [Log.sent, accessed, there], fun e there => joined e ?_⟩
    cases hadSlot with
    | true => simpa [Log.unread, accessed] using there
    | false => exact List.mem_of_mem_tail (by simpa only [Log.unread, accessed] using there)
  · have kept : Log.sent (⟨s, .access u, t⟩ :: past) = _ ∧
        Log.unread (⟨s, .access u, t⟩ :: past) = _ ∧ _ :=
      Log.kept (fun m h same => writes ⟨m, h, Option.some.inj (accessed.symm.trans same)⟩)
        fun same => other (Option.some.inj (accessed.symm.trans same))
    rw [kept.1, kept.2.1]
    exact ⟨fun _ there => there, fun _ there => .inl there⟩

theorem Traffic.Delivers.step (delivers : s.Delivers past) (filled : s.Filled past)
    (sound : s.Sound idle) (h : QueueStep idle s d t) : t.Delivers (⟨s, d, t⟩ :: past) := by
  have occupied := h.occupied sound.stocked sound.placed sound.board
  cases h with
  | @enter v op =>
    refine delivers.keep filled rfl rfl (fun _ h => h) (fun _ h => .inl h) fun u f m doing carries => ?_
    by_cases self : u = v
    · subst self
      obtain rfl : op.start = f := by simpa using doing
      cases op <;> cases carries
    · exact ⟨f, by simpa [self] using doing, carries⟩
  | @leave v reply runs free here =>
    cases reply with
    | received message => exact delivers.return here rfl
    | sent | missed =>
      refine delivers.keep filled rfl rfl (fun _ h => h) (fun _ h => .inl h) fun u f m doing carries => ?_
      by_cases self : u = v
      · simp [self] at doing
      · exact ⟨f, by simpa [self] using doing, carries⟩
  | @kernel e system step allowed =>
    refine delivers.keep filled rfl rfl (fun _ h => h) (fun _ h => .inl h) fun u f m doing carries => ?_
    rcases s.moved_cases e u with ⟨same, _⟩ | ⟨g, c, out, before, _, event, after⟩
    · exact ⟨f, same.symm.trans doing, carries⟩
    · have may := sound.placed.may_of_event allowed (step.refines sound.board) event
      obtain rfl : g.proceed out = f := Option.some.inj (after.symm.trans doing)
      exact ⟨g, before, (Frame.carries_call (Traffic.may_doing may before) out).symm.trans carries⟩
  | @access v f f' q runs free here done =>
    by_cases reading : f = .receiveRead
    · subst reading
      obtain ⟨rfl, rfl⟩ := Prod.mk.inj (Option.some.inj done)
      have settled := (sound.guarded.settled here rfl rfl rfl).2
      have accessed : s.accessed (.access v) = some .receiveRead := here
      rw [accessed] at occupied
      simp only [Option.any_some, Frame.fills, Frame.drains, if_true, Bool.false_eq_true, if_false]
        at occupied
      exact delivers.read filled here (by omega) settled rfl
    · refine delivers.keep filled (Log.write_grows here reading).1 rfl
        (Log.write_grows here reading).2.1 (Log.write_grows here reading).2.2
        fun u g m doing carries => ?_
      by_cases self : u = v
      · subst self
        obtain rfl : f' = g := by simpa using doing
        refine ⟨f, here, ?_⟩
        cases f with
        | sendHead hadSlot =>
          obtain ⟨_, rfl⟩ := Prod.mk.inj (Option.some.inj done)
          cases hadSlot <;> cases carries
        | sendWrite | sendTail | receiveTail =>
          obtain ⟨_, rfl⟩ := Prod.mk.inj (Option.some.inj done)
          exact carries
        | receiveRead => exact absurd rfl reading
        | sendSlot | sendLock | sendGiveBack | sendUnlock | sendPost | receiveSlot | receiveLock
          | receiveGiveBack | receiveUnlock | receivePost | returning => cases done
      · exact ⟨g, by simpa [self] using doing, carries⟩

theorem Service.delivers (run : Service idle past s) : s.Delivers past := by
  induction run with
  | start opened =>
    refine ⟨by simp [Log.reads], List.Pairwise.nil, fun u f m doing => ?_, by simp [Log.received],
      List.nodup_nil⟩
    cases (opened.outside u).symm.trans doing
  | next run step ih => exact ih.step (Service.filled run) (Service.sound run) step

end

/-- The unread messages are the last ones written, and stand in the ring from `tail` up to
`head`. While a call is between its access to a cell and its last update of an index, `readAt`
and `writeAt` are the indices with the updates that are still due. -/
structure RingSound (past : Log) (s : Traffic) : Prop where
  last : past.unread = past.sent.drop (past.sent.length - s.occupied)
  count : past.unread.length = s.occupied
  fits : s.occupied ≤ s.queue.capacity
  stored : ∀ i (inside : i < past.unread.length),
    s.queue.buffer ((s.readAt + i) % s.queue.capacity) = past.unread[i].2 ∧
      past.stamp ((s.readAt + i) % s.queue.capacity) = some past.unread[i].1
  ends : s.writeAt % s.queue.capacity = (s.readAt + s.occupied) % s.queue.capacity
  settled : (∀ t f, s.doing t = some f → f.headDue = 0 ∧ f.tailDue = 0) →
    s.readAt = s.queue.tail ∧ s.writeAt = s.queue.head

/-- Receives read messages that were sent, in the order of the writes and each once, and
return what they have read. -/
structure DeliverySound (past : Log) : Prop where
  genuine : ∀ r ∈ past.reads, ∃ n, r.number = some n ∧ (n, r.message) ∈ past.sent
  order : past.reads.Pairwise fun later earlier => ∃ m n, later.number = some m ∧
    earlier.number = some n ∧ n < m
  returns : ∀ (recent : Log) (y : Transition Traffic Deed) (older : Log) (t : TaskId) (m : UInt32),
    past = recent ++ y :: older → y.event = .leave t (.received m) →
      ∃ n, older.fetched t = some ⟨t, some n, m⟩ ∧ (n, m) ∈ older.sent
  once : (past.received.map Fetch.number).Nodup

section
variable {idle : TaskId} {past : Log} {s : Traffic}

theorem Traffic.Filled.ring_sound (filled : s.Filled past) (stocked : s.Stocked) :
    RingSound past s where
  last := by
    rw [← filled.length]
    exact List.suffix_iff_eq_drop.mp filled.suffix
  count := filled.length
  fits := by
    have := stocked.total
    omega
  stored i inside := by
    have cell := filled.holds.cells i (by simpa using inside)
    rw [List.getElem_map] at cell
    exact ⟨(Prod.mk.inj cell).2, (Prod.mk.inj cell).1⟩
  ends := by
    rw [← filled.length]
    simpa using filled.holds.ends
  settled quiet := by
    have none : ∀ weight : Frame → Nat, (∀ t f, s.doing t = some f → weight f = 0) →
        s.sum weight = 0 := by
      refine fun weight zero => Finset.sum_eq_zero fun t _ => ?_
      cases doing : s.doing t with
      | none => rfl
      | some f => exact zero t f doing
    rw [readAt, writeAt, none _ fun t f h => (quiet t f h).1, none _ fun t f h => (quiet t f h).2]
    exact ⟨rfl, rfl⟩

theorem Traffic.Delivers.numbers_nodup (delivers : s.Delivers past) :
    (past.received.map Fetch.number).Nodup := by
  have distinct : (past.reads.map Fetch.number).Nodup := by
    refine List.pairwise_map.mpr (delivers.order.imp ?_)
    rintro r r' ⟨m, n, later, earlier, less⟩ same
    rw [later, earlier] at same
    exact less.ne' (Option.some.inj same)
  apply delivers.once.map_on
  intro r hr r' hr' same
  exact List.inj_on_of_nodup_map distinct (delivers.genuine r hr) (delivers.genuine r' hr') same

/-- **The queue delivers what was sent**, in every interleaving of the calls. -/
theorem queue_integrity (run : Service idle past s) : RingSound past s ∧ DeliverySound past := by
  have delivers := Service.delivers run
  refine ⟨(Service.filled run).ring_sound (Service.sound run).stocked, fun r there => ?_,
    delivers.order, ?_, delivers.numbers_nodup⟩
  · obtain ⟨n, number, sent, _⟩ := delivers.known r there
    exact ⟨n, number, sent⟩
  · rintro recent ⟨a, d, b⟩ older t m rfl event
    obtain rfl : d = .leave t (.received m) := event
    obtain ⟨before, step, _⟩ := run.transition
    have earlier : a.Delivers older := Service.delivers before
    dsimp only at step
    cases step with
    | leave runs free here =>
      obtain ⟨r, fetched, same, _⟩ := earlier.carried t _ m here rfl
      have mine : r.task = t := by simpa using List.find?_some fetched
      obtain ⟨n, number, sent, _⟩ := earlier.known r (List.mem_of_find?_eq_some fetched)
      obtain ⟨task, _, message⟩ := r
      obtain rfl : task = t := mine
      obtain rfl : _ = some n := number
      obtain rfl : message = m := same
      exact ⟨n, fetched, sent⟩

/-- A receive waits, a send hands it its message, and the receive returns with it. -/
theorem queue_integrity_handed : ∃ (s : Traffic) (y : Transition Traffic Deed) (older : Log),
    Service 0 (y :: older) s ∧ y.event = .leave 2 (.received 7) ∧ ∃ n, (n, 7) ∈ older.sent := by
  obtain ⟨past, s, run, latest⟩ := serve_run
    (show serve 0 1 [0, 1, 2]
      (fun past _ => past.head?.map (·.event) = some (.leave 2 (.received 7)))
      [.enter 2 (.receive waitForever), .kernel (.call 2 (.semaphoreAcquire 1 waitForever) .parked),
        .kernel .pass, .enter 1 (.send 7 0),
        .kernel (.call 1 (.semaphoreAcquire 0 0) (.returned .success)),
        .kernel (.call 1 (.mutexAcquire 0 waitForever) (.returned .success)), .access 1, .access 1,
        .kernel (.call 1 (.mutexRelease 0) .finished),
        .kernel (.call 1 (.semaphoreRelease 1) .finished), .kernel .pass,
        .kernel (.resume 2 (.semaphoreAcquire 1 waitForever) (.returned .success)),
        .kernel (.call 2 (.mutexAcquire 0 waitForever) (.returned .success)), .access 2, .access 2,
        .kernel (.call 2 (.mutexRelease 0) .finished),
        .kernel (.call 2 (.semaphoreRelease 0) .finished), .leave 2 (.received 7)] by
      decide +kernel)
  cases past with
  | nil => simp at latest
  | cons y older =>
    have event : y.event = .leave 2 (.received 7) := by simpa using latest
    obtain ⟨n, _, sent⟩ := (queue_integrity run).2.returns [] y older 2 7 rfl event
    exact ⟨s, y, older, run, event, n, sent⟩

end

end Sentinel
