import Sentinel.Ultrasonic.Driver

/-! Whose pulse a distance is taken from. The handler pairs the edges as they come from the
moment a read arms the capture, whichever pings they belong to, and a read takes the
timestamps as they stand when a token lets it through. -/

namespace Sentinel

open Runs (Transition Run)

/-- An edge of the echo of ping `ping`, with the value that the timer had. -/
structure Edge where
  ping : Nat
  rising : Bool
  captured : UInt32
  deriving DecidableEq, Repr

def Ranging.nextEdge (s : Ranging) (k : Nat) (captured : UInt32) : Edge :=
  ⟨k, s.echo k = .silent, captured⟩

namespace EchoLog

/-- All edges so far, latest first. -/
def delivered : EchoLog → List Edge
  | [] => []
  | y :: past =>
    match y.event with
    | .edge k captured => y.pre.nextEdge k captured :: delivered past
    | _ => delivered past

/-- The edges since the capture was last armed, latest first. -/
def edges : EchoLog → List Edge
  | [] => []
  | y :: past =>
    match y.event with
    | .arm _ => []
    | .edge k captured => y.pre.nextEdge k captured :: edges past
    | _ => edges past

/-- The edge whose capture is in `time_start`, for `true`, or in `time_end`. -/
def source (rising : Bool) : EchoLog → Option Edge
  | [] => none
  | y :: past =>
    match y.event with
    | .edge k captured =>
      if y.pre.waitingForRising = rising then some (y.pre.nextEdge k captured)
      else source rising past
    | _ => source rising past

/-- The log as it was when a read last took `time_end`. -/
def atEnd : EchoLog → EchoLog
  | [] => []
  | y :: past =>
    match y.event with
    | .readEnd _ => past
    | _ => atEnd past

/-- The log as it was when a read last took `time_start`. -/
def atStart : EchoLog → EchoLog
  | [] => []
  | y :: past =>
    match y.event with
    | .readStart _ => past
    | _ => atStart past

/-- The distance is the width of the echo of ping `k`. -/
def Measures (past : EchoLog) (k : Nat) (distance : UInt32) : Prop :=
  ∃ r f, ⟨k, true, r⟩ ∈ delivered past ∧ ⟨k, false, f⟩ ∈ delivered past ∧
    distance = (f - r) / usPerCm

/-- It is so because both timestamps were captures of that echo when the read took them. -/
def Belongs (past : EchoLog) (k : Nat) (distance : UInt32) : Prop :=
  ∃ r f, source false (atEnd past) = some ⟨k, false, f⟩ ∧
    source true (atStart past) = some ⟨k, true, r⟩ ∧ distance = (f - r) / usPerCm

/-- Between the arming of the capture and the reading of `time_end` an even number of edges
come, the last of them those of ping `k`, and none comes from there to the reading of
`time_start`. -/
def OwnPulse (past : EchoLog) (k : Nat) : Prop :=
  ∃ r f early, Even early.length ∧ edges (atEnd past) = ⟨k, false, f⟩ :: ⟨k, true, r⟩ :: early ∧
    edges (atStart past) = edges (atEnd past)

end EchoLog

/-! ### Edges in pairs -/

/-- The latest edge of a list, latest first, that opens a pair, for `true`, or closes one. -/
def latest (rising : Bool) : List Edge → Option Edge
  | [] => none
  | g :: rest => if decide (Even rest.length) = rising then some g else latest rising rest

/-- Of two edges of one echo the later one is the falling one. -/
def Ordered (edges : List Edge) : Prop :=
  edges.Pairwise fun later earlier => later.ping = earlier.ping →
    later.rising = false ∧ earlier.rising = true

section
variable {k : Nat} {r f : UInt32} {A B early : List Edge} {rising : Bool} {g : Edge}

theorem latest_mem (last : latest rising A = some g) : g ∈ A := by
  induction A with
  | nil => cases last
  | cons h rest ih =>
    rw [latest] at last
    split at last
    · obtain rfl := Option.some.inj last
      exact List.mem_cons_self
    · exact List.mem_cons_of_mem _ (ih last)

/-- The edge that opens the latest pair is the last one or the last but one. -/
theorem latest_split (last : latest true B = some g) :
    ∃ rest, Even rest.length ∧ (B = g :: rest ∨ ∃ h, B = h :: g :: rest) := by
  cases B with
  | nil => cases last
  | cons h rest =>
    rw [latest] at last
    split at last
    · rename_i even
      obtain rfl := Option.some.inj last
      exact ⟨rest, of_decide_eq_true even, .inl rfl⟩
    · rename_i odd
      have odd : ¬ Even rest.length := fun even => odd (decide_eq_true even)
      cases rest with
      | nil => exact absurd Even.zero odd
      | cons i rest =>
        have even : Even rest.length := by
          rw [List.length_cons, Nat.even_add_one, not_not] at odd
          exact odd
        rw [latest, if_pos (decide_eq_true even)] at last
        obtain rfl := Option.some.inj last
        exact ⟨rest, even, .inr ⟨h, rfl⟩⟩

/-- When the latest pair is closed by the falling edge of an echo and opened by its rising
edge, these are the last two edges. -/
theorem own_pair (ordered : Ordered B) (suffix : A <:+ B)
    (ends : latest false A = some ⟨k, false, f⟩) (starts : latest true B = some ⟨k, true, r⟩) :
    ∃ early, Even early.length ∧ A = ⟨k, false, f⟩ :: ⟨k, true, r⟩ :: early ∧ B = A := by
  have inside : (⟨k, false, f⟩ : Edge) ∈ A := latest_mem ends
  -- the falling edge does not come before the rising one
  have after : ∀ rest, Ordered (⟨k, true, r⟩ :: rest) → (⟨k, false, f⟩ : Edge) ∉ rest := by
    intro rest ordered there
    have apart := (List.pairwise_cons.mp ordered).1 _ there rfl
    cases apart.1
  obtain ⟨rest, even, split | ⟨h, split⟩⟩ := latest_split starts
  · subst split
    cases List.mem_cons.mp (suffix.subset inside) with
    | inl same => cases same
    | inr there => exact absurd there (after rest ordered)
  · subst split
    have older : (⟨k, false, f⟩ : Edge) ∉ (⟨k, true, r⟩ : Edge) :: rest := by
      intro there
      cases List.mem_cons.mp there with
      | inl same => cases same
      | inr there => exact after rest (List.pairwise_cons.mp ordered).2 there
    obtain rfl : ⟨k, false, f⟩ = h :=
      (List.mem_cons.mp (suffix.subset inside)).resolve_right older
    cases List.suffix_cons_iff.mp suffix with
    | inl same => exact ⟨rest, even, same, same.symm⟩
    | inr shorter => exact absurd (shorter.subset inside) older

theorem latest_pair (even : Even early.length) :
    latest rising (⟨k, false, f⟩ :: ⟨k, true, r⟩ :: early) =
      some (if rising then ⟨k, true, r⟩ else ⟨k, false, f⟩) := by
  have odd : ¬ Even (early.length + 1) := Nat.not_even_iff_odd.mpr (Even.add_one even)
  cases rising <;> simp [latest, even, odd]

/-- An echo has no third edge. -/
theorem own_edges (ordered : Ordered A) (own : ∀ g ∈ A, g.ping = k) (two : 2 ≤ A.length) :
    ∃ r f, A = [⟨k, false, f⟩, ⟨k, true, r⟩] := by
  obtain _ | ⟨⟨p, rising, f⟩, _ | ⟨⟨q, rising', r⟩, rest⟩⟩ := A
  · simp at two
  · simp at two
  · obtain rfl : p = k := own ⟨p, rising, f⟩ (by simp)
    obtain rfl : q = p := own ⟨q, rising', r⟩ (by simp)
    obtain ⟨rfl, rfl⟩ := (List.pairwise_cons.mp ordered).1 ⟨q, rising', r⟩ (by simp) rfl
    cases rest with
    | nil => exact ⟨r, f, rfl⟩
    | cons i rest =>
      have third := (List.pairwise_cons.mp (List.pairwise_cons.mp ordered).2).1 i (by simp)
        (own i (by simp)).symm
      cases third.1

end

/-! ### What the driver has taken -/

namespace EchoLog

theorem edges_since (past : EchoLog) : edges past <+: delivered past := by
  induction past with
  | nil => exact List.nil_prefix
  | cons y past ih =>
    obtain ⟨s, o, s'⟩ := y
    cases o with
    | arm => exact List.nil_prefix
    | edge => exact List.cons_prefix_cons.mpr ⟨rfl, ih⟩
    | enter | ping | kernel | readEnd | readStart | leave => exact ih

/-- What had been delivered when a read took `time_end`, has been delivered now. -/
theorem delivered_atEnd (past : EchoLog) : delivered (atEnd past) <:+ delivered past := by
  induction past with
  | nil => exact List.suffix_refl _
  | cons y past ih =>
    obtain ⟨s, o, s'⟩ := y
    cases o with
    | readEnd => exact List.suffix_refl _
    | edge => exact ih.trans (List.suffix_cons _ _)
    | enter | arm | ping | kernel | readStart | leave => exact ih

/-- The driver's variables and the echoes, as far as the log tells them. -/
structure Kept (past : EchoLog) (s : Ranging) : Prop where
  parity : s.waitingForRising = decide (Even (edges past).length)
  sent : ∀ g ∈ delivered past, g.ping < s.pings
  begun : ∀ g ∈ delivered past, s.echo g.ping ≠ .silent
  high : ∀ g ∈ delivered past, s.echo g.ping = .high → g.rising = true
  ordered : Ordered (delivered past)
  written : ∀ rising g, source rising past = some g →
    s.timestamp rising = g.captured ∧ g ∈ delivered past
  taken : ∀ rising g, latest rising (edges past) = some g → source rising past = some g

variable {idle : TaskId} {past : EchoLog} {s s' : Ranging} {k : Nat} {captured : UInt32}

/-- The next edge of an echo comes after those that the log has. -/
theorem Kept.next (kept : Kept past s) (pending : s.echo k ≠ .done) :
    Ordered (s.nextEdge k captured :: delivered past) := by
  refine List.pairwise_cons.mpr ⟨fun g there same => ?_, kept.ordered⟩
  obtain rfl : k = g.ping := same
  have begun := kept.begun g there
  have high : s.echo g.ping = .high := by
    cases echo : s.echo g.ping with
    | silent => exact absurd echo begun
    | high => rfl
    | done => exact absurd echo pending
  exact ⟨decide_eq_false begun, kept.high g there high⟩

theorem Kept.edge (kept : Kept past s) (sent : k < s.pings) (pending : s.echo k ≠ .done) :
    Kept (⟨s, .edge k captured, (s.heard k).tim2IrqHandler captured⟩ :: past)
      ((s.heard k).tim2IrqHandler captured) := by
  have parity : s.waitingForRising = decide (Even (edges past).length) := kept.parity
  constructor
  case parity =>
    simp only [edges, List.length_cons, Nat.even_add_one, Ranging.tim2IrqHandler_waitingForRising,
      Ranging.heard, parity, decide_not]
  case sent =>
    intro g there
    simp only [Ranging.tim2IrqHandler_pings]
    cases List.mem_cons.mp there with
    | inl same => exact same ▸ sent
    | inr there => exact kept.sent g there
  case begun =>
    intro g there
    simp only [Ranging.tim2IrqHandler_echo, Ranging.heard]
    by_cases same : g.ping = k
    · rw [same, Function.update_self]
      split <;> simp
    · rw [Function.update_of_ne same]
      cases List.mem_cons.mp there with
      | inl new => exact absurd (congrArg Edge.ping new) same
      | inr there => exact kept.begun g there
  case high =>
    intro g there
    simp only [Ranging.tim2IrqHandler_echo, Ranging.heard]
    by_cases same : g.ping = k
    · rw [same, Function.update_self]
      split
      · rename_i silent
        intro _
        cases List.mem_cons.mp there with
        | inl new => exact new ▸ decide_eq_true silent
        | inr there => exact absurd (same ▸ silent) (kept.begun g there)
      · simp
    · rw [Function.update_of_ne same]
      cases List.mem_cons.mp there with
      | inl new => exact absurd (congrArg Edge.ping new) same
      | inr there => exact kept.high g there
  case ordered => exact kept.next pending
  case written =>
    intro rising g found
    rw [Ranging.tim2IrqHandler_timestamp]
    simp only [source] at found
    by_cases turn : s.waitingForRising = rising
    · rw [if_pos turn] at found
      obtain rfl := Option.some.inj found
      exact ⟨if_pos turn, List.mem_cons_self⟩
    · rw [if_neg turn] at found
      obtain ⟨same, there⟩ := kept.written rising g found
      exact ⟨(if_neg turn).trans same, List.mem_cons_of_mem _ there⟩
  case taken =>
    intro rising g last
    simp only [edges, latest, ← parity] at last
    simp only [source]
    split at last
    · rename_i turn
      rw [if_pos turn, last]
    · rename_i turn
      rw [if_neg turn]
      exact kept.taken rising g last

theorem kept (run : Soundings idle past s) : Kept past s := by
  induction run with
  | start installed =>
    exact ⟨by rw [installed.armed]; rfl, nofun, nofun, nofun, .nil, nofun, nofun⟩
  | next run step ih =>
    cases step with
    | edge captured sent pending => exact ih.edge sent pending
    | arm => exact ⟨rfl, ih.sent, ih.begun, ih.high, ih.ordered, ih.written, nofun⟩
    | ping =>
      exact ⟨ih.parity, fun g there => Nat.lt_succ_of_lt (ih.sent g there), ih.begun, ih.high,
        ih.ordered, ih.written, ih.taken⟩
    | enter | kernel | readEnd | readStart | leave =>
      exact ⟨ih.parity, ih.sent, ih.begun, ih.high, ih.ordered, ih.written, ih.taken⟩

/-- A timestamp that the read did not take since it armed the capture is that of an
earlier ping. -/
theorem older (run : Soundings idle past s) (armed : ∀ t n, s.reading ≠ some (t, .pinging n))
    {rising : Bool} {g : Edge} (found : source rising past = some g) :
    latest rising (edges past) = some g ∨ g.ping + 1 < s.pings := by
  induction run generalizing g with
  | start => cases found
  | @next past s s' e run step ih =>
    cases step with
    | edge captured sent pending =>
      simp only [source] at found
      simp only [edges, latest, ← (kept run).parity, Ranging.tim2IrqHandler_pings]
      split at found
      · rename_i turn
        exact .inl ((if_pos turn).trans found)
      · rename_i turn
        rw [if_neg turn]
        exact ih (by simpa [Ranging.heard] using armed) found
    | arm => exact absurd rfl (armed _ _)
    | ping => exact .inr (Nat.succ_lt_succ (((kept run).sent g ((kept run).written _ g found).2)))
    | enter timeout runs free outside => exact ih (by simp [outside]) found
    | readEnd runs free here | readStart runs free here | leave runs free here =>
      exact ih (by simp [here]) found
    | @kernel e system step allowed =>
      refine ih (fun t n here => ?_) found
      cases s.moved_cases e with
      | inl same => exact armed t n (same.trans here)
      | inr back =>
        obtain ⟨u, timeout, c, out, waiting, _⟩ := back
        cases waiting.symm.trans here

/-- A timestamp as a read took it. -/
structure Took (rising : Bool) (past : EchoLog) (pings : Nat) (value : UInt32) : Prop where
  value : ∀ g, source rising past = some g → value = g.captured
  older : ∀ g, source rising past = some g →
    latest rising (edges past) = some g ∨ g.ping + 1 < pings
  taken : ∀ g, latest rising (edges past) = some g → source rising past = some g

theorem took (run : Soundings idle past s) (armed : ∀ t n, s.reading ≠ some (t, .pinging n))
    (rising : Bool) : Took rising past s.pings (s.timestamp rising) :=
  ⟨fun g found => ((kept run).written rising g found).1, fun _ found => older run armed found,
    (kept run).taken rising⟩

/-- What a read has taken so far. -/
structure Taken (past : EchoLog) (s : Ranging) : Prop where
  midway : ∀ t v, s.reading = some (t, .readingStart v) →
    Took false (atEnd past) s.pings v ∧ edges (atEnd past) <:+ edges past
  back : ∀ t d, s.reading = some (t, .returning d) → d = ultrasonicNoEcho ∨
    ∃ e b, d = (e - b) / usPerCm ∧ Took false (atEnd past) s.pings e ∧
      Took true (atStart past) s.pings b ∧ edges (atEnd past) <:+ edges (atStart past) ∧
      Ordered (edges (atStart past))

theorem taken (run : Soundings idle past s) : Taken past s := by
  induction run with
  | start installed => exact ⟨by simp [installed.outside], by simp [installed.outside]⟩
  | @next past s s' e run step ih =>
    cases step with
    | enter | arm | ping | leave => exact ⟨nofun, nofun⟩
    | edge captured sent pending =>
      constructor
      case midway =>
        intro t v here
        simp only [Ranging.tim2IrqHandler_reading, Ranging.tim2IrqHandler_pings] at here ⊢
        obtain ⟨took, suffix⟩ := ih.midway t v here
        exact ⟨took, suffix.trans (List.suffix_cons _ _)⟩
      case back =>
        intro t d here
        simp only [Ranging.tim2IrqHandler_reading, Ranging.tim2IrqHandler_pings] at here ⊢
        exact ih.back t d here
    | readEnd runs free here =>
      refine ⟨fun t v at' => ?_, nofun⟩
      cases at'
      exact ⟨took run (by simp [here]) false, List.suffix_refl _⟩
    | readStart runs free here =>
      refine ⟨nofun, fun t d at' => .inr ?_⟩
      cases at'
      obtain ⟨ended, suffix⟩ := ih.midway _ _ here
      exact ⟨_, _, rfl, ended, took run (by simp [here]) true, suffix,
        (kept run).ordered.sublist (edges_since past).sublist⟩
    | @kernel e system step allowed =>
      constructor
      case midway =>
        intro t v here
        cases s.moved_cases e with
        | inl same => exact ih.midway t v (same.symm.trans here)
        | inr back =>
          obtain ⟨u, timeout, c, out, waiting, _, _, moved⟩ := back
          have went := moved.symm.trans here
          cases Phase.proceed_cases out with
          | inl on => simp [on.2] at went
          | inr out => simp [out] at went
      case back =>
        intro t d here
        cases s.moved_cases e with
        | inl same => exact ih.back t d (same.symm.trans here)
        | inr back =>
          obtain ⟨u, timeout, c, out, waiting, _, _, moved⟩ := back
          have went := moved.symm.trans here
          cases Phase.proceed_cases out with
          | inl on => simp [on.2] at went
          | inr out => exact .inl (by simp [out] at went; exact went.2.symm)

end EchoLog

end Sentinel
