import Sentinel.Tasks.Permits
import Sentinel.Tasks.Start

/-! The ping-pong of `microbench.c`. Two tasks bounce a pair of binary semaphores, and the number
of cycles in between is taken as the cost of two context switches. -/

namespace Sentinel.Microbench

open Runs (Transition Run)

def benchIterations : UInt32 := 100

/-- `CYCLES_PER_US`. -/
def cyclesPerUs : UInt32 := 16

def pingSem : Nat := 3
def pongSem : Nat := 4

theorem pingTask_lt : 0 < maxTasks := by decide
theorem pongTask_lt : 1 < maxTasks := by decide

def pingTask : TaskId := ⟨0, pingTask_lt⟩
def pongTask : TaskId := ⟨1, pongTask_lt⟩

/-- What the tasks share: the peripherals, and the cycle counter of the core. -/
structure Rig where
  peripherals : Peripherals
  cyccnt : UInt32

/-- The places of the tasks. `printing`, `polling` and `writing` are the statements of
`__io_putchar`, with the characters that are left. -/
inductive Place
  | settling
  | starting
  | looping (start i : UInt32)
  | giving (start i : UInt32)
  | taking (start i : UInt32)
  | measuring (start : UInt32)
  | printing (rest : List UInt8)
  | polling (c : UInt8) (rest : List UInt8)
  | writing (c : UInt8) (rest : List UInt8)
  | resting
  | waiting
  | answering
  | idling
  deriving DecidableEq, Repr

/-- What `report` prints. -/
def report (name : String) (cycles : UInt32) : List UInt8 :=
  text "[Bench] " ++ text name ++ text ": " ++ decimal cycles ++ text " cycles (" ++
    decimal (cycles / cyclesPerUs) ++ text "." ++
    decimal ((cycles % cyclesPerUs * 10) / cyclesPerUs) ++ text " us)\r\n"

def pingPongReport (roundTrip : UInt32) : List UInt8 :=
  report "Ping-pong round trip (2 switches)" roundTrip ++
    report "Context switch (approx, round trip / 2)" (roundTrip / 2)

/-- The code of `bench_ping_task`, `bench_pong_task` and `os_idle_task`. -/
def Place.statement : Place → Statement Rig Place
  | .settling => .call (.delay 100) fun _ => .starting
  | .starting => .access fun d => (d, .looping d.cyccnt 0)
  | .looping start i => .access fun d =>
    (d, if i < benchIterations then .giving start i else .measuring start)
  | .giving start i => .call (.semaphoreRelease pongSem) fun _ => .taking start i
  | .taking start i =>
    .call (.semaphoreAcquire pingSem waitForever) fun _ => .looping start (i + 1)
  | .measuring start => .access fun d =>
    (d, .printing (pingPongReport ((d.cyccnt - start) / benchIterations)))
  | .printing [] => .access fun d => (d, .resting)
  | .printing (c :: rest) => .access fun d =>
    (d, if d.peripherals.cr1 &&& Uart.cr1Ue = 0 then .printing rest else .polling c rest)
  | .polling c rest => .access fun d =>
    (d, if d.peripherals.sr &&& Uart.srTxe = 0 then .polling c rest else .writing c rest)
  | .writing c rest => .access fun d =>
    ({ d with peripherals.sent := c.toUInt32 :: d.peripherals.sent }, .printing rest)
  | .resting => .call (.delay 1000) fun _ => .resting
  | .waiting => .call (.semaphoreAcquire pongSem waitForever) fun _ => .answering
  | .answering => .call (.semaphoreRelease pingSem) fun _ => .waiting
  | .idling => .access fun d => (d, .idling)

/-- The interrupts of the radar, and the cycle counter that runs by itself. -/
inductive Source
  | radar (i : Irq)
  | clock (cyccnt : UInt32)
  deriving DecidableEq, Repr

/-- The firmware that is built with `SENTINEL_BENCH`. -/
def pingPong : Firmware Rig Place Source where
  code := Place.statement
  interrupt
    | .radar i, d =>
      let out := radar.interrupt i d.peripherals
      ({ d with peripherals := out.1 }, out.2)
    | .clock cyccnt, d => ({ d with cyccnt }, none)

def firstPlace (t : TaskId) : Place :=
  if t = pingTask then .settling else if t = pongTask then .waiting else .idling

/-- The first moment: `microbench_init` has been called, and the kernel is launched. -/
structure Wired (s : Execution Rig Place) : Prop where
  launched : Launched idleTask s.system
  pingSem : s.system.kernel.semaphores pingSem = ⟨0, 1⟩
  pongSem : s.system.kernel.semaphores pongSem = ⟨0, 1⟩
  place : s.place = firstPlace

abbrev BenchRun := Run Wired (pingPong.Step idleTask)

abbrev BenchLog := List (Transition (Execution Rig Place) (Move Source))

/-! ### The baton -/

/-- The tokens that a task has in hand: the right to serve, which ping has first. -/
def Place.baton : Place → Nat
  | .taking _ _ | .waiting | .idling => 0
  | _ => 1

/-- The two semaphores of the game. -/
def sems : Finset Nat := {pingSem, pongSem}

theorem passes : pingPong.Passes sems Place.baton := by
  constructor
  · intro p x n next here _
    cases p with
    | taking | waiting =>
      cases here
      rfl
    | printing rest => cases rest <;> cases here
    | _ => cases here
  · intro p x n next out here _ limit
    cases p with
    | taking | waiting =>
      cases here
      exact absurd rfl limit
    | printing rest => cases rest <;> cases here
    | _ => cases here
  · intro p x next here _ out
    cases p with
    | giving | answering =>
      cases here
      rfl
    | printing rest => cases rest <;> cases here
    | _ => cases here
  · intro p c next here apart out
    cases p with
    | settling | resting =>
      cases here
      rfl
    | giving | taking | waiting | answering =>
      cases here
      have there := apart pingSem (by decide)
      have there' := apart pongSem (by decide)
      simp at there there'
    | printing rest => cases rest <;> cases here
    | starting | looping | measuring | polling | writing | idling => cases here
  · intro p f d here
    cases p with
    | printing rest =>
      cases rest with
      | nil =>
        cases here
        rfl
      | cons =>
        cases here
        dsimp only
        split <;> rfl
    | looping | polling =>
      cases here
      dsimp only
      split <;> rfl
    | starting | measuring | writing | idling =>
      cases here
      rfl
    | settling | giving | taking | resting | waiting | answering => cases here
  · intro i d x posts
    cases i with
    | clock => cases posts
    | radar i =>
      cases i with
      | usart => cases posts
      | capture sr ccr2 =>
        have only : x = echoReady := by
          simp only [pingPong, radar, Peripherals.tim2IrqHandler] at posts
          split_ifs at posts
          exact (Option.some.inj posts).symm
        rw [only]
        decide

/-! ### Where the tasks are -/

/-- The places of the ping task, with the bound on its counter. -/
def Place.pings : Place → Bool
  | .looping _ i => i ≤ benchIterations
  | .giving _ i | .taking _ i => i < benchIterations
  | .waiting | .answering | .idling => false
  | _ => true

/-- The rounds that ping has begun. -/
def Place.rounds : Place → Nat
  | .settling | .starting => 0
  | .looping _ i | .giving _ i => i.toNat
  | .taking _ i => i.toNat + 1
  | _ => benchIterations.toNat

/-- The places of each task. -/
structure Stands (t : TaskId) (p : Place) : Prop where
  ping : t = pingTask → p.pings
  pong : t = pongTask → p = .waiting ∨ p = .answering
  other : t ≠ pingTask → t ≠ pongTask → p = .idling

section
variable {p : Place} {d : Rig} {c : Call} {next : Outcome → Place} {out : Outcome}
  {f : Rig → Rig × Place} {x : Nat}

theorem Place.pings_call (pings : p.pings) (here : p.statement = .call c next) :
    (next out).pings := by
  cases p with
  | settling | giving | resting =>
    cases here
    exact pings
  | taking start i =>
    cases here
    have early : i.toNat < 100 := of_decide_eq_true pings
    apply decide_eq_true
    rw [UInt32.le_iff_toNat_le, UInt32.toNat_add]
    change (i.toNat + 1) % 2 ^ 32 ≤ 100
    omega
  | printing rest => cases rest <;> cases here
  | starting | looping | measuring | polling | writing => cases here
  | waiting | answering | idling => cases pings

theorem Place.pings_access (pings : p.pings) (here : p.statement = .access f) : (f d).2.pings := by
  cases p with
  | printing rest =>
    cases rest with
    | nil =>
      cases here
      rfl
    | cons =>
      cases here
      dsimp only
      split <;> rfl
  | looping start i =>
    cases here
    dsimp only
    split
    · rename_i more
      exact decide_eq_true more
    · rfl
  | polling =>
    cases here
    dsimp only
    split <;> rfl
  | starting | measuring | writing =>
    cases here
    rfl
  | settling | giving | taking | resting => cases here
  | waiting | answering | idling => cases pings

/-- A call that is not a request begins no round. -/
theorem Place.rounds_call (pings : p.pings) (here : p.statement = .call c next)
    (silent : c ≠ .semaphoreRelease pongSem) : (next out).rounds = p.rounds := by
  cases p with
  | settling | resting =>
    cases here
    rfl
  | giving =>
    cases here
    exact absurd rfl silent
  | taking start i =>
    cases here
    have early : i.toNat < 100 := of_decide_eq_true pings
    change (i + 1).toNat = i.toNat + 1
    rw [UInt32.toNat_add]
    exact Nat.mod_eq_of_lt (by simp; omega)
  | printing rest => cases rest <;> cases here
  | starting | looping | measuring | polling | writing => cases here
  | waiting | answering | idling => cases pings

theorem Place.rounds_access (pings : p.pings) (here : p.statement = .access f) :
    (f d).2.rounds = p.rounds := by
  cases p with
  | printing rest =>
    cases rest with
    | nil =>
      cases here
      rfl
    | cons =>
      cases here
      dsimp only
      split <;> rfl
  | looping start i =>
    have within : i ≤ benchIterations := of_decide_eq_true pings
    cases here
    dsimp only
    split
    · rfl
    · rename_i done
      obtain rfl : i = benchIterations := UInt32.le_antisymm within (UInt32.not_lt.mp done)
      rfl
  | polling =>
    cases here
    dsimp only
    split <;> rfl
  | starting | measuring | writing =>
    cases here
    rfl
  | settling | giving | taking | resting => cases here
  | waiting | answering | idling => cases pings

/-- Who releases, and where. -/
theorem Place.at_release (here : p.statement = .call (.semaphoreRelease x) next) :
    (∃ start i, p = .giving start i ∧ x = pongSem) ∨ p = .answering ∧ x = pingSem := by
  cases p with
  | giving start i =>
    cases here
    exact .inl ⟨start, i, rfl, rfl⟩
  | answering =>
    cases here
    exact .inr ⟨rfl, rfl⟩
  | printing rest => cases rest <;> cases here
  | _ => cases here

theorem Place.at_acquire {n : UInt32} (here : p.statement = .call (.semaphoreAcquire x n) next) :
    (∃ start i, p = .taking start i ∧ x = pingSem) ∨ p = .waiting ∧ x = pongSem := by
  cases p with
  | taking start i =>
    cases here
    exact .inl ⟨start, i, rfl, rfl⟩
  | waiting =>
    cases here
    exact .inr ⟨rfl, rfl⟩
  | printing rest => cases rest <;> cases here
  | _ => cases here

end

section
variable {past : BenchLog} {s : Execution Rig Place}

theorem BenchRun.stands (run : BenchRun past s) (t : TaskId) : Stands t (s.place t) := by
  apply Firmware.invariant_of_run (J := fun t p _ => Stands t p) run
  · intro s wired t
    rw [wired.place, firstPlace]
    constructor
    · rintro rfl
      rfl
    · rintro rfl
      exact .inl rfl
    · intro first second
      rw [if_neg first, if_neg second]
  · intro t p d c next out stands here _
    refine ⟨fun ping => Place.pings_call (stands.ping ping) here, ?_, ?_⟩
    · intro pong
      rcases stands.pong pong with rfl | rfl <;> cases here
      · exact .inr rfl
      · exact .inl rfl
    · intro first second
      obtain rfl := stands.other first second
      cases here
  · intro t p d f stands here
    refine ⟨fun ping => Place.pings_access (stands.ping ping) here, ?_, ?_⟩
    · intro pong
      rcases stands.pong pong with rfl | rfl <;> cases here
    · intro first second
      obtain rfl := stands.other first second
      cases here
      rfl
  · intro _ _ _ _ _ _ _ stands _ _
    exact stands
  · intro _ _ _ _ stands
    exact stands

theorem Wired.base (wired : Wired s) :
    Firmware.total sems Place.baton s = 1 ∧ Firmware.Stocks sems Place.baton s := by
  have unhanded : ∀ x t, s.system.board.handed x t = 0 := by
    intro x t
    obtain ⟨_, _, _, _, outside⟩ := wired.launched
    have here : s.system.board.inside t = none := outside t
    simp [Sentinel.Board.handed, here]
  have supply : ∀ x, s.system.board.supply x = (s.system.kernel.semaphores x).count := by
    intro x
    have count : (s.system.board.semaphores x).count = (s.system.kernel.semaphores x).count := rfl
    simp [Sentinel.Board.supply, unhanded, count]
  have start : Firmware.total sems Place.baton s = 1 := by
    have hands : ∑ t, (firstPlace t).baton = 1 := by decide
    simp only [Firmware.total, wired.place, hands, supply]
    simp [sems, wired.pingSem, wired.pongSem]
  refine ⟨start, ?_, ?_⟩
  · intro x there
    rcases Finset.mem_insert.mp there with rfl | there
    · exact wired.launched.stocked wired.pingSem (Nat.zero_le _)
    · obtain rfl := Finset.mem_singleton.mp there
      exact wired.launched.stocked wired.pongSem (Nat.zero_le _)
  · intro x there
    rw [start]
    rcases Finset.mem_insert.mp there with rfl | there
    · rw [wired.pingSem]
    · obtain rfl := Finset.mem_singleton.mp there
      rw [wired.pongSem]

/-- There is one baton. -/
theorem BenchRun.one_baton (run : BenchRun past s) :
    Firmware.total sems Place.baton s = 1 ∧ Firmware.Stocks sems Place.baton s :=
  Firmware.permits_of_run run (fun _ wired => wired.launched) passes fun _ wired => wired.base

/-- What holds of every state of the game. -/
structure Legal (s : Execution Rig Place) : Prop where
  sound : s.system.board.Sound idleTask
  tracked : s.system.board.Tracked
  placed : pingPong.Placed s
  stands : ∀ t, Stands t (s.place t)
  one : Firmware.total sems Place.baton s = 1
  stocks : Firmware.Stocks sems Place.baton s

theorem BenchRun.legal (run : BenchRun past s) : Legal s := by
  obtain ⟨sound, tracked⟩ := Firmware.sound_of_run run fun _ wired => wired.launched
  obtain ⟨one, stocks⟩ := run.one_baton
  exact ⟨sound, tracked, Firmware.placed_of_run run fun _ wired => wired.launched, run.stands, one,
    stocks⟩

end

/-! ### The pace -/

/-- The move releases `x`. -/
def releases (x : Nat) : Move Source → Bool
  | .kernel e => e.releases x
  | .access _ | .interrupt _ => false

def posts (x : Nat) (past : BenchLog) : Nat := past.countP fun y => releases x y.event

/-- The context switches so far. -/
def switches (past : BenchLog) : Nat :=
  past.countP fun y => y.pre.system.kernel.currentTcb ≠ y.post.system.kernel.currentTcb

/-- Each answer follows its request, and between the two there is a switch. -/
structure Paced (past : BenchLog) (s : Execution Rig Place) : Prop where
  rounds : posts pongSem past = (s.place pingTask).rounds
  answers : posts pongSem past =
    posts pingSem past + s.system.board.supply pongSem + (s.place pongTask).baton
  switched : posts pongSem past + posts pingSem past ≤ switches past + 1
  turn : posts pongSem past + posts pingSem past = switches past + 1 →
    s.system.kernel.currentTcb =
      some (if posts pongSem past = posts pingSem past then pongTask else pingTask)
  served : (s.place pingTask).baton = 1 →
    posts pongSem past + posts pingSem past ≤ switches past

section
variable {past : BenchLog} {s : Execution Rig Place} {e : Event} {system : System} {d : Rig}
  {a : Move Source}

/-- The baton is in one place. -/
theorem baton_le (one : Firmware.total sems Place.baton s = 1) :
    s.system.board.supply pingSem + s.system.board.supply pongSem +
      ((s.place pingTask).baton + (s.place pongTask).baton) ≤ 1 := by
  have pair : ∑ t ∈ ({pingTask, pongTask} : Finset TaskId), (s.place t).baton ≤
      ∑ t, (s.place t).baton :=
    Finset.sum_le_sum_of_subset (Finset.subset_univ _)
  rw [Finset.sum_pair (by decide)] at pair
  have supplies : ∑ x ∈ sems, s.system.board.supply x =
      s.system.board.supply pingSem + s.system.board.supply pongSem :=
    Finset.sum_pair (by decide)
  unfold Firmware.total at one
  omega

theorem posts_cons (x : Nat) (y : Transition (Execution Rig Place) (Move Source)) :
    posts x (y :: past) = posts x past + if releases x y.event then 1 else 0 := by
  simp [posts, List.countP_cons]

theorem switches_cons (y : Transition (Execution Rig Place) (Move Source)) :
    switches (y :: past) = switches past +
      if y.pre.system.kernel.currentTcb ≠ y.post.system.kernel.currentTcb then 1 else 0 := by
  simp [switches, List.countP_cons]

theorem Legal.at_giving {t : TaskId} {start i : UInt32} (legal : Legal s)
    (here : s.place t = .giving start i ∨ s.place t = .taking start i) : t = pingTask := by
  by_contra other
  by_cases pong : t = pongTask
  · rcases (legal.stands t).pong pong with same | same <;> rw [same] at here <;>
      rcases here with here | here <;> cases here
  · rw [(legal.stands t).other other pong] at here
    rcases here with here | here <;> cases here

theorem Legal.at_waiting {t : TaskId} (legal : Legal s)
    (here : s.place t = .waiting ∨ s.place t = .answering) : t = pongTask := by
  by_contra other
  by_cases ping : t = pingTask
  · have pings := (legal.stands t).ping ping
    rcases here with here | here <;> rw [here] at pings <;> cases pings
  · rw [(legal.stands t).other ping other] at here
    rcases here with here | here <;> cases here

/-- The one release of each semaphore in the program. -/
theorem Legal.release_cases (legal : Legal s) (admits : pingPong.Admits s e)
    (silent : ∀ x ∈ sems, e ≠ .post x) {x : Nat} (there : x ∈ sems) (release : e.releases x) :
    (x = pongSem ∧ ∃ out start i, e = .call pingTask (.semaphoreRelease pongSem) out ∧
      s.place pingTask = .giving start i) ∨
    (x = pingSem ∧ ∃ out, e = .call pongTask (.semaphoreRelease pingSem) out ∧
      s.place pongTask = .answering) := by
  have made : ∃ v out, e = .call v (.semaphoreRelease x) out := by
    cases e with
    | call v c out =>
      cases c with
      | semaphoreRelease z =>
        obtain rfl : z = x := by simpa [Event.releases] using release
        exact ⟨v, out, rfl⟩
      | mutexAcquire | mutexRelease | semaphoreAcquire | delay => cases release
    | post z =>
      obtain rfl : z = x := by simpa [Event.releases] using release
      exact absurd rfl (silent z there)
    | resume | tick | pass => cases release
  obtain ⟨v, out, rfl⟩ := made
  obtain ⟨next, here⟩ := Firmware.may_iff.mp (admits v _ out rfl)
  rcases Place.at_release here with ⟨start, i, place, rfl⟩ | ⟨place, rfl⟩
  · obtain rfl := legal.at_giving (.inl place)
    exact .inl ⟨rfl, out, start, i, rfl, place⟩
  · obtain rfl := legal.at_waiting (.inr place)
    exact .inr ⟨rfl, out, rfl, place⟩

/-- What comes into the supply of `x`, and what leaves it. -/
theorem Legal.flow (legal : Legal s) (step : Step idleTask s.system e system)
    (admits : pingPong.Admits s e) (silent : ∀ x ∈ sems, e ≠ .post x) {x : Nat} (there : x ∈ sems) :
    system.board.supply x + ∑ t, e.brings x t =
      s.system.board.supply x + ∑ t, if e.givesBack x t then 1 else 0 := by
  rw [← passes.released_eq admits silent there (legal.stocks.room x there)]
  exact (step.refines legal.sound).supply_next legal.sound (legal.stocks.stocked x there)

/-- A request. -/
theorem Paced.request {out : Outcome} {start i : UInt32} (paced : Paced past s) (legal : Legal s)
    (step : Step idleTask s.system (.call pingTask (.semaphoreRelease pongSem) out) system)
    (admits : pingPong.Admits s (.call pingTask (.semaphoreRelease pongSem) out))
    (here : s.place pingTask = .giving start i) (t : Execution Rig Place)
    (moves : t = ⟨system, d, pingPong.moved s (.call pingTask (.semaphoreRelease pongSem) out)⟩) :
    Paced (⟨s, .kernel (.call pingTask (.semaphoreRelease pongSem) out), t⟩ :: past) t := by
  have board := step.refines legal.sound
  have awake : out ≠ .parked := by
    rintro rfl
    cases board.parks
  have place : t.place = Function.update s.place pingTask (.taking start i) := by
    rw [moves]
    simp [Firmware.moved, pingPong, here, Place.statement, awake]
  have supply : t.system.board.supply pongSem = s.system.board.supply pongSem + 1 := by
    have flow := legal.flow step admits (by simp) (x := pongSem) (by decide)
    rw [moves]
    simpa [Event.brings, Event.takes, Event.fetches, Event.givesBack] using flow
  have same : t.system.kernel.currentTcb = s.system.kernel.currentTcb := by
    rw [moves]
    exact board.current_kept (by simp)
  have ping : s.system.kernel.currentTcb = some pingTask := board.of_call.1.1
  have pong : t.place pongTask = s.place pongTask := by
    rw [place]
    exact Function.update_of_ne (by decide) _ _
  have first : t.place pingTask = .taking start i := by
    rw [place, Function.update_self]
  have requests : posts pongSem (⟨s, .kernel (.call pingTask (.semaphoreRelease pongSem) out), t⟩ ::
      past) = posts pongSem past + 1 := by
    simp [posts_cons, releases, Event.releases]
  have answered : posts pingSem (⟨s, .kernel (.call pingTask (.semaphoreRelease pongSem) out), t⟩ ::
      past) = posts pingSem past := by
    simp [posts_cons, releases, Event.releases, pingSem, pongSem]
  have still : switches (⟨s, .kernel (.call pingTask (.semaphoreRelease pongSem) out), t⟩ ::
      past) = switches past := by
    simp [switches_cons, same]
  have one := baton_le legal.one
  have began := paced.rounds
  have answers := paced.answers
  have served := paced.served
  rw [here] at one began served
  have had : (Place.giving start i).baton = 1 := rfl
  have rounds : (Place.giving start i).rounds + 1 = (Place.taking start i).rounds := rfl
  have level := served had
  rw [had] at one
  constructor
  · rw [requests, first]
    omega
  · rw [requests, answered, supply, pong]
    omega
  · rw [requests, answered, still]
    omega
  · rw [requests, answered, same, ping, if_neg (by omega)]
    exact fun _ => rfl
  · rw [first]
    intro asked
    cases asked

/-- An answer. -/
theorem Paced.answer {out : Outcome} (paced : Paced past s) (legal : Legal s)
    (step : Step idleTask s.system (.call pongTask (.semaphoreRelease pingSem) out) system)
    (admits : pingPong.Admits s (.call pongTask (.semaphoreRelease pingSem) out))
    (here : s.place pongTask = .answering) (t : Execution Rig Place)
    (moves : t = ⟨system, d, pingPong.moved s (.call pongTask (.semaphoreRelease pingSem) out)⟩) :
    Paced (⟨s, .kernel (.call pongTask (.semaphoreRelease pingSem) out), t⟩ :: past) t := by
  have board := step.refines legal.sound
  have awake : out ≠ .parked := by
    rintro rfl
    cases board.parks
  have place : t.place = Function.update s.place pongTask .waiting := by
    rw [moves]
    simp [Firmware.moved, pingPong, here, Place.statement, awake]
  have supply : t.system.board.supply pongSem = s.system.board.supply pongSem := by
    have flow := legal.flow step admits (by simp) (x := pongSem) (by decide)
    rw [moves]
    simpa [Event.brings, Event.takes, Event.fetches, Event.givesBack, pingSem, pongSem] using flow
  have same : t.system.kernel.currentTcb = s.system.kernel.currentTcb := by
    rw [moves]
    exact board.current_kept (by simp)
  have pong : s.system.kernel.currentTcb = some pongTask := board.of_call.1.1
  have ping : t.place pingTask = s.place pingTask := by
    rw [place]
    exact Function.update_of_ne (by decide) _ _
  have last : t.place pongTask = .waiting := by
    rw [place, Function.update_self]
  have requests : posts pongSem (⟨s, .kernel (.call pongTask (.semaphoreRelease pingSem) out), t⟩ ::
      past) = posts pongSem past := by
    simp [posts_cons, releases, Event.releases, pingSem, pongSem]
  have answered : posts pingSem (⟨s, .kernel (.call pongTask (.semaphoreRelease pingSem) out), t⟩ ::
      past) = posts pingSem past + 1 := by
    simp [posts_cons, releases, Event.releases]
  have still : switches (⟨s, .kernel (.call pongTask (.semaphoreRelease pingSem) out), t⟩ ::
      past) = switches past := by
    simp [switches_cons, same]
  have one := baton_le legal.one
  have answers := paced.answers
  have switched := paced.switched
  have turn := paced.turn
  rw [here] at one answers
  have had : Place.answering.baton = 1 := rfl
  have none : Place.waiting.baton = 0 := rfl
  rw [had] at one answers
  -- ping made the last request, and pong runs
  have late : posts pongSem past + posts pingSem past ≤ switches past := by
    by_contra early
    have whose := turn (by omega)
    rw [pong, if_neg (by omega)] at whose
    cases whose
  constructor
  · rw [requests, ping]
    exact paced.rounds
  · rw [requests, answered, supply, last, none]
    omega
  · rw [requests, answered, still]
    omega
  · rw [requests, answered, same, pong, if_pos (by omega)]
    exact fun _ => rfl
  · rw [ping]
    intro has
    omega

theorem Legal.at_taking (legal : Legal s) {t : TaskId} {n : UInt32} {x : Nat}
    {next : Outcome → Place} (here : (s.place t).statement = .call (.semaphoreAcquire x n) next) :
    (t = pingTask ∧ x = pingSem) ∨ t = pongTask ∧ x = pongSem := by
  rcases Place.at_acquire here with ⟨start, i, place, rfl⟩ | ⟨place, rfl⟩
  · exact .inl ⟨legal.at_giving (.inr place), rfl⟩
  · exact .inr ⟨legal.at_waiting (.inl place), rfl⟩

/-- Without a release, what pong has to answer stays the same. -/
theorem Legal.unanswered_kept (legal : Legal s) (step : Step idleTask s.system e system)
    (admits : pingPong.Admits s e) (silent : ∀ x ∈ sems, e ≠ .post x)
    (quiet : ∀ x ∈ sems, e.releases x = false) :
    system.board.supply pongSem + (pingPong.moved s e pongTask).baton =
      s.system.board.supply pongSem + (s.place pongTask).baton := by
  have board := step.refines legal.sound
  have kept : ∀ x ∈ sems, ∀ t, e.givesBack x t = false := by
    intro x there t
    by_contra gives
    obtain ⟨out, rfl⟩ := Event.givesBack_iff.mp (by simpa using gives)
    simpa [Event.releases] using quiet x there
  have elsewhere : ∀ t, t ≠ pongTask → e.brings pongSem t = 0 := by
    intro t other
    apply legal.placed.brings_zero admits board
    intro n next here
    rcases legal.at_taking here with ⟨_, same⟩ | ⟨same, _⟩
    · cases same
    · exact other same
  have other : e.brings pingSem pongTask = 0 := by
    apply legal.placed.brings_zero admits board
    intro n next here
    rcases legal.at_taking here with ⟨same, _⟩ | ⟨_, same⟩ <;> cases same
  have flow := legal.flow step admits silent (x := pongSem) (by decide)
  have hand := passes.in_hand legal.placed legal.tracked admits board pongTask
  rw [Finset.sum_eq_single pongTask (fun t _ => elsewhere t) (by simp)] at flow
  have pair : ∑ x ∈ sems, e.brings x pongTask = e.brings pingSem pongTask + e.brings pongSem pongTask :=
    Finset.sum_pair (by decide)
  have given : ∑ x ∈ sems, (if e.givesBack x pongTask then 1 else 0) = 0 :=
    Finset.sum_eq_zero fun x there => by simp [kept x there]
  simp only [kept pongSem (by decide), Bool.false_eq_true, if_false, Finset.sum_const_zero] at flow
  omega

/-- Anything else that happens in the kernel. -/
theorem Paced.event (paced : Paced past s) (legal : Legal s)
    (step : Step idleTask s.system e system) (admits : pingPong.Admits s e)
    (silent : ∀ x ∈ sems, e ≠ .post x) (quiet : ∀ x ∈ sems, e.releases x = false)
    (unmade : ∀ x ∈ sems, releases x a = false) {t : Execution Rig Place}
    (moves : t = ⟨system, d, pingPong.moved s e⟩)
    (one : Firmware.total sems Place.baton t = 1) : Paced (⟨s, a, t⟩ :: past) t := by
  have board := step.refines legal.sound
  have requests : posts pongSem (⟨s, a, t⟩ :: past) = posts pongSem past := by
    simp [posts_cons, unmade pongSem (by decide)]
  have answered : posts pingSem (⟨s, a, t⟩ :: past) = posts pingSem past := by
    simp [posts_cons, unmade pingSem (by decide)]
  have answers : posts pongSem past =
      posts pingSem past + t.system.board.supply pongSem + (t.place pongTask).baton := by
    have kept := legal.unanswered_kept step admits silent quiet
    have before := paced.answers
    rw [moves]
    dsimp only
    omega
  have alone := baton_le one
  have turn := paced.turn
  have switched := paced.switched
  have pings := (legal.stands pingTask).ping rfl
  have place : t.place = pingPong.moved s e := by rw [moves]
  -- ping goes on as the running task, from where it has not served yet
  have goes : (t.place pingTask).rounds = (s.place pingTask).rounds ∧
      (t.place pingTask = s.place pingTask ∨ s.system.kernel.currentTcb = some pingTask) := by
    rw [place]
    rcases pingPong.moved_cases s e pingTask with ⟨same, _⟩ | ⟨c, c', next, out, here, awake, event, after⟩
    · rw [same]
      exact ⟨rfl, .inl rfl⟩
    · obtain ⟨rfl, parks⟩ := legal.placed.of_returned admits board here event
      rw [after]
      refine ⟨Place.rounds_call pings here ?_, .inr ?_⟩
      · rintro rfl
        rcases event with rfl | rfl
        · have never := quiet pongSem (by decide)
          simp [Event.releases] at never
        · cases parks rfl
      · rcases event with rfl | rfl
        · exact board.of_call.1.1
        · exact board.of_resume.1.1
  have counted : switches (⟨s, a, t⟩ :: past) = switches past +
      if s.system.kernel.currentTcb ≠ t.system.kernel.currentTcb then 1 else 0 := switches_cons _
  refine ⟨?_, ?_, ?_, ?_, ?_⟩
  · rw [requests, goes.1]
    exact paced.rounds
  · rw [requests, answered]
    exact answers
  · rw [requests, answered, counted]
    omega
  · rw [requests, answered, counted]
    by_cases same : s.system.kernel.currentTcb = t.system.kernel.currentTcb
    · rw [if_neg (by simpa using same), ← same]
      exact turn
    · rw [if_pos same]
      omega
  · rw [requests, answered, counted]
    intro serves
    have level : posts pongSem past + posts pingSem past ≤ switches past := by
      rcases goes.2 with same | ping
      · exact paced.served (same ▸ serves)
      · by_contra early
        have whose := turn (by omega)
        rw [ping, if_pos (by omega)] at whose
        cases whose
    omega

/-- A move that the kernel does not see. -/
theorem Paced.unseen (paced : Paced past s) {t : Execution Rig Place} (system : t.system = s.system)
    (unmade : ∀ x, releases x a = false) (baton : ∀ v, (t.place v).baton = (s.place v).baton)
    (rounds : (t.place pingTask).rounds = (s.place pingTask).rounds) :
    Paced (⟨s, a, t⟩ :: past) t := by
  have same : ∀ x, posts x (⟨s, a, t⟩ :: past) = posts x past := by
    intro x
    simp [posts_cons, unmade]
  have still : switches (⟨s, a, t⟩ :: past) = switches past := by
    simp [switches_cons, system]
  constructor
  · rw [same, rounds]
    exact paced.rounds
  · rw [same, same, system, baton]
    exact paced.answers
  · rw [same, same, still]
    exact paced.switched
  · rw [same, same, still, system]
    exact paced.turn
  · rw [same, same, still, baton]
    exact paced.served

theorem Paced.step {t : Execution Rig Place} (paced : Paced past s) (legal : Legal s)
    (after : Legal t) (h : pingPong.Step idleTask s a t) : Paced (⟨s, a, t⟩ :: past) t := by
  cases h with
  | @kernel e system step allowed =>
    have admits := Firmware.admits_of_allows allowed
    have silent : ∀ x ∈ sems, e ≠ .post x := by
      rintro x _ rfl
      cases allowed
    by_cases quiet : ∀ x ∈ sems, e.releases x = false
    · exact paced.event legal step admits silent quiet (a := .kernel e) quiet rfl after.one
    · push Not at quiet
      obtain ⟨x, there, release⟩ := quiet
      rcases legal.release_cases admits silent there (by simpa using release) with
        ⟨_, out, start, i, rfl, here⟩ | ⟨_, out, rfl, here⟩
      · exact paced.request legal step admits here _ rfl
      · exact paced.answer legal step admits here _ rfl
  | @access u f runs free here =>
    refine Paced.unseen paced rfl (fun _ => rfl) ?_ ?_
    · intro v
      by_cases self : v = u
      · subst self
        simp [passes.access s.shared here]
      · simp [self]
    · by_cases self : pingTask = u
      · subst self
        simp [Place.rounds_access (d := s.shared) ((legal.stands _).ping rfl) here]
      · simp [self]
  | interrupt i =>
    have apart := passes.interrupt i s.shared
    have one := after.one
    generalize (pingPong.interrupt i s.shared).2 = posted at apart one ⊢
    cases posted with
    | none => exact paced.unseen rfl (fun _ => rfl) (fun _ => rfl) rfl
    | some z =>
      have step : Step idleTask s.system (.post z) (Firmware.post (some z) s.system) := .post z
      have silent : ∀ x ∈ sems, z ≠ x := by
        rintro x there rfl
        exact apart z rfl there
      exact paced.event legal step (Firmware.admits_post z)
        (fun x there same => silent x there (Event.post.inj same))
        (fun x there => decide_eq_false (silent x there)) (fun _ _ => rfl) rfl one

theorem BenchRun.paced (run : BenchRun past s) : Paced past s := by
  induction run with
  | start wired =>
    have outside := wired.base
    have first : ∀ t, _ = firstPlace t := congrFun wired.place
    have one := baton_le outside.1
    rw [first pingTask, first pongTask] at one
    have level : (firstPlace pingTask).baton = 1 := rfl
    constructor
    · rw [first]
      rfl
    · rw [first]
      change 0 = 0 + _ + 0
      omega
    · exact Nat.zero_le _
    · intro asked
      cases asked
    · exact fun _ => Nat.le_refl _
  | next run step ih => exact ih.step (BenchRun.legal run) (BenchRun.legal (.next run step)) step

/-- A task that releases one of the semaphores has the baton. -/
theorem Legal.empty {t : Execution Rig Place} (legal : Legal s) (step : pingPong.Step idleTask s a t)
    {x : Nat} (there : x ∈ sems) (release : releases x a) :
    (s.system.kernel.semaphores x).count = 0 := by
  have one := baton_le legal.one
  have counted : ∀ x, (s.system.kernel.semaphores x).count ≤ s.system.board.supply x := fun x =>
    Nat.le_add_right _ _
  have first := counted pingSem
  have second := counted pongSem
  cases step with
  | @kernel e system step allowed =>
    have silent : ∀ x ∈ sems, e ≠ .post x := by
      rintro x _ rfl
      cases allowed
    rcases legal.release_cases (Firmware.admits_of_allows allowed) silent there release with
      ⟨rfl, _, start, i, _, here⟩ | ⟨rfl, _, _, here⟩
    · have had : (Place.giving start i).baton = 1 := rfl
      rw [here, had] at one
      omega
    · have had : Place.answering.baton = 1 := rfl
      rw [here, had] at one
      omega
  | access | interrupt => cases release

/-- The benchmark is over. -/
def Place.measured : Place → Bool
  | .measuring _ | .printing _ | .polling _ _ | .writing _ _ | .resting => true
  | _ => false

/-- **Ping-pong.** However the tasks are interleaved, answers and requests alternate and none of
their tokens is dropped. What has been measured in the end is `BENCH_ITERATIONS` round trips, each
with its two context switches. -/
theorem ping_pong (run : BenchRun past s) :
    (posts pingSem past ≤ posts pongSem past ∧ posts pongSem past ≤ posts pingSem past + 1) ∧
    (∀ y ∈ past, ∀ x ∈ sems, releases x y.event → (y.pre.system.kernel.semaphores x).count = 0) ∧
    posts pongSem past + posts pingSem past ≤ switches past + 1 ∧
    ((s.place pingTask).measured → posts pongSem past = benchIterations.toNat ∧
      posts pingSem past = benchIterations.toNat ∧ 2 * benchIterations.toNat ≤ switches past) := by
  have paced := run.paced
  have one := baton_le run.legal.one
  have answers := paced.answers
  refine ⟨⟨by omega, by omega⟩, ?_, paced.switched, ?_⟩
  · intro y before x there release
    obtain ⟨older, early, step⟩ := run.mem before
    exact (BenchRun.legal early).empty step there release
  · intro measured
    have all : (s.place pingTask).baton = 1 ∧ (s.place pingTask).rounds = benchIterations.toNat := by
      cases here : s.place pingTask with
      | measuring | printing | polling | writing | resting => exact ⟨rfl, rfl⟩
      | _ =>
        rw [here] at measured
        cases measured
    have served := paced.served all.1
    have rounds := paced.rounds
    rw [all.2] at rounds
    omega

end
/-! ### A run that can be computed -/

def benchSemaphores (x : Nat) : OsSemaphore :=
  if x = pingSem ∨ x = pongSem then ⟨0, 1⟩ else mainSemaphores x

/-- Moves played from the launch of the tasks with the priorities of `main.c`. -/
def watch : (BenchLog → Execution Rig Place → Bool) → List (Move Source) → Bool :=
  pingPong.rehearse idleTask benchSemaphores [2, 2, 0] ⟨mainPeripherals, 0⟩ firstPlace

theorem watch_run {goal : BenchLog → Execution Rig Place → Bool} {moves : List (Move Source)}
    (done : watch goal moves = true) : ∃ past s, BenchRun past s ∧ goal past s = true := by
  apply Firmware.rehearse_run (by decide) _ done
  intro system started
  exact ⟨started.launched, congrFun started.semaphores _, congrFun started.semaphores _, rfl⟩

/-- The first round. -/
def untilAnswer : List (Move Source) :=
  [.kernel (.call pongTask (.semaphoreAcquire pongSem waitForever) .parked), .kernel .pass,
    .kernel (.call pingTask (.delay 100) .parked), .kernel .pass] ++
  List.replicate 100 (.kernel .tick) ++
  [.kernel .pass, .kernel (.resume pingTask (.delay 100) .finished),
    .access pingTask, .access pingTask,
    .kernel (.call pingTask (.semaphoreRelease pongSem) .finished),
    .kernel (.call pingTask (.semaphoreAcquire pingSem waitForever) .parked), .kernel .pass,
    .kernel (.resume pongTask (.semaphoreAcquire pongSem waitForever) (.returned .success)),
    .kernel (.call pongTask (.semaphoreRelease pingSem) .finished)]

/-- The first round has been played. -/
theorem ping_pong_first : ∃ past s, BenchRun past s ∧ posts pingSem past = 1 ∧
    (posts pingSem past ≤ posts pongSem past ∧ posts pongSem past ≤ posts pingSem past + 1) ∧
    (∀ y ∈ past, ∀ x ∈ sems, releases x y.event → (y.pre.system.kernel.semaphores x).count = 0) ∧
    posts pongSem past + posts pingSem past ≤ switches past + 1 ∧
    ((s.place pingTask).measured → posts pongSem past = benchIterations.toNat ∧
      posts pingSem past = benchIterations.toNat ∧ 2 * benchIterations.toNat ≤ switches past) := by
  obtain ⟨past, s, run, played⟩ := watch_run
    (show watch (fun past _ => posts pingSem past = 1) untilAnswer by decide +kernel)
  exact ⟨past, s, run, of_decide_eq_true played, ping_pong run⟩

end Sentinel.Microbench
