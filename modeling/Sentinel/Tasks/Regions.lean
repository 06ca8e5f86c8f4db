import Sentinel.Tasks.Firmware

/-! Critical regions. The places of a program between the acquire of a mutex and its release
belong to the owner of the mutex. Where no statement of a region waits, the owner can go on. -/

namespace Sentinel.Firmware

open Runs (Transition Run)

variable {δ ρ ι : Type}

/-- The region of a mutex in a program. It is entered by an acquire that waits for ever, or whose
result has been looked at, and it is left by the release. -/
structure Brackets (fw : Firmware δ ρ ι) (m : Nat) (region : ρ → Bool) : Prop where
  acquire : ∀ {p n next}, fw.code p = .call (.mutexAcquire m n) next →
    region (next (.returned .success))
  enter : ∀ {p c next out}, fw.code p = .call c next → region p = false → region (next out) →
    ∃ n, c = .mutexAcquire m n ∧ (n = waitForever ∨ out = .returned .success)
  leave : ∀ {p c next out}, fw.code p = .call c next → region p → region (next out) = false →
    c = .mutexRelease m
  release : ∀ {p next}, fw.code p = .call (.mutexRelease m) next →
    region p ∧ ∀ out, region (next out) = false
  access : ∀ {p f} (d : δ), fw.code p = .access f → region (f d).2 = region p

/-- The call in which a task is parked is the one at its place. -/
def Placed (fw : Firmware δ ρ ι) (s : Execution δ ρ) : Prop :=
  ∀ t c, s.system.inside t = some c → fw.may s t c ∧ c.parks

/-- Whoever is in the region owns the mutex. The owner is in the region, or on its way. -/
structure Guarded (m : Nat) (region : ρ → Bool) (s : Execution δ ρ) : Prop where
  excludes : s.system.board.Excludes m
  inside : ∀ t, region (s.place t) → (s.system.kernel.mutexes m).owner = some t
  owner : ∀ t, (s.system.kernel.mutexes m).owner = some t →
    region (s.place t) ∨ ∃ n, s.system.inside t = some (.mutexAcquire m n)

section
variable {fw : Firmware δ ρ ι} {idle : TaskId} {s t : Execution δ ρ} {a : Move ι} {m : Nat}
  {region : ρ → Bool} {u : TaskId} {e : Event} {system : System} {d : δ}

theorem may_congr {c : Call} (same : t.place u = s.place u) : fw.may t u c = fw.may s u c := by
  rw [may, may, same]

/-- The events of the kernel, and the posts of the interrupt handlers. -/
def Admits (fw : Firmware δ ρ ι) (s : Execution δ ρ) (e : Event) : Prop :=
  ∀ t c out, e = .call t c out → fw.may s t c

theorem admits_of_allows (allowed : fw.allows s e) : fw.Admits s e := by
  rintro t c out rfl
  exact allowed

theorem admits_post (x : Nat) : fw.Admits s (.post x) := nofun

theorem Placed.event (placed : fw.Placed s) (sound : s.system.board.Sound idle)
    (step : Sentinel.Step idle s.system e system) (admits : fw.Admits s e) :
    fw.Placed ⟨system, d, fw.moved s e⟩ := by
  intro u c inside
  have board := step.refines sound
  have before : fw.may s u c ∧ c.parks := by
    rcases board.of_inside inside with before | parks
    · exact placed u c before
    · subst parks
      exact ⟨admits u c _ rfl, board.parks⟩
  rcases fw.moved_cases s e u with ⟨same, _⟩ | ⟨_, c', _, out, _, awake, event, _⟩
  · have kept : fw.may ⟨system, d, fw.moved s e⟩ u c = fw.may s u c := may_congr same
    rwa [kept]
  · rcases event with rfl | rfl
    · rcases board.of_inside inside with busy | parks
      · cases board.of_call.2.symm.trans busy
      · cases parks
        exact absurd rfl awake
    · have gone : system.board.inside u = none := by simp [board.of_resume.2.2.2]
      cases gone.symm.trans inside

/-- The call that returns to a task is the one at its place. -/
theorem Placed.of_returned {c c' : Call} {next : Outcome → ρ} {out : Outcome} {b : Board}
    (placed : fw.Placed s) (admits : fw.Admits s e) (board : BoardStep idle s.system.board e b)
    (here : fw.code (s.place u) = .call c next) (event : e = .call u c' out ∨ e = .resume u c' out) :
    c' = c ∧ (e = .resume u c' out → c.parks) := by
  have same : ∀ {c''}, fw.may s u c'' → c'' = c := by
    intro c'' may
    obtain ⟨_, here'⟩ := may_iff.mp may
    rw [here] at here'
    cases here'
    rfl
  rcases event with rfl | rfl
  · exact ⟨same (admits u c' out rfl), nofun⟩
  · obtain ⟨may, parks⟩ := placed u c' board.of_resume.2.1
    obtain rfl := same may
    exact ⟨rfl, fun _ => parks⟩

/-- Who enters the region has been given the mutex. -/
theorem Guarded.enters {c : Call} {next : Outcome → ρ} {out : Outcome} {b : Board}
    (guarded : Guarded m region s) (brackets : fw.Brackets m region)
    (tracked : s.system.board.Tracked) (board : BoardStep idle s.system.board e b)
    (awake : out ≠ .parked) (here : fw.code (s.place u) = .call c next)
    (event : e = .call u c out ∨ e = .resume u c out) (outside : region (s.place u) = false) (enters : region (next out)) :
    ∃ n, c = .mutexAcquire m n ∧ out = .returned .success := by
  obtain ⟨n, rfl, patient⟩ := brackets.enter here outside enters
  refine ⟨n, rfl, ?_⟩
  rcases patient with rfl | success
  · have own : (s.system.board.mutexes m).owner = some u → ∃ n, s.system.board.inside u =
        some (.mutexAcquire m n) := by
      intro own
      rcases guarded.owner u own with inside | waits
      · cases outside.symm.trans inside
      · exact waits
    rcases event with rfl | rfl
    · cases board with
      | hand posts | put posts | drop posts => rcases posts with posts | ⟨_, posts, _⟩ <;> cases posts
      | lock => rfl
      | waitMutex => exact absurd rfl awake
      | reenter _ free mine =>
        obtain ⟨_, waits⟩ := own mine
        cases free.symm.trans waits
    · obtain ⟨runs, inside, result, _⟩ := board.of_resume
      rcases tracked.woken runs inside with ⟨n, limit, _⟩ | woken
      · cases limit
      · rw [result, Call.result, woken]
  · exact success

/-- The mutex is released by its owner. -/
theorem Guarded.releases (guarded : Guarded m region s) (brackets : fw.Brackets m region)
    (admits : fw.Admits s e) (released : e = .call u (.mutexRelease m) .finished) :
    (s.system.kernel.mutexes m).owner = some u := by
  obtain ⟨_, here⟩ := may_iff.mp (admits u _ _ released)
  exact guarded.inside u (brackets.release here).1

/-- A task in the region after an event owns the mutex. -/
theorem Guarded.inside_event (guarded : Guarded m region s) (placed : fw.Placed s)
    (brackets : fw.Brackets m region) (sound : s.system.board.Sound idle)
    (tracked : s.system.board.Tracked) (board : BoardStep idle s.system.board e system.board)
    (admits : fw.Admits s e) (inside : region (fw.moved s e u)) :
    (system.kernel.mutexes m).owner = some u := by
  have rule : ∀ v, e = .call v (.mutexRelease m) .finished →
      (s.system.board.mutexes m).owner = some v := fun v => guarded.releases brackets admits
  rcases fw.moved_cases s e u with ⟨same, silent⟩ | ⟨c, c', next, out, here, awake, event, after⟩
  · have before : region (s.place u) := same ▸ inside
    apply board.owner_kept sound rule (guarded.inside u before)
    rintro out rfl
    obtain ⟨next, here⟩ := may_iff.mp (admits u _ _ rfl)
    cases board.mutexEffect m with
    | kept _ unreleased => exact unreleased u out rfl
    | locked _ _ event => cases event
    | unlocked _ event | handed _ _ event =>
      cases event
      exact (silent _ next _ here (by simp) (.mutexRelease m)).1 rfl
  · obtain ⟨rfl, _⟩ := placed.of_returned admits board here event
    have enters : region (next out) := after ▸ inside
    cases before : region (s.place u) with
    | true =>
      apply board.owner_kept sound rule (guarded.inside u before)
      rintro out' rfl
      rcases event with event | event <;> cases event
      cases ((brackets.release here).2 out).symm.trans enters
    | false =>
      obtain ⟨n, rfl, rfl⟩ := guarded.enters brackets tracked board awake here event before enters
      exact (board.returns_owner sound guarded.excludes event).1 rfl

/-- An acquire that succeeds leads into the region. -/
theorem Brackets.entered {n : UInt32} {b : Board} (brackets : fw.Brackets m region)
    (placed : fw.Placed s) (board : BoardStep idle s.system.board e b) (admits : fw.Admits s e)
    (returns : e.Returns u (.mutexAcquire m n) .success) : region (fw.moved s e u) := by
  have may : fw.may s u (.mutexAcquire m n) := by
    rcases returns with rfl | rfl
    · exact admits u _ _ rfl
    · exact (placed u _ board.of_resume.2.1).1
  obtain ⟨next, here⟩ := may_iff.mp may
  have after : fw.moved s e u = next (.returned .success) := by
    rcases returns with rfl | rfl <;> simp [moved, here]
  rw [after]
  exact brackets.acquire here

/-- An owner that has not released the mutex is still in the region, or on its way. -/
theorem Guarded.owner_stays (guarded : Guarded m region s) (placed : fw.Placed s)
    (brackets : fw.Brackets m region) (sound : s.system.board.Sound idle)
    (board : BoardStep idle s.system.board e system.board) (admits : fw.Admits s e)
    (own : (s.system.kernel.mutexes m).owner = some u)
    (unreleased : ∀ out, e ≠ .call u (.mutexRelease m) out) :
    region (fw.moved s e u) ∨ ∃ n, system.inside u = some (.mutexAcquire m n) := by
  rcases guarded.owner u own with inside | ⟨n, waits⟩
  · left
    rcases fw.moved_cases s e u with ⟨same, _⟩ | ⟨c, c', next, out, here, awake, event, after⟩
    · rwa [same]
    · obtain ⟨rfl, parks⟩ := placed.of_returned admits board here event
      rw [after]
      by_contra left
      obtain rfl := brackets.leave here inside (by simpa using left)
      rcases event with rfl | rfl
      · exact unreleased out rfl
      · cases parks rfl
  · by_cases silent : ∀ c out, e ≠ .resume u c out
    · exact .inr ⟨n, board.inside_kept waits silent⟩
    · push Not at silent
      obtain ⟨c, out, rfl⟩ := silent
      obtain ⟨_, waits', result, _⟩ := board.of_resume
      obtain rfl : c = .mutexAcquire m n := Option.some.inj (waits'.symm.trans waits)
      rcases guarded.excludes.woken u n (board.woken_of_resume sound) with ⟨success, _⟩ | ⟨_, other⟩
      · rw [Call.result, success] at result
        exact .inl (brackets.entered placed board admits (.inr (by rw [result])))
      · exact absurd own other

theorem Guarded.owner_event (guarded : Guarded m region s) (placed : fw.Placed s)
    (brackets : fw.Brackets m region) (sound : s.system.board.Sound idle)
    (board : BoardStep idle s.system.board e system.board) (admits : fw.Admits s e)
    (own : (system.kernel.mutexes m).owner = some u) :
    region (fw.moved s e u) ∨ ∃ n, system.inside u = some (.mutexAcquire m n) := by
  cases board.mutexEffect m with
  | kept same unreleased =>
    have before : (s.system.kernel.mutexes m).owner = some u :=
      (congrArg OsMutex.owner same).symm.trans own
    exact guarded.owner_stays placed brackets sound board admits before (unreleased u)
  | locked v n event _ _ _ after =>
    obtain rfl : v = u := Option.some.inj ((congrArg OsMutex.owner after).symm.trans own)
    exact .inl (brackets.entered placed board admits (.inl event))
  | unlocked _ _ _ _ _ after => cases (congrArg OsMutex.owner after).symm.trans own
  | handed v next event _ _ queued after =>
    -- the new owner is still in the acquire that it waits in
    obtain rfl : next = u := Option.some.inj ((congrArg OsMutex.owner after).symm.trans own)
    obtain ⟨live, on⟩ := sound.queued _ _ queued
    obtain ⟨c, inside, waits⟩ := sound.waiting next _ live on
    refine .inr ?_
    cases c with
    | mutexAcquire m' n =>
      cases waits
      exact ⟨n, board.inside_kept inside (by simp [event])⟩
    | semaphoreAcquire | mutexRelease | semaphoreRelease | delay => cases waits

theorem Guarded.event (guarded : Guarded m region s) (placed : fw.Placed s)
    (brackets : fw.Brackets m region) (sound : s.system.board.Sound idle)
    (tracked : s.system.board.Tracked) (step : Sentinel.Step idle s.system e system)
    (admits : fw.Admits s e) : Guarded m region ⟨system, d, fw.moved s e⟩ := by
  have board := step.refines sound
  refine ⟨board.excludes sound (fun v => guarded.releases brackets admits) guarded.excludes, ?_, ?_⟩
  · intro u inside
    exact guarded.inside_event placed brackets sound tracked board admits inside
  · intro u own
    exact guarded.owner_event placed brackets sound board admits own

/-- A move of the firmware: an event of the kernel, an access to what is shared, or an interrupt
that posts nothing. -/
theorem Step.cases (h : fw.Step idle s a t) :
    (∃ e, Sentinel.Step idle s.system e t.system ∧ fw.Admits s e ∧ t.place = fw.moved s e) ∨
    (∃ u f, s.system.inside u = none ∧ fw.code (s.place u) = .access f ∧ t.system = s.system ∧
      t.place = Function.update s.place u (f s.shared).2) ∨
    t.system = s.system ∧ t.place = s.place := by
  cases h with
  | kernel step allowed => exact .inl ⟨_, step, admits_of_allows allowed, rfl⟩
  | access _ free here => exact .inr (.inl ⟨_, _, free, here, rfl, rfl⟩)
  | interrupt i =>
    generalize (fw.interrupt i s.shared).2 = x
    cases x with
    | none => exact .inr (.inr ⟨rfl, rfl⟩)
    | some x => exact .inl ⟨.post x, .post x, admits_post x, rfl⟩

theorem Placed.step (placed : fw.Placed s) (sound : s.system.board.Sound idle)
    (h : fw.Step idle s a t) : fw.Placed t := by
  rcases h.cases with ⟨e, step, admits, place⟩ | ⟨u, f, free, here, system, place⟩ | ⟨system, place⟩
  · have after := placed.event (d := t.shared) sound step admits
    rwa [← place] at after
  · intro v c inside
    rw [system] at inside
    have self : v ≠ u := by
      rintro rfl
      cases free.symm.trans inside
    have kept : fw.may t v c = fw.may s v c :=
      may_congr (by rw [place, Function.update_of_ne self])
    rw [kept]
    exact placed v c inside
  · intro v c inside
    rw [system] at inside
    have kept : fw.may t v c = fw.may s v c := may_congr (by rw [place])
    rw [kept]
    exact placed v c inside

theorem Guarded.step (guarded : Guarded m region s) (placed : fw.Placed s)
    (brackets : fw.Brackets m region) (sound : s.system.board.Sound idle)
    (tracked : s.system.board.Tracked) (h : fw.Step idle s a t) : Guarded m region t := by
  have keep : t.system = s.system → (∀ u, region (t.place u) = region (s.place u)) →
      Guarded m region t := by
    intro system place
    constructor
    · rw [system]
      exact guarded.excludes
    · intro u inside
      rw [system]
      exact guarded.inside u (place u ▸ inside)
    · intro u own
      rw [system] at own ⊢
      rw [place u]
      exact guarded.owner u own
  rcases h.cases with ⟨e, step, admits, place⟩ | ⟨u, f, free, here, system, place⟩ | ⟨system, place⟩
  · have after := guarded.event (d := t.shared) placed brackets sound tracked step admits
    rwa [← place] at after
  · apply keep system
    intro v
    by_cases self : v = u
    · subst self
      rw [place, Function.update_self]
      exact brackets.access _ here
    · rw [place, Function.update_of_ne self]
  · exact keep system fun u => by rw [place]

/-! ### Runs -/

/-- A launched system in which `m` is free and nobody is in its region. -/
structure Opens (m : Nat) (region : ρ → Bool) (idle : TaskId) (s : Execution δ ρ) : Prop where
  launched : Launched idle s.system
  free : (s.system.kernel.mutexes m).lock = 0
  outside : ∀ t, region (s.place t) = false

theorem Opens.guarded (opens : Opens m region idle s) : Guarded m region s := by
  refine ⟨opens.launched.excludes opens.free, ?_, ?_⟩
  · intro u inside
    cases (opens.outside u).symm.trans inside
  · intro u own
    cases (opens.launched.sound.owner_of_opened opens.free).symm.trans own

section
variable {start : Execution δ ρ → Prop} {past : List (Transition (Execution δ ρ) (Move ι))}

theorem sound_of_run (run : Run start (fw.Step idle) past s)
    (launched : ∀ s, start s → Launched idle s.system) :
    s.system.board.Sound idle ∧ s.system.board.Tracked := by
  have trace := fw.trace run launched
  exact ⟨trace.sound, trace.tracked⟩

theorem placed_of_run (run : Run start (fw.Step idle) past s)
    (launched : ∀ s, start s → Launched idle s.system) : fw.Placed s := by
  induction run with
  | start first =>
    obtain ⟨_, _, _, _, nobody⟩ := launched _ first
    intro t c inside
    cases (nobody t).symm.trans inside
  | next run step ih => exact ih.step (sound_of_run run launched).1 step

theorem guarded_of_run (run : Run start (fw.Step idle) past s) (brackets : fw.Brackets m region)
    (opens : ∀ s, start s → Opens m region idle s) : Guarded m region s := by
  have launched := fun s first => (opens s first).launched
  induction run with
  | start first => exact (opens _ first).guarded
  | next run step ih =>
    obtain ⟨sound, tracked⟩ := sound_of_run run launched
    exact ih.step (placed_of_run run launched) brackets sound tracked step

end

end

/-! ### What a mutex protects -/

/-- `Free` holds of what is shared while nobody is in the region, and `Held p` while somebody is
there, at `p`. Only the statements of the region touch what they speak of. -/
structure Resource (fw : Firmware δ ρ ι) (region : ρ → Bool) (At : ρ → Prop) (Free : δ → Prop)
    (Held : ρ → δ → Prop) : Prop where
  enter : ∀ {p d c next out}, At p → fw.code p = .call c next → region p = false →
    region (next out) → Free d → Held (next out) d
  stay : ∀ {p d c next out}, fw.code p = .call c next → region p → region (next out) → Held p d →
    Held (next out) d
  leave : ∀ {p d c next out}, fw.code p = .call c next → region p → region (next out) = false →
    Held p d → Free d
  access : ∀ {p d f}, fw.code p = .access f → region p → Held p d → Held (f d).2 (f d).1
  outside : ∀ {p d f}, fw.code p = .access f → region p = false →
    (Free d → Free (f d).1) ∧ ∀ q, Held q d → Held q (f d).1
  interrupt : ∀ {d} (i : ι), (Free d → Free (fw.interrupt i d).1) ∧
    ∀ q, Held q d → Held q (fw.interrupt i d).1

/-- The resource is in order: the task in the region has it, or nobody has. -/
structure InOrder (region : ρ → Bool) (Free : δ → Prop) (Held : ρ → δ → Prop)
    (s : Execution δ ρ) : Prop where
  held : ∀ t, region (s.place t) → Held (s.place t) s.shared
  free : (∀ t, region (s.place t) = false) → Free s.shared

section
variable {fw : Firmware δ ρ ι} {idle : TaskId} {s t : Execution δ ρ} {m : Nat} {region : ρ → Bool}
  {At : ρ → Prop} {Free : δ → Prop} {Held : ρ → δ → Prop} {a : Move ι}

theorem Guarded.alone {u v : TaskId} (guarded : Guarded m region s) (first : region (s.place u))
    (second : region (s.place v)) : u = v :=
  Option.some.inj ((guarded.inside u first).symm.trans (guarded.inside v second))

/-- A task that comes into the region finds the resource free, and one that leaves it puts it
back. -/
theorem Resource.moves {u : TaskId} {c : Call} {next : Outcome → ρ} {out : Outcome} {system : System}
    (rules : fw.Resource region At Free Held) (inOrder : InOrder region Free Held s)
    (after : Guarded m region ⟨system, s.shared, Function.update s.place u (next out)⟩)
    (here : fw.code (s.place u) = .call c next) (there : At (s.place u)) :
    InOrder region Free Held ⟨system, s.shared, Function.update s.place u (next out)⟩ := by
  have others : ∀ v, v ≠ u → Function.update s.place u (next out) v = s.place v := fun v self =>
    Function.update_of_ne self _ _
  constructor
  · intro v inside
    by_cases self : v = u
    · subst self
      simp only [Function.update_self] at inside ⊢
      cases was : region (s.place v) with
      | true => exact rules.stay here was inside (inOrder.held v was)
      | false =>
        apply rules.enter there here was inside
        apply inOrder.free
        intro w
        by_cases same : w = v
        · exact same ▸ was
        · by_contra within
          rw [Bool.not_eq_false, ← others w same] at within
          exact same (after.alone within (by simpa using inside))
    · simp only [others v self] at inside ⊢
      exact inOrder.held v inside
  · intro nobody
    cases was : region (s.place u) with
    | true => exact rules.leave here was (by simpa using nobody u) (inOrder.held u was)
    | false =>
      apply inOrder.free
      intro v
      by_cases self : v = u
      · exact self ▸ was
      · simpa [others v self] using nobody v

theorem Resource.step (rules : fw.Resource region At Free Held) (brackets : fw.Brackets m region)
    (before : Guarded m region s) (after : Guarded m region t) (there : ∀ u, At (s.place u))
    (inOrder : InOrder region Free Held s) (h : fw.Step idle s a t) :
    InOrder region Free Held t := by
  cases h with
  | @kernel e system step allowed =>
    rcases moved_returns s e with same | ⟨u, c, next, out, here, _, moves⟩
    · rw [same]
      exact ⟨inOrder.held, inOrder.free⟩
    · rw [moves] at after ⊢
      exact rules.moves inOrder after here (there u)
  | @access u f runs free here =>
    cases was : region (s.place u) with
    | true =>
      refine ⟨?_, ?_⟩
      · intro v inside
        by_cases self : v = u
        · subst self
          simpa using rules.access here was (inOrder.held v was)
        · simp only [Function.update_of_ne self] at inside
          exact absurd (before.alone inside was) self
      · intro nobody
        have now := nobody u
        simp only [Function.update_self, brackets.access s.shared here, was] at now
        cases now
    | false =>
      obtain ⟨free, held⟩ := rules.outside (d := s.shared) here was
      refine ⟨?_, ?_⟩
      · intro v inside
        by_cases self : v = u
        · subst self
          simp only [Function.update_self, brackets.access s.shared here, was] at inside
          cases inside
        · simp only [Function.update_of_ne self] at inside ⊢
          exact held _ (inOrder.held v inside)
      · intro nobody
        apply free
        apply inOrder.free
        intro v
        by_cases self : v = u
        · exact self ▸ was
        · simpa [self] using nobody v
  | interrupt i =>
    obtain ⟨free, held⟩ := rules.interrupt (d := s.shared) i
    exact ⟨fun v inside => held _ (inOrder.held v inside), fun nobody => free (inOrder.free nobody)⟩

/-- **The rule for a resource.** -/
theorem resource_of_run {start : Execution δ ρ → Prop}
    {past : List (Transition (Execution δ ρ) (Move ι))} (run : Run start (fw.Step idle) past s)
    (brackets : fw.Brackets m region) (opens : ∀ s, start s → Opens m region idle s)
    (rules : fw.Resource region At Free Held)
    (there : ∀ past s, Run start (fw.Step idle) past s → ∀ t, At (s.place t))
    (base : ∀ s, start s → Free s.shared) : InOrder region Free Held s := by
  induction run with
  | start first =>
    refine ⟨?_, fun _ => base _ first⟩
    intro t inside
    cases ((opens _ first).outside t).symm.trans inside
  | next run step ih =>
    exact rules.step brackets (guarded_of_run run brackets opens)
      (guarded_of_run (.next run step) brackets opens) (there _ _ run) ih step

end
end Sentinel.Firmware
