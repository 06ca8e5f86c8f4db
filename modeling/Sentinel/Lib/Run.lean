import Mathlib.Logic.Basic

/-! Labelled runs of a transition system. A run keeps the transitions it made,
latest first, so that statements can speak of what has happened so far. -/

namespace Runs

/-- The state before, the label, and the state after. -/
structure Transition (σ ε : Type) where
  pre : σ
  event : ε
  post : σ

variable {σ ε : Type}

inductive Run (start : σ → Prop) (step : σ → ε → σ → Prop) :
    List (Transition σ ε) → σ → Prop
  | start {s : σ} : start s → Run start step [] s
  | next {past : List (Transition σ ε)} {s t : σ} {e : ε} :
      Run start step past s → step s e t → Run start step (⟨s, e, t⟩ :: past) t

variable {start : σ → Prop} {step : σ → ε → σ → Prop}

/-- A predicate that the start establishes and every step keeps, given the
transitions made before, holds at the end of every run. -/
theorem Run.induct {P : List (Transition σ ε) → σ → Prop} {past : List (Transition σ ε)} {s : σ}
    (run : Run start step past s) (base : ∀ s, start s → P [] s)
    (keep : ∀ past s e t, Run start step past s → P past s → step s e t →
      P (⟨s, e, t⟩ :: past) t) : P past s := by
  induction run with
  | start h => exact base _ h
  | next run h ih => exact keep _ _ _ _ run ih h

theorem Run.invariant {P : σ → Prop} {past : List (Transition σ ε)} {s : σ}
    (run : Run start step past s) (base : ∀ s, start s → P s)
    (keep : ∀ s e t, P s → step s e t → P t) : P s := by
  induction run with
  | start h => exact base _ h
  | next _ h ih => exact keep _ _ _ ih h

theorem Run.weaken {start' : σ → Prop} {step' : σ → ε → σ → Prop}
    {past : List (Transition σ ε)} {s : σ} (run : Run start step past s)
    (base : ∀ s, start s → start' s) (keep : ∀ s e t, step s e t → step' s e t) :
    Run start' step' past s := by
  induction run with
  | start h => exact .start (base _ h)
  | next _ h ih => exact .next ih (keep _ _ _ h)

/-- What every step satisfies on the way can be made part of the step relation. -/
theorem Run.enrich {start' : σ → Prop} {step' : σ → ε → σ → Prop}
    {past : List (Transition σ ε)} {s : σ} (run : Run start step past s)
    (base : ∀ s, start s → start' s)
    (keep : ∀ past s e t, Run start step past s → step s e t → step' s e t) :
    Run start' step' past s := by
  induction run with
  | start h => exact .start (base _ h)
  | next run h ih => exact .next ih (keep _ _ _ _ run h)

/-- What is seen of a run through `view`: the transitions with a label that `seen` shows. -/
def project {τ κ : Type} (view : σ → τ) (seen : σ → ε → Option κ) (past : List (Transition σ ε)) :
    List (Transition τ κ) :=
  past.filterMap fun x => (seen x.pre x.event).map fun k => ⟨view x.pre, k, view x.post⟩

/-- When each step is a step there, or cannot be seen, a run is a run there. -/
theorem Run.project {τ κ : Type} {start' : τ → Prop} {step' : τ → κ → τ → Prop} {view : σ → τ}
    {seen : σ → ε → Option κ} {past : List (Transition σ ε)} {s : σ}
    (run : Run start step past s) (base : ∀ s, start s → start' (view s))
    (keep : ∀ past s e t, Run start step past s → step s e t →
      (∃ k, seen s e = some k ∧ step' (view s) k (view t)) ∨ seen s e = none ∧ view t = view s) :
    Run start' step' (project view seen past) (view s) := by
  induction run with
  | start h => exact .start (base _ h)
  | @next past s t e run h ih =>
    rcases keep past s e t run h with ⟨k, shown, step⟩ | ⟨hidden, same⟩
    · have grows : Runs.project view seen (⟨s, e, t⟩ :: past) =
          ⟨view s, k, view t⟩ :: Runs.project view seen past := by
        simp [Runs.project, shown]
      rw [grows]
      exact .next ih step
    · have stays : Runs.project view seen (⟨s, e, t⟩ :: past) = Runs.project view seen past := by
        simp [Runs.project, hidden]
      rw [stays, same]
      exact ih

/-- A run cut at any earlier moment: the run up to there, and the run from there. -/
theorem Run.cut {recent older : List (Transition σ ε)} {s : σ}
    (run : Run start step (recent ++ older) s) :
    ∃ t, Run start step older t ∧ Run (· = t) step recent s := by
  induction recent generalizing s with
  | nil => exact ⟨s, run, .start rfl⟩
  | cons x recent ih =>
    cases run with
    | next run h =>
      obtain ⟨t, early, late⟩ := ih run
      exact ⟨t, early, .next late h⟩

/-- Two runs that meet compose. -/
theorem Run.append {recent older : List (Transition σ ε)} {s t : σ}
    (early : Run start step older t) (late : Run (· = t) step recent s) :
    Run start step (recent ++ older) s := by
  induction late with
  | start h => subst h; exact early
  | next _ h ih => exact .next ih h

/-- Every transition of a run is a step from a state that the run had reached. -/
theorem Run.transition {recent older : List (Transition σ ε)} {x : Transition σ ε} {s : σ}
    (run : Run start step (recent ++ x :: older) s) :
    Run start step older x.pre ∧ step x.pre x.event x.post ∧
      Run (· = x.post) step recent s := by
  obtain ⟨t, early, late⟩ := run.cut
  cases early with
  | next early h => exact ⟨early, h, late⟩

/-- The same for a transition of which only membership is known. -/
theorem Run.mem {past : List (Transition σ ε)} {x : Transition σ ε} {s : σ}
    (run : Run start step past s) (there : x ∈ past) :
    ∃ older, Run start step older x.pre ∧ step x.pre x.event x.post := by
  obtain ⟨recent, older, rfl⟩ := List.append_of_mem there
  exact ⟨older, run.transition.1, run.transition.2.1⟩

/-- A run keeps to a rule when each of its transitions does. -/
theorem Run.obey {rule : σ → ε → Prop} {past : List (Transition σ ε)} {s : σ}
    (run : Run start step past s) (obeyed : ∀ x ∈ past, rule x.pre x.event) :
    Run start (fun s e t => step s e t ∧ rule s e) past s := by
  induction run with
  | start h => exact .start h
  | next _ h ih =>
    exact .next (ih fun x hx => obeyed x (List.mem_cons_of_mem _ hx))
      ⟨h, obeyed _ List.mem_cons_self⟩

/-- A list of events played from a state by a step function, with the run it makes. -/
def play (next : σ → ε → Option σ) :
    List ε → List (Transition σ ε) → σ → Option (List (Transition σ ε) × σ)
  | [], past, s => some (past, s)
  | e :: rest, past, s =>
    match next s e with
    | some t => play next rest (⟨s, e, t⟩ :: past) t
    | none => none

theorem play_run {next : σ → ε → Option σ} {events : List ε} {past past' : List (Transition σ ε)}
    {s s' : σ} (played : play next events past s = some (past', s'))
    (run : Run start (fun s e t => next s e = some t) past s) :
    Run start (fun s e t => next s e = some t) past' s' := by
  induction events generalizing past s with
  | nil =>
    obtain ⟨rfl, rfl⟩ := Prod.mk.inj (Option.some.inj played)
    exact run
  | cons e rest ih =>
    simp only [play] at played
    split at played
    · rename_i t done
      exact ih played (.next run done)
    · cases played

end Runs
