import Mathlib.Logic.Basic

/-! Programs that poll. A wait is given a number of rounds, and a program ends when any number that
is large enough is enough for all of its waits. -/

namespace Polling

variable {σ α β : Type}

/-- `none` is a wait that has not come to its end within the rounds, or a program that hangs. -/
def Poll (σ α : Type) := Nat → σ → Option (α × σ)

namespace Poll

instance : Monad (Poll σ) where
  pure a := fun _ s => some (a, s)
  bind p f := fun rounds s => (p rounds s).bind fun out => f out.1 rounds out.2

def look (f : σ → α) : Poll σ α := fun _ s => some (f s, s)

def update (f : σ → σ) : Poll σ Unit := fun _ s => some ((), f s)

/-- A step that takes no wait. -/
def attempt (f : σ → Option (α × σ)) : Poll σ α := fun _ s => f s

def hang : Poll σ α := fun _ _ => none

/-- `for (i = 0; i < n; i++) body(i);` -/
def repeatFor : Nat → (Nat → Poll σ Unit) → Poll σ Unit
  | 0, _ => pure ()
  | n + 1, body => do
    repeatFor n body
    body n

end Poll

open Poll

/-- From `s` the program ends, with `Q` of what it returns and leaves. -/
def Ends (p : Poll σ α) (Q : α → σ → Prop) (s : σ) : Prop :=
  ∃ a s', Q a s' ∧ ∃ enough, ∀ rounds, enough ≤ rounds → p rounds s = some (a, s')

namespace Ends

variable {p p' : Poll σ α} {f : α → Poll σ β} {Q Q' : α → σ → Prop} {R : β → σ → Prop} {s s' : σ}
  {a : α}

theorem pure (post : Q a s) : Ends (pure a) Q s := ⟨a, s, post, 0, fun _ _ => rfl⟩

/-- **Sequence.** -/
theorem bind (first : Ends p (fun a s => Ends (f a) R s) s) : Ends (p >>= f) R s := by
  obtain ⟨a, s₁, ⟨b, s₂, post, enough₂, rest⟩, enough₁, first⟩ := first
  refine ⟨b, s₂, post, max enough₁ enough₂, ?_⟩
  intro rounds enough
  have one := first rounds (by omega)
  have two := rest rounds (by omega)
  exact Option.bind_eq_some_iff.mpr ⟨_, one, two⟩

theorem look {f : σ → α} (post : Q (f s) s) : Ends (look f) Q s :=
  ⟨f s, s, post, 0, fun _ _ => rfl⟩

theorem update {f : σ → σ} {Q : Unit → σ → Prop} (post : Q () (f s)) : Ends (update f) Q s :=
  ⟨(), f s, post, 0, fun _ _ => rfl⟩

theorem attempt {f : σ → Option (α × σ)} (does : f s = some (a, s')) (post : Q a s') :
    Ends (attempt f) Q s := ⟨a, s', post, 0, fun _ _ => does⟩

theorem wait (does : ∃ enough, ∀ rounds, enough ≤ rounds → p rounds s = some (a, s'))
    (post : Q a s') : Ends p Q s := ⟨a, s', post, does⟩

/-- **Consequence.** -/
theorem mono (ends : Ends p Q s) (post : ∀ a s, Q a s → Q' a s) : Ends p Q' s := by
  obtain ⟨a, s', holds, does⟩ := ends
  exact ⟨a, s', post a s' holds, does⟩

theorem no {c : Prop} [Decidable c] (fails : ¬ c) (ends : Ends p' Q s) :
    Ends (if c then p else p') Q s := by
  rw [if_neg fails]
  exact ends

theorem yes {c : Prop} [Decidable c] (holds : c) (ends : Ends p Q s) :
    Ends (if c then p else p') Q s := by
  rw [if_pos holds]
  exact ends

/-- **Loops.** What holds before the first round and is handed on by every round holds after the
last. -/
theorem repeatFor {n : Nat} {body : Nat → Poll σ Unit} {I : Nat → σ → Prop} (start : I 0 s)
    (round : ∀ i s, i < n → I i s → Ends (body i) (fun _ s => I (i + 1) s) s) :
    Ends (repeatFor n body) (fun _ s => I n s) s := by
  induction n with
  | zero => exact pure start
  | succ n ih =>
    apply bind
    apply (ih fun i s below => round i s (Nat.lt_succ_of_lt below)).mono
    intro _ s holds
    exact round n s (Nat.lt_succ_self n) holds

end Ends
end Polling
