import Mathlib.Data.List.Basic
import Mathlib.Logic.Relation

/-! Programs that do not run alone. A program reads and writes a state one statement at a time.
At certain points the others are let in and may change the state. Every logged write is kept
with the state in which it was made. Triples say what a program relies on in the others, and
what it guarantees of its writes. -/

namespace Programs

variable {σ ω α β : Type}

/-- A write: what it was made to, and the state it was made in. -/
structure Entry (σ ω : Type) where
  target : ω
  state : σ

/-- The state, the writes so far with the latest first, and how often the others have been let in. -/
structure World (σ ω : Type) where
  state : σ
  log : List (Entry σ ω)
  moment : Nat

/-- What the others do when they are let in for the `n`-th time. -/
abbrev Others (σ : Type) := Nat → σ → σ

/-- `none` is a program that does not come to its end. -/
def Program (σ ω α : Type) := Others σ → World σ ω → Option (α × World σ ω)

namespace Program

instance : Monad (Program σ ω) where
  pure a := fun _ w => some (a, w)
  bind p f := fun others w => (p others w).bind fun out => f out.1 others out.2

def look (f : σ → α) : Program σ ω α := fun _ w => some (f w.state, w)

def write (target : ω) (f : σ → σ) : Program σ ω Unit :=
  fun _ w => some ((), { w with state := f w.state, log := ⟨target, w.state⟩ :: w.log })

def letIn : Program σ ω Unit :=
  fun others w => some ((), { w with state := others w.moment w.state, moment := w.moment + 1 })

def fault : Program σ ω α := fun _ _ => none

/-- What a pointer leads to. -/
def deref : Option α → Program σ ω α
  | some a => pure a
  | none => fault

/-- When the others do nothing, the program comes to its end with `a` and leaves `s'` for `s`. -/
def Ends (p : Program σ ω α) (s : σ) (a : α) (s' : σ) : Prop :=
  ∀ log moment, ∃ log' moment',
    p (fun _ s => s) ⟨s, log, moment⟩ = some (a, ⟨s', log', moment'⟩)

end Program

open Program

/-- As long as the others do no more than `R` allows, every run from `P` to its end ends in `Q`,
and of every write that it makes `G` holds. -/
def Triple (R : σ → σ → Prop) (G : ω → σ → Prop) (P : σ → Prop) (p : Program σ ω α)
    (Q : α → σ → Prop) : Prop :=
  ∀ others : Others σ, (∀ n s, R s (others n s)) → ∀ w a w', p others w = some (a, w') →
    P w.state → Q a w'.state ∧ ∃ made, w'.log = made ++ w.log ∧ ∀ x ∈ made, G x.target x.state

namespace Triple

variable {R : σ → σ → Prop} {G : ω → σ → Prop} {P P' : σ → Prop} {p p' : Program σ ω α}
  {f : α → Program σ ω β} {Q Q' : α → σ → Prop} {S : β → σ → Prop}

theorem pure {a : α} (post : ∀ s, P s → Q a s) : Triple R G P (pure a) Q := by
  intro others _ w b w' done before
  obtain ⟨rfl, rfl⟩ := Prod.mk.inj (Option.some.inj done)
  exact ⟨post _ before, [], rfl, by simp⟩

/-- **Sequence.** -/
theorem bind (first : Triple R G P p Q) (rest : ∀ a, Triple R G (Q a) (f a) S) :
    Triple R G P (p >>= f) S := by
  intro others keeps w b w₂ done before
  obtain ⟨⟨a, w₁⟩, one, two⟩ := Option.bind_eq_some_iff.mp done
  obtain ⟨middle, made₁, log₁, good₁⟩ := first others keeps w a w₁ one before
  obtain ⟨after, made₂, log₂, good₂⟩ := rest a others keeps w₁ b w₂ two middle
  refine ⟨after, made₂ ++ made₁, by rw [log₂, log₁, List.append_assoc], ?_⟩
  intro x there
  cases List.mem_append.mp there with
  | inl late => exact good₂ x late
  | inr early => exact good₁ x early

theorem look {f : σ → α} (post : ∀ s, P s → Q (f s) s) : Triple R G P (look f) Q := by
  intro others _ w b w' done before
  obtain ⟨rfl, rfl⟩ := Prod.mk.inj (Option.some.inj done)
  exact ⟨post _ before, [], rfl, by simp⟩

theorem write {target : ω} {f : σ → σ} {Q : Unit → σ → Prop} (good : ∀ s, P s → G target s)
    (post : ∀ s, P s → Q () (f s)) : Triple R G P (write target f) Q := by
  intro others _ w b w' done before
  obtain ⟨rfl, rfl⟩ := Prod.mk.inj (Option.some.inj done)
  refine ⟨post _ before, [⟨target, w.state⟩], rfl, ?_⟩
  intro x there
  obtain rfl := List.mem_singleton.mp there
  exact good _ before

/-- What the others leave alone is still there when they are done. -/
theorem letIn {Q : Unit → σ → Prop} (stable : ∀ s s', R s s' → P s → Q () s') :
    Triple R G P letIn Q := by
  intro others keeps w b w' done before
  obtain ⟨rfl, rfl⟩ := Prod.mk.inj (Option.some.inj done)
  exact ⟨stable _ _ (keeps w.moment w.state) before, [], rfl, by simp⟩

theorem fault : Triple R G P fault Q := by
  intro others _ w b w' done
  cases done

theorem deref {pointer : Option α} (post : ∀ a s, P s → Q a s) :
    Triple R G P (deref pointer) Q := by
  cases pointer with
  | none => exact fault
  | some a => exact pure (post a)

/-- A precondition that is not about the state. -/
theorem fact {c : Prop} (holds : c → Triple R G P p Q) : Triple R G (fun s => c ∧ P s) p Q := by
  intro others keeps w a w' done before
  exact holds before.1 others keeps w a w' done before.2

theorem ite {c : Prop} [Decidable c] (yes : Triple R G P p Q) (no : Triple R G P p' Q) :
    Triple R G P (if c then p else p') Q := by
  split
  · exact yes
  · exact no

theorem yes {c : Prop} [Decidable c] (holds : c) (triple : Triple R G P p Q) :
    Triple R G P (if c then p else p') Q := by
  rw [if_pos holds]
  exact triple

theorem no {c : Prop} [Decidable c] (fails : ¬ c) (triple : Triple R G P p' Q) :
    Triple R G P (if c then p else p') Q := by
  rw [if_neg fails]
  exact triple

/-- **Consequence.** -/
theorem mono (entails : ∀ s, P' s → P s) (triple : Triple R G P p Q)
    (post : ∀ a s, Q a s → Q' a s) : Triple R G P' p Q' := by
  intro others keeps w a w' done before
  obtain ⟨after, made⟩ := triple others keeps w a w' done (entails _ before)
  exact ⟨post a _ after, made⟩

theorem unreachable : Triple R G (fun _ => False) p Q :=
  fun _ _ _ _ _ _ before => before.elim

theorem from_each {ι : Type} {P : ι → σ → Prop} (each : ∀ i, Triple R G (P i) p Q) :
    Triple R G (fun s => ∃ i, P i s) p Q := by
  intro others keeps w a w' done before
  obtain ⟨i, before⟩ := before
  exact each i others keeps w a w' done before

/-- The state that the program starts in can be given a name. -/
theorem snapshot (each : ∀ s₀, P s₀ → Triple R G (fun s => s = s₀) p Q) : Triple R G P p Q := by
  intro others keeps w a w' done before
  exact each w.state before others keeps w a w' done rfl

end Triple

namespace Program.Ends

variable {p p' : Program σ ω α} {f : α → Program σ ω β} {s s₁ s₂ : σ} {a : α} {b : β}

theorem pure : Ends (pure a : Program σ ω α) s a s := by
  intro log moment
  exact ⟨log, moment, rfl⟩

theorem bind (first : p.Ends s a s₁) (rest : (f a).Ends s₁ b s₂) : (p >>= f).Ends s b s₂ := by
  intro log moment
  obtain ⟨log₁, moment₁, one⟩ := first log moment
  obtain ⟨log₂, moment₂, two⟩ := rest log₁ moment₁
  exact ⟨log₂, moment₂, Option.bind_eq_some_iff.mpr ⟨_, one, two⟩⟩

theorem look {f : σ → α} : Ends (look f : Program σ ω α) s (f s) s := by
  intro log moment
  exact ⟨log, moment, rfl⟩

theorem write {target : ω} {f : σ → σ} : Ends (write target f) s () (f s) := by
  intro log moment
  exact ⟨⟨target, s⟩ :: log, moment, rfl⟩

theorem letIn : Ends (letIn : Program σ ω Unit) s () s := by
  intro log moment
  exact ⟨log, moment + 1, rfl⟩

theorem deref : Ends (deref (some a) : Program σ ω α) s a s := pure

theorem yes {c : Prop} [Decidable c] (holds : c) (ends : p.Ends s a s₁) :
    (if c then p else p').Ends s a s₁ := by
  rw [if_pos holds]
  exact ends

theorem no {c : Prop} [Decidable c] (fails : ¬ c) (ends : p'.Ends s a s₁) :
    (if c then p else p').Ends s a s₁ := by
  rw [if_neg fails]
  exact ends

end Program.Ends

/-! ### Closed doors -/

/-- Behind closed doors the program runs as if it were alone, and the doors are still closed
at its end. -/
def Program.Alone (closed : σ → Prop) (p : Program σ ω α) : Prop :=
  ∀ others w, closed w.state → p others w = p (fun _ s => s) w ∧
    ∀ a w', p others w = some (a, w') → closed w'.state ∧ w.log <:+ w'.log

namespace Program.Alone

variable {closed : σ → Prop} {p p' : Program σ ω α} {f : α → Program σ ω β}

theorem pure {a : α} : Alone closed (pure a : Program σ ω α) := by
  intro others w shut
  refine ⟨rfl, ?_⟩
  intro b w' done
  obtain ⟨rfl, rfl⟩ := Prod.mk.inj (Option.some.inj done)
  exact ⟨shut, List.suffix_rfl⟩

theorem bind (first : p.Alone closed) (rest : ∀ a, (f a).Alone closed) :
    (p >>= f).Alone closed := by
  intro others w shut
  obtain ⟨same, stays⟩ := first others w shut
  have unroll : ∀ others, (p >>= f) others w = (p others w).bind fun out => f out.1 others out.2 :=
    fun _ => rfl
  cases one : p others w with
  | none =>
    rw [unroll, unroll, ← same, one]
    exact ⟨rfl, nofun⟩
  | some out =>
    obtain ⟨a, w₁⟩ := out
    obtain ⟨shut₁, log₁⟩ := stays a w₁ one
    obtain ⟨same₁, stays₁⟩ := rest a others w₁ shut₁
    rw [unroll, unroll, ← same, one]
    refine ⟨same₁, ?_⟩
    intro b w₂ two
    obtain ⟨shut₂, log₂⟩ := stays₁ b w₂ two
    exact ⟨shut₂, log₁.trans log₂⟩

theorem look {f : σ → α} : Alone closed (look f : Program σ ω α) := by
  intro others w shut
  refine ⟨rfl, ?_⟩
  intro b w' done
  obtain ⟨rfl, rfl⟩ := Prod.mk.inj (Option.some.inj done)
  exact ⟨shut, List.suffix_rfl⟩

theorem write {target : ω} {f : σ → σ} (stays : ∀ s, closed s → closed (f s)) :
    Alone closed (write target f) := by
  intro others w shut
  refine ⟨rfl, ?_⟩
  intro b w' done
  obtain ⟨rfl, rfl⟩ := Prod.mk.inj (Option.some.inj done)
  exact ⟨stays _ shut, List.suffix_cons _ _⟩

theorem fault : Alone closed (fault : Program σ ω α) := fun _ _ _ => ⟨rfl, nofun⟩

theorem deref {pointer : Option α} : Alone closed (deref pointer : Program σ ω α) := by
  cases pointer with
  | none => exact fault
  | some a => exact pure

theorem ite {c : Prop} [Decidable c] (yes : p.Alone closed) (no : p'.Alone closed) :
    Alone closed (if c then p else p') := by
  split
  · exact yes
  · exact no

/-- What a program does alone, it does behind closed doors. -/
theorem triple {R : σ → σ → Prop} {P : σ → Prop} {Q : α → σ → Prop} (alone : p.Alone closed)
    (shut : ∀ s, P s → closed s) (does : ∀ s, P s → ∃ a s', p.Ends s a s' ∧ Q a s') :
    Triple R (fun _ _ => True) P p Q := by
  intro others _ w a w' done before
  obtain ⟨same, stays⟩ := alone others w (shut _ before)
  obtain ⟨b, s', ends, after⟩ := does _ before
  obtain ⟨log', moment', ended⟩ := ends w.log w.moment
  obtain ⟨rfl, rfl⟩ := Prod.mk.inj (Option.some.inj (done.symm.trans (same.trans ended)))
  obtain ⟨made, log⟩ := (stays _ _ done).2
  exact ⟨after, made, log.symm, fun _ _ => trivial⟩

end Program.Alone
end Programs
