import Mathlib.Order.Defs.Unbundled

/-! Computations that read and change a state, what they return, and relations between the
state before and after that sequencing keeps. -/

namespace LocalServer.Library

def Action (σ α : Type) := σ → α × σ

namespace Action

variable {σ α β : Type}

instance : Monad (Action σ) where
  pure a := fun state => (a, state)
  bind action next := fun state => next (action state).1 (action state).2

@[simp] theorem pure_apply (a : α) (state : σ) : (pure a : Action σ α) state = (a, state) := rfl

@[simp] theorem bind_apply (action : Action σ α) (next : α → Action σ β) (state : σ) :
    (action >>= next) state = next (action state).1 (action state).2 := rfl

def Returns (result : α → Prop) (action : Action σ α) : Prop := ∀ state, result (action state).1

theorem Returns.bind {result : β → Prop} {next : α → Action σ β} (action : Action σ α)
    (later : ∀ a, Returns result (next a)) : Returns result (action >>= next) :=
  fun state => later (action state).1 (action state).2

/-- The state after the computation stands in this relation to the one before. -/
def Keeps (relation : σ → σ → Prop) (action : Action σ α) : Prop :=
  ∀ state, relation state (action state).2

theorem keeps_pure (relation : σ → σ → Prop) [Std.Refl relation] (a : α) :
    Keeps relation (pure a : Action σ α) := fun state => Std.Refl.refl state

section
variable {relation : σ → σ → Prop} [IsTrans σ relation] {action : Action σ α}
  {next : α → Action σ β}

/-- Sequencing, where what follows only has to be looked at for results that can occur. -/
theorem Keeps.bind_of (result : α → Prop) (first : Keeps relation action)
    (returns : Returns result action)
    (later : ∀ a, result a → Keeps relation (next a)) : Keeps relation (action >>= next) :=
  fun state => IsTrans.trans _ _ _ (first state) (later _ (returns state) _)

theorem Keeps.bind (first : Keeps relation action) (later : ∀ a, Keeps relation (next a)) :
    Keeps relation (action >>= next) :=
  first.bind_of (fun _ => True) (fun _ => trivial) (fun a _ => later a)

end

theorem Keeps.mono {relation weaker : σ → σ → Prop} {action : Action σ α}
    (keeps : Keeps relation action) (weakens : ∀ before after, relation before after →
      weaker before after) : Keeps weaker action :=
  fun state => weakens _ _ (keeps state)

section
variable {agree : σ → σ → Prop} {action : Action σ α} {next : α → Action σ β}

/-- Run from states that agree, the computation returns the same and leaves states that agree. -/
def Respects (agree : σ → σ → Prop) (action : Action σ α) : Prop :=
  ∀ state other, agree state other →
    (action state).1 = (action other).1 ∧ agree (action state).2 (action other).2

theorem respects_pure (agree : σ → σ → Prop) (a : α) : Respects agree (pure a : Action σ α) :=
  fun _ _ agrees => ⟨rfl, agrees⟩

/-- The result of the first computation is the same, so the same one follows. -/
theorem Respects.bind (first : Respects agree action) (later : ∀ a, Respects agree (next a)) :
    Respects agree (action >>= next) := by
  intro state other agrees
  obtain ⟨result, agrees'⟩ := first state other agrees
  rw [bind_apply, bind_apply, ← result]
  exact later _ _ _ agrees'

end

end Action

end LocalServer.Library
