import LocalServer.Library.Action
import Mathlib.Data.List.Forall2

/-! Systems that answer one input after the other, and when one of them does what another one
says it should. -/

namespace LocalServer.Library

variable {ι κ σ τ α β : Type}

def serveAll (step : ι → Action σ α) : List ι → Action σ (List α)
  | [] => pure []
  | input :: rest => do
    let answer ← step input
    let answers ← serveAll step rest
    pure (answer :: answers)

@[simp] theorem serveAll_cons (step : ι → Action σ α) (input : ι) (rest : List ι) (state : σ) :
    serveAll step (input :: rest) state =
      ((step input state).1 :: (serveAll step rest (step input state).2).1,
        (serveAll step rest (step input state).2).2) := rfl

/-- The last input is served in the state the others lead to. -/
theorem serveAll_concat (step : ι → Action σ α) (inputs : List ι) (last : ι) (state : σ) :
    (serveAll step (inputs ++ [last]) state).2 =
      (step last (serveAll step inputs state).2).2 := by
  induction inputs generalizing state with
  | nil => rfl
  | cons input rest ih =>
    rw [List.cons_append, serveAll_cons, serveAll_cons]
    exact ih _

/-- From related states an input is answered as the operation it means, and the states stay
related. -/
def Refines (related : σ → τ → Prop) (means : ι → κ → Prop) (agrees : α → β → Prop)
    (step : ι → Action σ α) (spec : κ → Action τ β) : Prop :=
  ∀ state model input operation, related state model → means input operation →
    agrees (step input state).1 (spec operation model).1 ∧
      related (step input state).2 (spec operation model).2

/-- What holds of one input holds of every sequence of them. -/
theorem Refines.serveAll {related : σ → τ → Prop} {means : ι → κ → Prop} {agrees : α → β → Prop}
    {step : ι → Action σ α} {spec : κ → Action τ β}
    (refines : Refines related means agrees step spec) {inputs : List ι} {operations : List κ}
    (meant : List.Forall₂ means inputs operations) {state : σ} {model : τ}
    (starts : related state model) :
    List.Forall₂ agrees (serveAll step inputs state).1 (serveAll spec operations model).1 ∧
      related (serveAll step inputs state).2 (serveAll spec operations model).2 := by
  induction meant generalizing state model with
  | nil => exact ⟨.nil, starts⟩
  | cons isMeant _ ih =>
    obtain ⟨agreed, goesOn⟩ := refines state model _ _ starts isMeant
    obtain ⟨later, ends⟩ := ih goesOn
    exact ⟨.cons agreed later, ends⟩

end LocalServer.Library
