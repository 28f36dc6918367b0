import LocalServer.Library.Transition
import Mathlib.Logic.Function.Basic

/-! Components that share something. One makes a step at a time, and the others notice what it
did to what they share. -/

namespace LocalServer.Library

variable {ι σ lab : Type*} [DecidableEq ι]

/-- Component by component in any order: the one whose turn it is makes a step, and what the
step does to the others depends on the states before and after it. -/
inductive Interleaved (step : ι → σ → lab → σ → Prop) (notice : σ → σ → σ → σ) (states : ι → σ) :
    ι × lab → (ι → σ) → Prop where
  | step {i : ι} {label : lab} {next : σ} (steps : step i (states i) label next) :
      Interleaved step notice states (i, label)
        (Function.update (fun j => notice (states i) next (states j)) i next)

variable {step : ι → σ → lab → σ → Prop} {notice : σ → σ → σ → σ} {states next : ι → σ}

theorem Interleaved.own {i : ι} {label : lab} (turn : Interleaved step notice states (i, label) next) :
    step i (states i) label (next i) := by
  cases turn with
  | step steps => rwa [Function.update_self]

theorem Interleaved.others {i : ι} {label : lab} (turn : Interleaved step notice states (i, label) next)
    {j : ι} (other : j ≠ i) : next j = notice (states i) (next i) (states j) := by
  cases turn with
  | step steps => rw [Function.update_of_ne other, Function.update_self]

/-- If what a component notices of the others is always a step that it could make itself, then
it runs as if it were alone, though a shared invariant may be needed to see it. -/
theorem Reaches.component {guard : (ι → σ) → ι × lab → Prop} {start : (ι → σ) → Prop}
    {shared : (ι → σ) → Prop} {allowed : σ → lab → Prop} {begins : σ → Prop}
    (initial : ∀ states, start states → shared states ∧ ∀ i, begins (states i))
    (kept : ∀ states turn next, shared states → guard states turn →
      Interleaved step notice states turn next → shared next)
    (own : ∀ states i label, guard states (i, label) → allowed (states i) label)
    (noticed : ∀ states i label next, shared states → guard states (i, label) →
      step i (states i) label next → ∀ j, j ≠ i → ∃ label', allowed (states j) label' ∧
        step j (states j) label' (notice (states i) next (states j)))
    (reached : Reaches (Interleaved step notice) guard start states) :
    shared states ∧ ∀ i, Reaches (step i) allowed begins (states i) := by
  apply reached.invariant
  · intro states begins
    obtain ⟨together, each⟩ := initial states begins
    exact ⟨together, fun i => .start (each i)⟩
  · intro states turn next known allowed turns
    obtain ⟨together, each⟩ := known
    refine ⟨kept states turn next together allowed turns, ?_⟩
    obtain ⟨i, label⟩ := turn
    intro j
    by_cases same : j = i
    · subst same
      exact (each j).step (own states j label allowed) turns.own
    · obtain ⟨label', mayHappen, steps⟩ :=
        noticed states i label (next i) together allowed turns.own j same
      rw [turns.others same]
      exact (each j).step mayHappen steps

end LocalServer.Library
