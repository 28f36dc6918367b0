import Mathlib.Logic.Basic

/-! Labelled transition systems, and what holds in every state of their runs. -/

namespace LocalServer.Library

variable {σ : Type*} {lab : Type*}

/-- The states runs reach from a start, all of whose steps satisfy a guard on the state
before the step and on what happens in it. -/
inductive Reaches (step : σ → lab → σ → Prop) (guard : σ → lab → Prop) (start : σ → Prop) :
    σ → Prop where
  | start {state : σ} (begins : start state) : Reaches step guard start state
  | step {state next : σ} {label : lab} (reached : Reaches step guard start state)
      (allowed : guard state label) (steps : step state label next) :
      Reaches step guard start next

variable {step : σ → lab → σ → Prop} {guard weaker : σ → lab → Prop} {start : σ → Prop}

/-- What holds at the start and is kept by every allowed step holds wherever runs lead. -/
theorem Reaches.invariant {holds : σ → Prop} (initial : ∀ state, start state → holds state)
    (kept : ∀ state label next, holds state → guard state label → step state label next →
      holds next) {state : σ} (reached : Reaches step guard start state) : holds state := by
  induction reached with
  | start begins => exact initial _ begins
  | step reached allowed steps ih => exact kept _ _ _ ih allowed steps

theorem Reaches.mono (weakens : ∀ state label, guard state label → weaker state label)
    {state : σ} (reached : Reaches step guard start state) : Reaches step weaker start state := by
  induction reached with
  | start begins => exact .start begins
  | step reached allowed steps ih => exact .step ih (weakens _ _ allowed) steps

theorem Reaches.of_steps {other : σ → lab → σ → Prop}
    (steps : ∀ state label next, step state label next → other state label next)
    {state : σ} (reached : Reaches step guard start state) : Reaches other guard start state := by
  induction reached with
  | start begins => exact .start begins
  | step reached allowed taken ih => exact .step ih allowed (steps _ _ _ taken)

theorem Reaches.origin {state : σ} (reached : Reaches step guard start state) :
    ∃ first, start first ∧ Reaches step guard (· = first) state := by
  induction reached with
  | start begins => exact ⟨_, begins, .start rfl⟩
  | step reached allowed steps ih =>
    obtain ⟨first, begins, run⟩ := ih
    exact ⟨first, begins, run.step allowed steps⟩

structure LastChange {α : Type*} (step : σ → lab → σ → Prop) (guard : σ → lab → Prop) (first : σ)
    (observe : σ → α) (before : σ) (label : lab) (after last : σ) : Prop where
  reached : Reaches step guard (· = first) before
  allowed : guard before label
  steps : step before label after
  changed : observe after ≠ observe before
  since : Reaches step (fun state label => guard state label ∧ observe state = observe after)
    (· = after) last
  kept : observe last = observe after

/-- What is observed at the end of a run was there from the start, or some step was the last to
change it. -/
theorem Reaches.last_change {α : Type*} (observe : σ → α) {first last : σ}
    (reached : Reaches step guard (· = first) last) :
    observe last = observe first ∨
      ∃ before label after, LastChange step guard first observe before label after last := by
  induction reached with
  | start begins => exact Or.inl (congrArg observe begins)
  | @step state next label reached allowed steps ih =>
    by_cases same : observe next = observe state
    · rcases ih with early | ⟨before, turn, after, change⟩
      · exact Or.inl (same.trans early)
      · refine Or.inr ⟨before, turn, after, change.reached, change.allowed, change.steps,
          change.changed, ?_, same.trans change.kept⟩
        exact change.since.step ⟨allowed, change.kept⟩ steps
    · exact Or.inr ⟨state, label, next, reached, allowed, steps, same, .start rfl, rfl⟩

/-- Runs from a state, with what their steps put out. -/
inductive Recorded {α : Type*} (step : σ → lab → σ → Prop) (emits : σ → lab → Option α → Prop)
    (first : σ) : List α → σ → Prop where
  | start : Recorded step emits first [] first
  | step {record : List α} {state next : σ} {label : lab} {output : Option α}
      (run : Recorded step emits first record state) (emitted : emits state label output)
      (steps : step state label next) : Recorded step emits first (record ++ output.toList) next

theorem Recorded.append {α : Type*} {emits : σ → lab → Option α → Prop} {first middle last : σ}
    {early late : List α} (before : Recorded step emits first early middle)
    (after : Recorded step emits middle late last) : Recorded step emits first (early ++ late) last := by
  induction after with
  | start => rwa [List.append_nil]
  | step run emitted steps ih =>
    rw [← List.append_assoc]
    exact ih.step emitted steps

/-- Runs with their steps in order: the state before, what happens, the state after. -/
inductive Walk (step : σ → lab → σ → Prop) (guard : σ → lab → Prop) (start : σ → Prop) :
    List (σ × lab × σ) → σ → Prop where
  | start {state : σ} (begins : start state) : Walk step guard start [] state
  | step {steps : List (σ × lab × σ)} {state next : σ} {label : lab}
      (walk : Walk step guard start steps state) (allowed : guard state label)
      (taken : step state label next) :
      Walk step guard start (steps ++ [(state, label, next)]) next

theorem Walk.reaches {steps : List (σ × lab × σ)} {state : σ}
    (walk : Walk step guard start steps state) : Reaches step guard start state := by
  induction walk with
  | start begins => exact .start begins
  | step walk allowed taken ih => exact ih.step allowed taken

theorem Walk.origin {steps : List (σ × lab × σ)} {state : σ}
    (walk : Walk step guard start steps state) :
    ∃ first, start first ∧ Walk step guard (· = first) steps state := by
  induction walk with
  | start begins => exact ⟨_, begins, .start rfl⟩
  | step walk allowed taken ih =>
    obtain ⟨first, begins, fromFirst⟩ := ih
    exact ⟨first, begins, fromFirst.step allowed taken⟩

theorem Reaches.walk {state : σ} (reached : Reaches step guard start state) :
    ∃ steps, Walk step guard start steps state := by
  induction reached with
  | start begins => exact ⟨[], .start begins⟩
  | step reached allowed taken ih =>
    obtain ⟨steps, walk⟩ := ih
    exact ⟨_, walk.step allowed taken⟩

/-- A run from a state that makes this many of the steps that count. -/
inductive Tally (step : σ → lab → σ → Prop) (guard counts : σ → lab → Prop) (first : σ) :
    Nat → σ → Prop where
  | start : Tally step guard counts first 0 first
  | counted {n : Nat} {state next : σ} {label : lab} (run : Tally step guard counts first n state)
      (allowed : guard state label) (counted : counts state label)
      (steps : step state label next) : Tally step guard counts first (n + 1) next
  | passed {n : Nat} {state next : σ} {label : lab} (run : Tally step guard counts first n state)
      (allowed : guard state label) (passed : ¬counts state label)
      (steps : step state label next) : Tally step guard counts first n next

/-- What goes down with every step that counts, and never up, bounds their number. -/
theorem Tally.bounded {counts : σ → lab → Prop} {first : σ} {holds : σ → Prop}
    {potential : σ → Nat} (initial : holds first)
    (kept : ∀ state label next, holds state → guard state label → step state label next →
      holds next)
    (falls : ∀ state label next, holds state → guard state label → counts state label →
      step state label next → potential next < potential state)
    (stays : ∀ state label next, holds state → guard state label → ¬counts state label →
      step state label next → potential next ≤ potential state)
    {n : Nat} {state : σ} (run : Tally step guard counts first n state) :
    holds state ∧ potential state + n ≤ potential first := by
  induction run with
  | start => exact ⟨initial, Nat.le_refl _⟩
  | counted run allowed counted steps ih =>
    obtain ⟨known, bound⟩ := ih
    have less := falls _ _ _ known allowed counted steps
    exact ⟨kept _ _ _ known allowed steps, by omega⟩
  | passed run allowed passed steps ih =>
    obtain ⟨known, bound⟩ := ih
    have less := stays _ _ _ known allowed passed steps
    exact ⟨kept _ _ _ known allowed steps, by omega⟩

end LocalServer.Library
