import LocalServer.Cgi

/-! The deadline of a script: at which poll its process is killed. -/

namespace LocalServer.CgiDeadline
open Library Utf8 Text Cgi

inductive Ending where
  /-- Killed at a poll, after the polls that let the child run. -/
  | killed (survived : List Nat) (elapsed : Nat)
  | finished (output : Option Output)
  deriving DecidableEq

def Ending.after (elapsed : Nat) : Ending → Ending
  | .killed survived last => .killed (elapsed :: survived) last
  | .finished output => .finished output

def Ending.output : Ending → Option Output
  | .killed _ _ => none
  | .finished output => output

/-- `wait_with_timeout` with the kill in view. -/
def watch (timeout : Nat) (output : Option Output) : List Nat → Ending
  | [] => .finished output
  | elapsed :: running =>
    if timeout < elapsed then .killed [] elapsed else (watch timeout output running).after elapsed

/-- The first poll that finds the child running past the deadline, and the polls before it. -/
def Past (deadline : Nat) (running survived : List Nat) (elapsed : Nat) : Prop :=
  (∃ rest, running = survived ++ elapsed :: rest) ∧ (∀ earlier ∈ survived, earlier ≤ deadline) ∧
    deadline < elapsed

theorem output_after (elapsed : Nat) (ending : Ending) : (ending.after elapsed).output = ending.output := by
  cases ending <;> rfl

theorem waitWithTimeout_eq (timeout : Nat) (output : Option Output) (running : List Nat) :
    waitWithTimeout timeout output running = (watch timeout output running).output := by
  induction running with
  | nil => rfl
  | cons elapsed running ih =>
    rw [waitWithTimeout, watch]
    by_cases late : timeout < elapsed
    · rw [if_pos late, if_pos late]
      rfl
    · rw [if_neg late, if_neg late, output_after, ih]

theorem past_cons {deadline elapsed last : Nat} {running survived : List Nat} :
    Past deadline (elapsed :: running) survived last ↔
      (deadline < elapsed ∧ survived = [] ∧ last = elapsed) ∨
        (elapsed ≤ deadline ∧ ∃ later, survived = elapsed :: later ∧ Past deadline running later last) := by
  constructor
  · rintro ⟨⟨rest, shape⟩, early, late⟩
    cases survived with
    | nil =>
      obtain ⟨rfl, rfl⟩ := List.cons.inj shape
      exact Or.inl ⟨late, rfl, rfl⟩
    | cons first later =>
      obtain ⟨rfl, rfl⟩ := List.cons.inj shape
      exact Or.inr ⟨early elapsed List.mem_cons_self, later, rfl, ⟨rest, rfl⟩,
        fun earlier member => early earlier (List.mem_cons_of_mem _ member), late⟩
  · rintro (⟨late, rfl, rfl⟩ | ⟨early, later, rfl, ⟨⟨rest, rfl⟩, earlier, late⟩⟩)
    · exact ⟨⟨running, rfl⟩, by simp, late⟩
    · refine ⟨⟨rest, rfl⟩, ?_, late⟩
      simpa using ⟨early, earlier⟩

/-- The child is killed at the first poll past the timeout, if there is one. -/
theorem watch_killed_iff {timeout elapsed : Nat} {output : Option Output} {running survived : List Nat} :
    watch timeout output running = .killed survived elapsed ↔ Past timeout running survived elapsed := by
  induction running generalizing survived with
  | nil =>
    constructor
    · intro killed
      cases killed
    · rintro ⟨⟨rest, shape⟩, -⟩
      simp at shape
  | cons first running ih =>
    rw [watch, past_cons]
    by_cases late : timeout < first
    · rw [if_pos late]
      constructor
      · intro killed
        cases killed
        exact Or.inl ⟨late, rfl, rfl⟩
      · rintro (⟨-, rfl, rfl⟩ | ⟨early, -⟩)
        · rfl
        · omega
    · rw [if_neg late]
      constructor
      · intro killed
        cases ending : watch timeout output running with
        | killed later last =>
          rw [ending] at killed
          cases killed
          exact Or.inr ⟨by omega, later, rfl, ih.mp ending⟩
        | finished output =>
          rw [ending] at killed
          cases killed
      · rintro (⟨early, -⟩ | ⟨-, later, rfl, past⟩)
        · exact absurd early late
        · rw [ih.mpr past]
          rfl

theorem watch_finished {timeout : Nat} {output : Option Output} {running : List Nat}
    (inTime : ∀ elapsed ∈ running, elapsed ≤ timeout) : watch timeout output running = .finished output := by
  induction running with
  | nil => rfl
  | cons elapsed running ih =>
    have early := inTime elapsed List.mem_cons_self
    rw [watch, if_neg (by omega), ih fun other member => inTime other (List.mem_cons_of_mem _ member)]
    rfl

theorem past_or_inTime (deadline : Nat) (running : List Nat) :
    (∃ survived elapsed, Past deadline running survived elapsed) ∨
      ∀ elapsed ∈ running, elapsed ≤ deadline := by
  by_cases inTime : ∀ elapsed ∈ running, elapsed ≤ deadline
  · exact Or.inr inTime
  · left
    push Not at inTime
    obtain ⟨elapsed, member, late⟩ := inTime
    cases found : running.find? (deadline < ·) with
    | none =>
      have absent := List.find?_eq_none.mp found elapsed member
      simp [late] at absent
    | some first =>
      obtain ⟨isLate, survived, rest, shape, early⟩ := List.find?_eq_some_iff_append.mp found
      refine ⟨survived, first, ⟨rest, shape⟩, ?_, by simpa using isLate⟩
      intro earlier inSurvived
      simpa using early earlier inSurvived

theorem Past.not_inTime {deadline elapsed : Nat} {running survived : List Nat}
    (past : Past deadline running survived elapsed) : ¬∀ other ∈ running, other ≤ deadline := by
  obtain ⟨⟨rest, rfl⟩, -, late⟩ := past
  intro inTime
  have early := inTime elapsed (by simp)
  omega

theorem Past.unique {deadline elapsed elapsed' : Nat} {running survived survived' : List Nat}
    (past : Past deadline running survived elapsed) (past' : Past deadline running survived' elapsed') :
    survived = survived' ∧ elapsed = elapsed' := by
  have same := (@watch_killed_iff _ _ none _ _).mpr past
  rw [(@watch_killed_iff _ _ none _ _).mpr past'] at same
  cases same
  exact ⟨rfl, rfl⟩

/-- Two deadlines agree where the first poll past the earlier is past the later, too. -/
theorem past_congr {early late : Nat} (running : List Nat) (order : early ≤ late) :
    (∀ survived elapsed, Past early running survived elapsed ↔ Past late running survived elapsed) ↔
      ∀ survived elapsed, Past early running survived elapsed → late < elapsed := by
  constructor
  · intro agree survived elapsed past
    exact ((agree survived elapsed).mp past).2.2
  · intro jumps survived elapsed
    have lift : ∀ survived elapsed, Past early running survived elapsed →
        Past late running survived elapsed := by
      intro survived elapsed past
      have late := jumps survived elapsed past
      obtain ⟨shape, within, -⟩ := past
      exact ⟨shape, fun earlier member => (within earlier member).trans order, late⟩
    constructor
    · exact lift survived elapsed
    · intro past
      rcases past_or_inTime early running with ⟨survived', elapsed', first⟩ | inTime
      · obtain ⟨rfl, rfl⟩ := past.unique (lift survived' elapsed' first)
        exact first
      · exact absurd (fun other member => (inTime other member).trans order) past.not_inTime

theorem past_congr_min (first second : Nat) (running : List Nat) :
    (∀ survived elapsed, Past first running survived elapsed ↔
        Past second running survived elapsed) ↔
      ∀ survived elapsed, Past (min first second) running survived elapsed →
        max first second < elapsed := by
  rcases Nat.le_total first second with order | order
  · rw [min_eq_left order, max_eq_right order]
    exact past_congr running order
  · rw [min_eq_right order, max_eq_left order, ← past_congr running order]
    exact forall₂_congr fun _ _ => iff_comm

/-! The run -/

/-- The wait inside `run`. -/
def ended (child : Child) : Ending := watch (10 * nanosPerSec) child.output child.running

/-- What `run` answers for the output of its child. -/
def answer (platform : Platform) : Option Output → Response
  | none => .error .internalServerError
  | some output =>
    if output.success then parseCgiOutput platform.tables output.stdout
    else .error .internalServerError

section
variable {platform : Platform} {runner : CgiRunner} {request : Request} {files : FileSystem}
  {child : Child}

theorem run_eq (started : platform.spawn (runner.command request) files = some child) :
    runner.run platform request files = (answer platform (ended child).output, child.files) := by
  unfold CgiRunner.run
  rw [started]
  dsimp only
  rw [waitWithTimeout_eq]
  cases shown : (ended child).output with
  | none =>
    rw [show (watch (10 * nanosPerSec) child.output child.running).output = none from shown]
    rfl
  | some output =>
    rw [show (watch (10 * nanosPerSec) child.output child.running).output = some output from shown]
    dsimp only [answer]
    split_ifs <;> rfl

variable (platform runner request files child) in
/-- The child is killed at the first poll past the deadline and at no other, and answered for
with 500 then; a child that is never past it is left alone, and its output is used. -/
structure Enforced (deadline : Nat) : Prop where
  killed : ∀ survived elapsed, ended child = .killed survived elapsed ↔
    Past deadline child.running survived elapsed
  refused : ∀ survived elapsed, Past deadline child.running survived elapsed →
    (runner.run platform request files).1 = .error .internalServerError
  used : (∀ elapsed ∈ child.running, elapsed ≤ deadline) →
    (runner.run platform request files).1 = answer platform child.output

/-- The wait has its own ten seconds. The runner's deadline is enforced where the first poll
past the earlier of the two is also past the later one. -/
theorem enforced_iff (started : platform.spawn (runner.command request) files = some child) :
    Enforced platform runner request files child runner.timeout ↔
      ∀ survived elapsed,
        Past (min runner.timeout (10 * nanosPerSec)) child.running survived elapsed →
        max runner.timeout (10 * nanosPerSec) < elapsed := by
  have killed : ∀ survived elapsed, ended child = .killed survived elapsed ↔
      Past (10 * nanosPerSec) child.running survived elapsed := fun _ _ => watch_killed_iff
  rw [← past_congr_min]
  constructor
  · intro enforced survived elapsed
    rw [← enforced.killed, killed]
  · intro agree
    refine ⟨fun survived elapsed => (killed survived elapsed).trans (agree survived elapsed).symm,
      ?_, ?_⟩
    · intro survived elapsed past
      rw [run_eq started, (killed survived elapsed).mpr ((agree survived elapsed).mp past)]
      rfl
    · intro inTime
      rcases past_or_inTime (10 * nanosPerSec) child.running with ⟨survived, elapsed, past⟩ | early
      · exact absurd inTime ((agree survived elapsed).mpr past).not_inTime
      · rw [run_eq started, ended, watch_finished early]
        rfl

end

def slowChild (elapsed : Nat) : Child :=
  ⟨[elapsed], some ⟨true, utf8 "Status: 404\n\nlate", []⟩, FileSystem.bare⟩

def slowPlatform (elapsed : Nat) : Platform := ⟨asciiTables, fun _ _ => some (slowChild elapsed)⟩

def scriptRequest : Request := ⟨.get, "/late.py".toList, "HTTP/1.1".toList, HashMap.empty, []⟩

def shortRunner : CgiRunner :=
  (CgiRunner.new "python3".toList "late.py".toList).withTimeout (200 * 1000000)

/-- Found running after eleven seconds, past both deadlines. -/
theorem enforced_iff_slow :
    Enforced (slowPlatform (11 * nanosPerSec)) shortRunner scriptRequest FileSystem.bare
        (slowChild (11 * nanosPerSec)) shortRunner.timeout ↔
      ∀ survived elapsed,
        Past (min shortRunner.timeout (10 * nanosPerSec)) (slowChild (11 * nanosPerSec)).running
          survived elapsed →
        max shortRunner.timeout (10 * nanosPerSec) < elapsed :=
  enforced_iff rfl

/-- A runner of 200 ms leaves a script running that is found running after 300 ms. -/
theorem deadline_ignored :
    ¬∀ (runner : CgiRunner) (child : Child),
      (slowPlatform (300 * 1000000)).spawn (runner.command scriptRequest) FileSystem.bare = some child →
      Enforced (slowPlatform (300 * 1000000)) runner scriptRequest FileSystem.bare child
        runner.timeout := by
  intro enforced
  have past : Past shortRunner.timeout (slowChild (300 * 1000000)).running [] (300 * 1000000) :=
    ⟨⟨[], rfl⟩, by simp, by decide⟩
  have killed := ((enforced shortRunner (slowChild (300 * 1000000)) rfl).killed _ _).mpr past
  exact absurd killed (by decide)

end LocalServer.CgiDeadline
