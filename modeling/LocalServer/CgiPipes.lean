import LocalServer.Cgi
import LocalServer.Library.Pipes

/-! The server and the script it runs, with the three pipes between them. The server writes the
whole body before it waits, and reads only after the script has exited. -/

namespace LocalServer.CgiPipes
open Library Pipes Utf8 Text Relation Cgi

inductive Parent where
  /-- In `write_all`, with these bytes left; the pipe is closed after them. -/
  | writing (rest : Bytes)
  /-- In `wait_with_timeout`. -/
  | polling
  /-- `wait_with_timeout` has returned. -/
  | finished (output : Option Output)

def Parent.rest : Parent → Bytes
  | .writing rest => rest
  | _ => []

structure Exchange (program : Program) where
  parent : Parent
  child : Piped program.State

/-- The child was started. Without a body its input is neither written nor closed. -/
def spawned (program : Program) (stdin : Option Bytes) : Exchange program where
  parent := match stdin with
    | none => .polling
    | some body => .writing body
  child := program.piped

section
variable (program : Program) (capacities : Capacities)

inductive Step : Exchange program → Exchange program → Prop where
  | child {parent : Parent} {child next : Piped program.State}
      (steps : PipeStep program capacities child next) : Step ⟨parent, child⟩ ⟨parent, next⟩
  | write {byte : UInt8} {rest : Bytes} {child : Piped program.State} {act : Act program.State}
      (alive : child.process = .running act) (room : child.stdin.length < capacities.stdin) :
      Step ⟨.writing (byte :: rest), child⟩
        ⟨.writing rest, { child with stdin := child.stdin ++ [byte] }⟩
  /-- Nobody is left to read: the error is printed, and the pipe closed. -/
  | writeFailed {byte : UInt8} {rest : Bytes} {child : Piped program.State} {success : Bool}
      (gone : child.process = .exited success) :
      Step ⟨.writing (byte :: rest), child⟩ ⟨.polling, { child with fed := false }⟩
  | close {child : Piped program.State} :
      Step ⟨.writing [], child⟩ ⟨.polling, { child with fed := false }⟩
  /-- The poll that finds the child gone, and `wait_with_output`. -/
  | collect {child : Piped program.State} {success : Bool}
      (gone : child.process = .exited success) :
      Step ⟨.polling, child⟩
        ⟨.finished (some ⟨success, child.output .stdout, child.output .stderr⟩),
          { child with output := fun _ => [] }⟩
  /-- A child that its pipes do not block is done in time, so only a blocked one is killed. -/
  | timeout {child : Piped program.State} (blocked : Blocked program capacities child) :
      Step ⟨.polling, child⟩ ⟨.finished none, { child with process := .exited false }⟩

def Waits (exchange : Exchange program) : Prop :=
  match exchange.parent with
  | .writing [] => False
  | .writing (_ :: _) => capacities.stdin ≤ exchange.child.stdin.length
  | .polling => True
  | .finished _ => False

def Deadlocked (exchange : Exchange program) : Prop :=
  Waits program capacities exchange ∧ Blocked program capacities exchange.child

def Reached (stdin : Option Bytes) : Exchange program → Prop :=
  ReflTransGen (Step program capacities) (spawned program stdin)

/-- The whole standard output is parsed into the response: neither side ever waits for the
other to wait, every run comes to an end, and `run` returns the response there. -/
structure Delivered (platform : Platform) (runner : CgiRunner) (request : Request) : Prop where
  served : ∀ exchange, Reached program capacities (runner.command request).stdin exchange →
    ¬Deadlocked program capacities exchange
  answered : ∀ exchange, Reached program capacities (runner.command request).stdin exchange →
    ∀ output, exchange.parent = .finished output →
    ∀ files child, platform.spawn (runner.command request) files = some child →
      waitWithTimeout (10 * nanosPerSec) child.output child.running = output →
      (runner.run platform request files).1 =
        parseCgiOutput platform.tables (exchange.child.written .stdout)
  ends : Acc (fun next exchange => Step program capacities exchange next)
    (spawned program (runner.command request).stdin)
  progresses : ∀ exchange, Reached program capacities (runner.command request).stdin exchange →
    (∃ output, exchange.parent = .finished output) ∨ ∃ next, Step program capacities exchange next

end

/-- What `run` returns for what the parent sees of its child. -/
theorem run_spawned {platform : Platform} {runner : CgiRunner} {request : Request}
    {files : FileSystem} {child : Child}
    (started : platform.spawn (runner.command request) files = some child) {output : Output}
    (success : output.success = true)
    (waited : waitWithTimeout (10 * nanosPerSec) child.output child.running = some output) :
    (runner.run platform request files).1 = parseCgiOutput platform.tables output.stdout := by
  unfold CgiRunner.run
  simp only [started, waited, success, if_true]

section
variable {program : Program} {capacities : Capacities} {body : Bytes}

/-- Before the parent returns: what the child has done it could have done alone, on the input
it has had, what its pipe holds and what the parent will write. -/
structure Going (capacities : Capacities) (body : Bytes) (ended : Bool)
    (exchange : Exchange program) : Prop where
  run : ReflTransGen (SoloStep program capacities) (program.alone body)
    (exchange.child.solo exchange.parent.rest ended)
  fed : exchange.child.fed = true → ended = false
  kept : Kept capacities exchange.child
  phase : (∃ rest, exchange.parent = .writing rest ∧ exchange.child.fed = true) ∨
    (exchange.parent = .polling ∧ exchange.child.fed = false)

structure Done (exchange : Exchange program) : Prop where
  parent : exchange.parent = .finished (some
    ⟨true, exchange.child.written .stdout, exchange.child.written .stderr⟩)
  child : exchange.child.process = .exited true

def Parent.size : Parent → Nat
  | .writing rest => rest.length + 2
  | .polling => 1
  | .finished _ => 0

def Follows (capacities : Capacities) (before : Exchange program) (ended : Bool)
    (after : Exchange program) (later : Bool) : Prop :=
  SoloStep program capacities (before.child.solo before.parent.rest ended)
      (after.child.solo after.parent.rest later) ∨
    (after.child.solo after.parent.rest later = before.child.solo before.parent.rest ended ∧
      after.parent.size < before.parent.size)

theorem going_spawned : Going capacities body false (spawned program (some body)) :=
  ⟨.refl, fun _ => rfl, kept_piped program, Or.inl ⟨body, rfl, rfl⟩⟩

theorem not_blocked_full {ended : Bool} {exchange : Exchange program}
    (fits : Fits program capacities body) (going : Going capacities body ended exchange)
    {stream : Stream} {byte : UInt8} {data : Bytes} {next : program.State}
    (acts : exchange.child.process = .running (.write stream (byte :: data) next)) :
    (exchange.child.output stream).length < capacities.output stream :=
  not_full going.kept acts fun solo step => fits solo (going.run.tail step)

theorem not_deadlocked {ended : Bool} {exchange : Exchange program}
    (fits : Fits program capacities body) (going : Going capacities body ended exchange) :
    ¬Deadlocked program capacities exchange := by
  intro deadlocked
  obtain ⟨waits, blocked⟩ := deadlocked
  cases blocked with
  | full acts full =>
    have room := not_blocked_full fits going acts
    omega
  | empty acts drained fed =>
    rcases going.phase with ⟨rest, writing, -⟩ | ⟨-, closed⟩
    · unfold Waits at waits
      rw [writing] at waits
      cases rest with
      | nil => exact waits
      | cons byte rest =>
        have full : capacities.stdin ≤ exchange.child.stdin.length := waits
        have positive := capacities.positive
        rw [drained, List.length_nil] at full
        omega
    · rw [closed] at fed
      cases fed

theorem Going.fed_of_writing {ended : Bool} {exchange : Exchange program}
    (going : Going capacities body ended exchange) {rest : Bytes}
    (writes : exchange.parent = .writing rest) : exchange.child.fed = true := by
  rcases going.phase with ⟨-, -, fed⟩ | ⟨polls, -⟩
  · exact fed
  · rw [polls] at writes
    cases writes

theorem Going.rest_of_closed {ended : Bool} {exchange : Exchange program}
    (going : Going capacities body ended exchange) (closed : exchange.child.fed = false) :
    exchange.parent.rest = [] := by
  rcases going.phase with ⟨-, -, fed⟩ | ⟨polls, -⟩
  · rw [fed] at closed
    cases closed
  · rw [polls]
    rfl

theorem going_child {ended : Bool} {parent : Parent} {child next : Piped program.State}
    (going : Going capacities body ended ⟨parent, child⟩)
    (steps : PipeStep program capacities child next) :
    ∃ later, Going capacities body later ⟨parent, next⟩ ∧
      Follows capacities ⟨parent, child⟩ ended ⟨parent, next⟩ later := by
  obtain ⟨kept, same⟩ := kept_step going.kept steps
  obtain ⟨later, solo, still⟩ := solo_of_step going.kept ended going.rest_of_closed steps
  refine ⟨later, ⟨going.run.tail solo, ?_, kept, ?_⟩, Or.inl solo⟩
  · intro fed
    rw [show next.fed = child.fed from same] at fed
    rw [still fed]
    exact going.fed fed
  · rw [show next.fed = child.fed from same]
    exact going.phase

theorem going_write {ended : Bool} {byte : UInt8} {rest : Bytes} {child : Piped program.State}
    (going : Going capacities body ended ⟨.writing (byte :: rest), child⟩)
    (room : child.stdin.length < capacities.stdin) :
    Going capacities body ended ⟨.writing rest, { child with stdin := child.stdin ++ [byte] }⟩ ∧
      Follows capacities ⟨.writing (byte :: rest), child⟩ ended
        ⟨.writing rest, { child with stdin := child.stdin ++ [byte] }⟩ ended := by
  -- the byte has only moved from the parent to the pipe
  have solo : Piped.solo { child with stdin := child.stdin ++ [byte] } rest ended =
      child.solo (byte :: rest) ended := by
    unfold Piped.solo
    rw [List.append_assoc, List.singleton_append]
  refine ⟨⟨?_, going.fed, ⟨going.kept.output, ?_⟩, ?_⟩, Or.inr ⟨solo, ?_⟩⟩
  · show ReflTransGen _ _ (Piped.solo { child with stdin := child.stdin ++ [byte] } rest ended)
    rw [solo]
    exact going.run
  · show (child.stdin ++ [byte]).length ≤ capacities.stdin
    rw [List.length_append, List.length_singleton]
    omega
  · exact Or.inl ⟨rest, rfl, going.fed_of_writing rfl⟩
  · exact Nat.lt_succ_self _

theorem step_going {ended : Bool} {before after : Exchange program}
    (completes : Completes program capacities body) (fits : Fits program capacities body)
    (going : Going capacities body ended before) (step : Step program capacities before after) :
    (∃ later, Going capacities body later after ∧ Follows capacities before ended after later) ∨
      Done after := by
  cases step with
  | child steps => exact Or.inl (going_child going steps)
  | write alive room => exact Or.inl ⟨ended, going_write going room⟩
  | writeFailed gone =>
    obtain ⟨-, finished⟩ := completes.exits _ going.run _ gone
    have alive := going.fed (going.fed_of_writing rfl)
    rw [show ended = true from finished] at alive
    cases alive
  | close =>
    left
    exact ⟨ended, ⟨going.run, nofun, ⟨going.kept.output, going.kept.stdin⟩, Or.inr ⟨rfl, rfl⟩⟩,
      Or.inr ⟨rfl, Nat.lt_succ_self _⟩⟩
  | @collect child success gone =>
    right
    obtain ⟨succeeds, -⟩ := completes.exits _ going.run success gone
    subst succeeds
    refine ⟨?_, gone⟩
    have same : child.output = child.written := going.kept.output
    rw [same]
  | timeout blocked => exact absurd ⟨trivial, blocked⟩ (not_deadlocked fits going)

theorem not_step_done {before after : Exchange program} (done : Done before) :
    ¬Step program capacities before after := by
  obtain ⟨finished, exited⟩ := done
  intro step
  cases step with
  | child steps =>
    obtain ⟨act, running⟩ := running_of_step steps
    cases exited.symm.trans running
  | write alive room => cases finished
  | writeFailed gone => cases finished
  | close => cases finished
  | collect gone => cases finished
  | timeout blocked => cases finished

theorem reached_going (completes : Completes program capacities body)
    (fits : Fits program capacities body) {exchange : Exchange program}
    (reached : Reached program capacities (some body) exchange) :
    (∃ ended, Going capacities body ended exchange) ∨ Done exchange := by
  induction reached with
  | refl => exact Or.inl ⟨false, going_spawned⟩
  | tail _ step ih =>
    rcases ih with ⟨ended, going⟩ | done
    · exact (step_going completes fits going step).imp_left fun ⟨later, going, _⟩ => ⟨later, going⟩
    · exact absurd step (not_step_done done)

/-- Each side's steps come to an end, the child's because they do when it is alone. -/
theorem ends_of_going (completes : Completes program capacities body)
    (fits : Fits program capacities body) {solo : Solo program.State}
    (ends : Acc (fun later earlier => SoloStep program capacities earlier later) solo) :
    ∀ (exchange : Exchange program) (ended : Bool), Going capacities body ended exchange →
      exchange.child.solo exchange.parent.rest ended = solo →
      Acc (fun next exchange => Step program capacities exchange next) exchange := by
  induction ends with
  | intro solo _ alone =>
    intro exchange
    induction size : exchange.parent.size using Nat.strong_induction_on generalizing exchange with
    | _ size ih =>
      intro ended going same
      constructor
      intro next step
      rcases step_going completes fits going step with ⟨later, going', follows⟩ | done
      · rcases follows with goesOn | ⟨stays, smaller⟩
        · rw [same] at goesOn
          exact alone _ goesOn next later going' rfl
        · exact ih next.parent.size (by omega) next rfl later going' (stays.trans same)
      · exact ⟨_, fun after step => absurd step (not_step_done done)⟩

theorem progress_of_going {ended : Bool} {exchange : Exchange program}
    (fits : Fits program capacities body) (going : Going capacities body ended exchange) :
    ∃ next, Step program capacities exchange next := by
  obtain ⟨parent, child⟩ := exchange
  cases process : child.process with
  | running act =>
    rcases @blocked_or_step program capacities child act process with blocked | ⟨next, steps⟩
    · rcases going.phase with ⟨rest, writing, -⟩ | ⟨polls, -⟩
      · dsimp only at writing
        subst writing
        cases rest with
        | nil => exact ⟨_, .close⟩
        | cons byte rest =>
          have room : child.stdin.length < capacities.stdin := by
            by_contra full
            exact not_deadlocked fits going ⟨Nat.le_of_not_lt full, blocked⟩
          exact ⟨_, .write process room⟩
      · dsimp only at polls
        subst polls
        exact absurd ⟨trivial, blocked⟩ (not_deadlocked fits going)
    · exact ⟨_, .child steps⟩
  | exited success =>
    rcases going.phase with ⟨rest, writing, -⟩ | ⟨polls, -⟩
    · dsimp only at writing
      subst writing
      cases rest with
      | nil => exact ⟨_, .close⟩
      | cons byte rest => exact ⟨_, .writeFailed process⟩
    · dsimp only at polls
      subst polls
      exact ⟨_, .collect process⟩

/-! Outputs that do not fit, and inputs that are not closed -/

def standing (parent : Parent) (fed : Bool) (solo : Solo program.State) : Exchange program :=
  ⟨parent, ⟨solo.process, [], fed, solo.written, solo.written⟩⟩

inductive Mode : Option Bytes → Parent → Bool → Solo program.State → Prop where
  | unwritten {solo : Solo program.State} (empty : solo.input = []) (goesOn : solo.ended = false) :
      Mode none .polling true solo
  | writing {body rest : Bytes} {solo : Solo program.State} (left : solo.input = rest) :
      Mode (some body) (.writing rest) true solo
  | closed {body : Bytes} {solo : Solo program.State} (empty : solo.input = []) :
      Mode (some body) .polling false solo

theorem Mode.same {stdin : Option Bytes} {parent : Parent} {fed : Bool}
    {solo later : Solo program.State} (mode : Mode stdin parent fed solo)
    (input : later.input = solo.input) (ended : later.ended = solo.ended) :
    Mode stdin parent fed later := by
  cases mode with
  | unwritten empty goesOn => exact .unwritten (input.trans empty) (ended.trans goesOn)
  | writing left => exact .writing (input.trans left)
  | closed empty => exact .closed (input.trans empty)

def DeadlockFrom (capacities : Capacities) (exchange : Exchange program) : Prop :=
  ∃ later, ReflTransGen (Step program capacities) exchange later ∧
    Deadlocked program capacities later

/-- A child that waits for room in an output is waited for, at once or after more writes. -/
theorem deadlock_of_full {stream : Stream} {byte : UInt8} {data : Bytes} {next : program.State}
    (rest : Bytes) (child : Piped program.State)
    (acts : child.process = .running (.write stream (byte :: data) next))
    (full : capacities.output stream ≤ (child.output stream).length) :
    DeadlockFrom capacities ⟨.writing rest, child⟩ := by
  induction rest generalizing child with
  | nil => exact ⟨_, .single .close, trivial, .full acts full⟩
  | cons first rest ih =>
    by_cases room : child.stdin.length < capacities.stdin
    · obtain ⟨later, run, deadlocked⟩ := ih { child with stdin := child.stdin ++ [first] } acts full
      exact ⟨later, .head (.write acts room) run, deadlocked⟩
    · exact ⟨_, .refl, Nat.le_of_not_lt room, .full acts full⟩

theorem feed {act : Act program.State} (chunk rest : Bytes) (child : Piped program.State)
    (alive : child.process = .running act)
    (room : child.stdin.length + chunk.length ≤ capacities.stdin) :
    ReflTransGen (Step program capacities) ⟨.writing (chunk ++ rest), child⟩
      ⟨.writing rest, { child with stdin := child.stdin ++ chunk }⟩ := by
  induction chunk generalizing child with
  | nil =>
    rw [List.append_nil]
    exact .refl
  | cons byte chunk ih =>
    rw [List.length_cons] at room
    have first : Step program capacities ⟨.writing (byte :: chunk ++ rest), child⟩
        ⟨.writing (chunk ++ rest), { child with stdin := child.stdin ++ [byte] }⟩ :=
      .write alive (by omega)
    have later := ih { child with stdin := child.stdin ++ [byte] } alive (by
      rw [List.length_append, List.length_singleton]
      omega)
    have whole : child.stdin ++ byte :: chunk = child.stdin ++ [byte] ++ chunk := by
      rw [List.append_assoc, List.singleton_append]
    rw [whole]
    exact .head first later

theorem follow {stdin : Option Bytes} {parent : Parent} {fed : Bool}
    {solo later : Solo program.State} (mode : Mode stdin parent fed solo)
    (step : SoloStep program capacities solo later)
    (held : ∀ stream, (solo.written stream).length ≤ capacities.output stream) :
    DeadlockFrom capacities (standing parent fed solo) ∨
      (∀ stream, (later.written stream).length ≤ capacities.output stream) ∧
      ∃ parent' fed', Mode stdin parent' fed' later ∧
        ReflTransGen (Step program capacities) (standing parent fed solo)
          (standing parent' fed' later) := by
  cases step with
  | @put input written ended stream byte data next =>
    by_cases room : (written stream).length < capacities.output stream
    · right
      exact ⟨emit_fits held room byte, parent, fed, mode.same rfl rfl,
        .single (.child (.put rfl room))⟩
    · left
      have full := Nat.le_of_not_lt room
      cases mode with
      | unwritten empty goesOn => exact ⟨_, .refl, trivial, .full rfl full⟩
      | writing left => exact deadlock_of_full _ _ rfl full
      | closed empty => exact ⟨_, .refl, trivial, .full rfl full⟩
  | wrote =>
    exact Or.inr ⟨held, parent, fed, mode.same rfl rfl, .single (.child (.wrote rfl))⟩
  | @receive chunk input written ended most positive next some few fits =>
    cases mode with
    | unwritten empty goesOn => exact absurd (List.append_eq_nil_iff.mp empty).1 some
    | closed empty => exact absurd (List.append_eq_nil_iff.mp empty).1 some
    | writing left =>
      right
      subst left
      refine ⟨held, .writing input, true, .writing rfl, ?_⟩
      let waiting : Piped program.State :=
        ⟨.running (.read most positive next), [], true, written, written⟩
      have fills := @feed program capacities _ chunk input waiting rfl (by
        rw [List.length_nil]
        omega)
      have takes : PipeStep program capacities { waiting with stdin := [] ++ chunk }
          ⟨.running (program.act (next (chunk.take most))), chunk.drop most, true, written,
            written⟩ := .receive rfl some
      rw [List.take_of_length_le few, List.drop_of_length_le few] at takes
      exact fills.tail (.child takes)
  | eof =>
    cases mode with
    | unwritten empty goesOn => exact Or.inl ⟨_, .refl, trivial, .empty rfl rfl rfl⟩
    | closed empty =>
      exact Or.inr ⟨held, .polling, false, .closed rfl, .single (.child (.eof rfl rfl rfl))⟩
    | writing left =>
      right
      subst left
      refine ⟨held, .polling, false, .closed rfl, ?_⟩
      exact .head .close (.single (.child (.eof rfl rfl rfl)))
  | exit =>
    exact Or.inr ⟨held, parent, fed, mode.same rfl rfl, .single (.child (.exit rfl))⟩

theorem follow_run {stdin : Option Bytes} {solo : Solo program.State}
    (first : Mode stdin (spawned program stdin).parent true (program.alone body))
    (served : ∀ exchange, Reached program capacities stdin exchange →
      ¬Deadlocked program capacities exchange)
    (run : ReflTransGen (SoloStep program capacities) (program.alone body) solo) :
    (∀ stream, (solo.written stream).length ≤ capacities.output stream) ∧
      ∃ parent fed, Mode stdin parent fed solo ∧
        Reached program capacities stdin (standing parent fed solo) := by
  induction run with
  | refl => exact ⟨fun stream => Nat.zero_le _, _, true, first, .refl⟩
  | tail _ step ih =>
    obtain ⟨held, parent, fed, mode, reached⟩ := ih
    rcases follow mode step held with ⟨later, run, deadlocked⟩ | ⟨held, parent, fed, mode, run⟩
    · exact absurd deadlocked (served later (reached.trans run))
    · exact ⟨held, parent, fed, mode, reached.trans run⟩

end

section
variable {platform : Platform} {runner : CgiRunner} {request : Request} {program : Program}
  {capacities : Capacities}

theorem command_stdin (runner : CgiRunner) (request : Request) :
    (runner.command request).stdin = if request.body = [] then none else some request.body := rfl

/-- A body and outputs that fit are needed: without a body the child waits for the end of its
input, and without room it waits for its output to be read. -/
theorem fits_of_delivered (completes : Completes program capacities request.body)
    (delivered : Delivered program capacities platform runner request) :
    request.body ≠ [] ∧ Fits program capacities request.body := by
  have served := delivered.served
  rw [command_stdin] at served
  have some : request.body ≠ [] := by
    intro none
    rw [if_pos none] at served
    obtain ⟨later, run, ended⟩ := completes.meets_end
    rw [none] at run
    obtain ⟨-, parent, fed, mode, -⟩ := follow_run (.unwritten rfl rfl) served run
    cases mode with
    | unwritten _ goesOn => cases ended.symm.trans goesOn
  refine ⟨some, fun later run => ?_⟩
  rw [if_neg some] at served
  exact (follow_run (.writing rfl) served run).1

theorem delivered_of_fits (completes : Completes program capacities request.body)
    (some : request.body ≠ []) (fits : Fits program capacities request.body) :
    Delivered program capacities platform runner request := by
  have stdin : (runner.command request).stdin = Option.some request.body := by
    rw [command_stdin, if_neg some]
  constructor
  · intro exchange reached
    rw [stdin] at reached
    rcases reached_going completes fits reached with ⟨ended, going⟩ | done
    · exact not_deadlocked fits going
    · intro deadlocked
      obtain ⟨waits, -⟩ := deadlocked
      unfold Waits at waits
      rw [done.parent] at waits
      exact waits
  · intro exchange reached output finished files child started waited
    rw [stdin] at reached
    rcases reached_going completes fits reached with ⟨ended, going⟩ | done
    · rcases going.phase with ⟨rest, writing, -⟩ | ⟨polls, -⟩
      · cases finished.symm.trans writing
      · cases finished.symm.trans polls
    · rw [Parent.finished.inj (finished.symm.trans done.parent)] at waited
      exact run_spawned started rfl waited
  · rw [stdin]
    exact ends_of_going completes fits completes.ends _ false going_spawned rfl
  · intro exchange reached
    rw [stdin] at reached
    rcases reached_going completes fits reached with ⟨ended, going⟩ | done
    · exact Or.inr (progress_of_going fits going)
    · exact Or.inl ⟨_, done.parent⟩

end

/-! A script that prints after it has read -/

inductive Stage where
  | reading
  | printing
  | done

def afterRead (chunk : Bytes) : Stage := if chunk = [] then .printing else .reading

@[reducible] def printing (output : Bytes) : Program where
  State := Stage
  start := .reading
  act
    | .reading => .read 4096 (by decide) afterRead
    | .printing => .write .stdout output .done
    | .done => .exit true

inductive Prints (output : Bytes) : Solo (printing output).State → Prop where
  | reading {input : Bytes} {written : Stream → Bytes} (quiet : ∀ stream, written stream = []) :
      Prints output ⟨input, .running (.read 4096 (by decide) afterRead), written, false⟩
  | printing {input rest : Bytes} {written : Stream → Bytes}
      (whole : written .stdout ++ rest = output) (quiet : written .stderr = []) :
      Prints output ⟨input, .running (.write .stdout rest .done), written, true⟩
  | exiting {input : Bytes} {written : Stream → Bytes} (whole : written .stdout = output)
      (quiet : written .stderr = []) : Prints output ⟨input, .running (.exit true), written, true⟩
  | exited {input : Bytes} {written : Stream → Bytes} (whole : written .stdout = output)
      (quiet : written .stderr = []) : Prints output ⟨input, .exited true, written, true⟩

def printSize (output : Bytes) (solo : Solo (printing output).State) : Nat :=
  match solo.process with
  | .running (.read _ _ _) => solo.input.length + output.length + 4
  | .running (.write _ data _) => data.length + 2
  | .running (.exit _) => 1
  | .exited _ => 0

section
variable {capacities : Capacities} {output : Bytes}
  {solo later : Solo (printing output).State}

theorem prints_step (prints : Prints output solo)
    (step : SoloStep (printing output) capacities solo later) :
    Prints output later ∧ printSize output later < printSize output solo := by
  cases prints with
  | reading quiet =>
    cases step with
    | @receive chunk input _ _ _ _ _ some few fits =>
      have next : afterRead chunk = .reading := if_neg some
      rw [next]
      refine ⟨.reading quiet, ?_⟩
      have long := List.length_pos_iff.mpr some
      simp only [printSize, List.length_append]
      omega
    | eof =>
      refine ⟨.printing ?_ (quiet _), ?_⟩
      · rw [quiet, List.nil_append]
      · simp only [printSize]
        show output.length + 2 < _
        omega
  | printing whole quiet =>
    cases step with
    | @put _ _ _ _ byte data _ =>
      refine ⟨.printing ?_ ?_, Nat.lt_succ_self _⟩
      · rw [emit, Function.update_self, List.append_assoc, List.singleton_append]
        exact whole
      · rw [emit, Function.update_of_ne (by decide)]
        exact quiet
    | wrote =>
      rw [List.append_nil] at whole
      exact ⟨.exiting whole quiet, Nat.lt_succ_self _⟩
  | exiting whole quiet =>
    cases step with
    | exit => exact ⟨.exited whole quiet, Nat.lt_succ_self _⟩
  | exited whole quiet => cases step

theorem prints_alone (input : Bytes) : Prints output ((printing output).alone input) :=
  .reading fun _ => rfl

theorem prints_run {input : Bytes}
    (run : ReflTransGen (SoloStep (printing output) capacities) ((printing output).alone input)
      solo) : Prints output solo := by
  induction run with
  | refl => exact prints_alone input
  | tail _ step ih => exact (prints_step ih step).1

theorem completes_printing (output input : Bytes) (capacities : Capacities) :
    Completes (printing output) capacities input := by
  constructor
  · exact acc_of_decreasing (printSize output) (fun solo later => prints_step) (prints_alone input)
  · intro later run success exited
    cases prints_run run with
    | reading _ => cases exited
    | printing _ _ => cases exited
    | exiting _ _ => cases exited
    | exited _ _ =>
      cases exited
      exact ⟨rfl, rfl⟩

end

/-- For a program that reads its input to the end and exits with success, its standard output
is delivered exactly when there is a body and the outputs fit into their pipes. -/
theorem delivered_iff (platform : Platform) (runner : CgiRunner) (request : Request)
    (program : Program) (capacities : Capacities)
    (completes : Completes program capacities request.body) :
    Delivered program capacities platform runner request ↔
      request.body ≠ [] ∧ Fits program capacities request.body :=
  ⟨fits_of_delivered completes, fun both => delivered_of_fits completes both.1 both.2⟩

def linuxPipes : Capacities := ⟨65536, fun _ => 65536, by decide⟩

def smallPost : Request :=
  ⟨.post, "/cgi/print.py".toList, "HTTP/1.1".toList, HashMap.empty, [120]⟩

def printingPlatform : Platform :=
  ⟨asciiTables, fun _ files => some ⟨[], some ⟨true, [10, 10], []⟩, files⟩⟩

theorem delivered_iff_printing :
    Delivered (printing [10, 10]) linuxPipes printingPlatform
        (.new "python3".toList "print.py".toList) smallPost ↔
      smallPost.body ≠ [] ∧ Fits (printing [10, 10]) linuxPipes smallPost.body :=
  delivered_iff printingPlatform (.new "python3".toList "print.py".toList) smallPost
    (printing [10, 10]) linuxPipes (completes_printing [10, 10] smallPost.body linuxPipes)

/-- The child prints one byte more than its pipe holds. -/
theorem output_stuck :
    ¬∀ (platform : Platform) (runner : CgiRunner) (request : Request) (program : Program)
      (capacities : Capacities), Completes program capacities request.body →
      Delivered program capacities platform runner request := by
  intro delivered
  let long : Bytes := List.replicate 65537 10
  have completes := completes_printing long smallPost.body linuxPipes
  obtain ⟨-, fits⟩ := fits_of_delivered completes
    (delivered printingPlatform (.new "python3".toList "print.py".toList) smallPost
      (printing long) linuxPipes completes)
  obtain ⟨later, success, run, exited⟩ := exit_of_ends completes.ends
  have room := fits later run .stdout
  cases prints_run run with
  | reading _ => cases exited
  | printing _ _ => cases exited
  | exiting _ _ => cases exited
  | exited whole _ =>
    dsimp only at room
    rw [whole, List.length_replicate] at room
    exact absurd room (by decide)

end LocalServer.CgiPipes
