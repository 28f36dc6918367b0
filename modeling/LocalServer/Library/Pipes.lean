import LocalServer.Library.Utf8
import Mathlib.Logic.Function.Basic
import Mathlib.Logic.Relation

/-! A process that reads and writes over bounded pipes: a writer waits while its pipe is full,
a reader while it is empty and can still be written to. Data moves byte by byte, so that a long
write can be interrupted anywhere. -/

namespace LocalServer.Library.Pipes
open Utf8 Relation

inductive Stream where
  | stdout
  | stderr
  deriving DecidableEq, Repr

inductive Act (S : Type) where
  | exit (success : Bool)
  | write (stream : Stream) (data : Bytes) (next : S)
  /-- Gets at most so many bytes, and none at the end of the input only. -/
  | read (most : Nat) (positive : 0 < most) (next : Bytes → S)

structure Program where
  State : Type
  start : State
  act : State → Act State

inductive Process (S : Type) where
  | running (act : Act S)
  | exited (success : Bool)

structure Capacities where
  stdin : Nat
  output : Stream → Nat
  positive : 0 < stdin

def emit (written : Stream → Bytes) (stream : Stream) (byte : UInt8) : Stream → Bytes :=
  Function.update written stream (written stream ++ [byte])

theorem length_emit (written : Stream → Bytes) (stream : Stream) (byte : UInt8) :
    (emit written stream byte stream).length = (written stream).length + 1 := by
  rw [emit, Function.update_self, List.length_append, List.length_singleton]

theorem emit_fits {capacities : Capacities} {written : Stream → Bytes} {stream : Stream}
    (held : ∀ other, (written other).length ≤ capacities.output other)
    (room : (written stream).length < capacities.output stream) (byte : UInt8) (other : Stream) :
    (emit written stream byte other).length ≤ capacities.output other := by
  by_cases same : other = stream
  · subst same
    rw [length_emit]
    omega
  · have kept : emit written stream byte other = written other := Function.update_of_ne same _ _
    rw [kept]
    exact held other

structure Solo (S : Type) where
  input : Bytes
  process : Process S
  written : Stream → Bytes
  /-- It has met the end of its input. -/
  ended : Bool

def Program.alone (program : Program) (input : Bytes) : Solo program.State :=
  ⟨input, .running (program.act program.start), fun _ => [], false⟩

variable {program : Program} {capacities : Capacities}

inductive SoloStep (program : Program) (capacities : Capacities) :
    Solo program.State → Solo program.State → Prop where
  | put {input : Bytes} {written : Stream → Bytes} {ended : Bool} {stream : Stream} {byte : UInt8}
      {data : Bytes} {next : program.State} :
      SoloStep program capacities
        ⟨input, .running (.write stream (byte :: data) next), written, ended⟩
        ⟨input, .running (.write stream data next), emit written stream byte, ended⟩
  | wrote {input : Bytes} {written : Stream → Bytes} {ended : Bool} {stream : Stream}
      {next : program.State} :
      SoloStep program capacities ⟨input, .running (.write stream [] next), written, ended⟩
        ⟨input, .running (program.act next), written, ended⟩
  | receive {chunk input : Bytes} {written : Stream → Bytes} {ended : Bool} {most : Nat}
      {positive : 0 < most} {next : Bytes → program.State} (some : chunk ≠ [])
      (few : chunk.length ≤ most) (fits : chunk.length ≤ capacities.stdin) :
      SoloStep program capacities
        ⟨chunk ++ input, .running (.read most positive next), written, ended⟩
        ⟨input, .running (program.act (next chunk)), written, ended⟩
  | eof {written : Stream → Bytes} {ended : Bool} {most : Nat} {positive : 0 < most}
      {next : Bytes → program.State} :
      SoloStep program capacities ⟨[], .running (.read most positive next), written, ended⟩
        ⟨[], .running (program.act (next [])), written, true⟩
  | exit {input : Bytes} {written : Stream → Bytes} {ended success : Bool} :
      SoloStep program capacities ⟨input, .running (.exit success), written, ended⟩
        ⟨input, .exited success, written, ended⟩

/-- However its input arrives, the program comes to an end: it has read all its input then,
and exits with success. -/
structure Completes (program : Program) (capacities : Capacities) (input : Bytes) : Prop where
  ends : Acc (fun later earlier => SoloStep program capacities earlier later) (program.alone input)
  exits : ∀ later, ReflTransGen (SoloStep program capacities) (program.alone input) later →
    ∀ success, later.process = .exited success → success = true ∧ later.ended = true

def Fits (program : Program) (capacities : Capacities) (input : Bytes) : Prop :=
  ∀ later, ReflTransGen (SoloStep program capacities) (program.alone input) later →
    ∀ stream, (later.written stream).length ≤ capacities.output stream

theorem soloStep_of_running {solo : Solo program.State} {act : Act program.State}
    (running : solo.process = .running act) : ∃ later, SoloStep program capacities solo later := by
  obtain ⟨input, process, written, ended⟩ := solo
  subst running
  cases act with
  | exit success => exact ⟨_, .exit⟩
  | write stream data next =>
    cases data with
    | nil => exact ⟨_, .wrote⟩
    | cons byte data => exact ⟨_, .put⟩
  | read most positive next =>
    cases input with
    | nil => exact ⟨_, .eof⟩
    | cons byte input =>
      exact ⟨_, @SoloStep.receive program capacities [byte] input _ _ _ _ _ (by simp)
        positive capacities.positive⟩

theorem exit_of_ends {solo : Solo program.State}
    (ends : Acc (fun later earlier => SoloStep program capacities earlier later) solo) :
    ∃ later success, ReflTransGen (SoloStep program capacities) solo later ∧
      later.process = .exited success := by
  induction ends with
  | intro solo _ ih =>
    cases process : solo.process with
    | exited success => exact ⟨solo, success, .refl, process⟩
    | running act =>
      obtain ⟨next, steps⟩ := @soloStep_of_running program capacities solo act process
      obtain ⟨later, success, run, exited⟩ := ih next steps
      exact ⟨later, success, .head steps run, exited⟩

theorem Completes.meets_end {input : Bytes} (completes : Completes program capacities input) :
    ∃ later, ReflTransGen (SoloStep program capacities) (program.alone input) later ∧
      later.ended = true := by
  obtain ⟨later, success, run, exited⟩ := exit_of_ends completes.ends
  exact ⟨later, run, (completes.exits later run success exited).2⟩

theorem acc_of_decreasing {holds : Solo program.State → Prop} (size : Solo program.State → Nat)
    (step : ∀ solo later, holds solo → SoloStep program capacities solo later →
      holds later ∧ size later < size solo) {solo : Solo program.State} (first : holds solo) :
    Acc (fun later earlier => SoloStep program capacities earlier later) solo := by
  induction bound : size solo using Nat.strong_induction_on generalizing solo with
  | _ bound ih =>
    constructor
    intro later steps
    obtain ⟨next, smaller⟩ := step solo later first steps
    exact ih (size later) (by omega) next rfl

/-! Behind pipes -/

structure Piped (S : Type) where
  process : Process S
  stdin : Bytes
  /-- The input can still be written to. -/
  fed : Bool
  output : Stream → Bytes
  written : Stream → Bytes

def Program.piped (program : Program) : Piped program.State :=
  ⟨.running (program.act program.start), [], true, fun _ => [], fun _ => []⟩

inductive PipeStep (program : Program) (capacities : Capacities) :
    Piped program.State → Piped program.State → Prop where
  | put {piped : Piped program.State} {stream : Stream} {byte : UInt8} {data : Bytes}
      {next : program.State} (acts : piped.process = .running (.write stream (byte :: data) next))
      (room : (piped.output stream).length < capacities.output stream) :
      PipeStep program capacities piped
        { piped with
          process := .running (.write stream data next)
          output := emit piped.output stream byte
          written := emit piped.written stream byte }
  | wrote {piped : Piped program.State} {stream : Stream} {next : program.State}
      (acts : piped.process = .running (.write stream [] next)) :
      PipeStep program capacities piped { piped with process := .running (program.act next) }
  | receive {piped : Piped program.State} {most : Nat} {positive : 0 < most}
      {next : Bytes → program.State} (acts : piped.process = .running (.read most positive next))
      (ready : piped.stdin ≠ []) :
      PipeStep program capacities piped
        { piped with
          process := .running (program.act (next (piped.stdin.take most)))
          stdin := piped.stdin.drop most }
  | eof {piped : Piped program.State} {most : Nat} {positive : 0 < most}
      {next : Bytes → program.State} (acts : piped.process = .running (.read most positive next))
      (drained : piped.stdin = []) (closed : piped.fed = false) :
      PipeStep program capacities piped { piped with process := .running (program.act (next [])) }
  | exit {piped : Piped program.State} {success : Bool}
      (acts : piped.process = .running (.exit success)) :
      PipeStep program capacities piped { piped with process := .exited success }

inductive Blocked (program : Program) (capacities : Capacities) : Piped program.State → Prop where
  | full {piped : Piped program.State} {stream : Stream} {byte : UInt8} {data : Bytes}
      {next : program.State} (acts : piped.process = .running (.write stream (byte :: data) next))
      (full : capacities.output stream ≤ (piped.output stream).length) :
      Blocked program capacities piped
  | empty {piped : Piped program.State} {most : Nat} {positive : 0 < most}
      {next : Bytes → program.State} (acts : piped.process = .running (.read most positive next))
      (drained : piped.stdin = []) (fed : piped.fed = true) : Blocked program capacities piped

theorem blocked_or_step {piped : Piped program.State} {act : Act program.State}
    (running : piped.process = .running act) :
    Blocked program capacities piped ∨ ∃ next, PipeStep program capacities piped next := by
  cases act with
  | exit success => exact Or.inr ⟨_, .exit running⟩
  | write stream data next =>
    cases data with
    | nil => exact Or.inr ⟨_, .wrote running⟩
    | cons byte data =>
      by_cases room : (piped.output stream).length < capacities.output stream
      · exact Or.inr ⟨_, .put running room⟩
      · exact Or.inl (.full running (Nat.le_of_not_lt room))
  | read most positive next =>
    by_cases ready : piped.stdin = []
    · cases fed : piped.fed with
      | true => exact Or.inl (.empty running ready fed)
      | false => exact Or.inr ⟨_, .eof running ready fed⟩
    · exact Or.inr ⟨_, .receive running ready⟩

def Piped.solo {S : Type} (piped : Piped S) (more : Bytes) (ended : Bool) : Solo S :=
  ⟨piped.stdin ++ more, piped.process, piped.written, ended⟩

structure Kept (capacities : Capacities) {S : Type} (piped : Piped S) : Prop where
  output : piped.output = piped.written
  stdin : piped.stdin.length ≤ capacities.stdin

theorem kept_piped (program : Program) : Kept capacities program.piped :=
  ⟨rfl, Nat.zero_le _⟩

variable {piped next : Piped program.State}

theorem running_of_step (step : PipeStep program capacities piped next) :
    ∃ act, piped.process = .running act := by
  cases step with
  | put acts | wrote acts | receive acts | eof acts | exit acts => exact ⟨_, acts⟩

theorem kept_step (kept : Kept capacities piped) (step : PipeStep program capacities piped next) :
    Kept capacities next ∧ next.fed = piped.fed := by
  obtain ⟨output, stdin⟩ := kept
  cases step with
  | put acts room =>
    refine ⟨⟨?_, stdin⟩, rfl⟩
    show emit piped.output _ _ = emit piped.written _ _
    rw [output]
  | wrote acts => exact ⟨⟨output, stdin⟩, rfl⟩
  | receive acts ready =>
    refine ⟨⟨output, ?_⟩, rfl⟩
    show (List.drop _ piped.stdin).length ≤ capacities.stdin
    rw [List.length_drop]
    omega
  | eof acts drained closed => exact ⟨⟨output, stdin⟩, rfl⟩
  | exit acts => exact ⟨⟨output, stdin⟩, rfl⟩

/-- Behind pipes a process does what it could do alone. -/
theorem solo_of_step (kept : Kept capacities piped) {more : Bytes} (ended : Bool)
    (rest : piped.fed = false → more = []) (step : PipeStep program capacities piped next) :
    ∃ later, SoloStep program capacities (piped.solo more ended) (next.solo more later) ∧
      (piped.fed = true → later = ended) := by
  obtain ⟨process, stdin, fed, output, written⟩ := piped
  cases step with
  | put acts room =>
    dsimp only at acts
    subst acts
    exact ⟨ended, .put, fun _ => rfl⟩
  | wrote acts =>
    dsimp only at acts
    subst acts
    exact ⟨ended, .wrote, fun _ => rfl⟩
  | @receive most positive next acts ready =>
    dsimp only at acts ready
    subst acts
    refine ⟨ended, ?_, fun _ => rfl⟩
    have whole : stdin ++ more = stdin.take most ++ (stdin.drop most ++ more) := by
      rw [← List.append_assoc, List.take_append_drop]
    unfold Piped.solo
    rw [whole]
    apply SoloStep.receive
    · intro none
      rcases List.take_eq_nil_iff.mp none with zero | empty
      · omega
      · exact ready empty
    · exact List.length_take_le _ _
    · exact (List.length_take_le' _ _).trans kept.stdin
  | eof acts drained closed =>
    dsimp only at acts drained closed rest
    subst acts drained
    rw [rest closed]
    exact ⟨true, .eof, fun fed => by rw [closed] at fed; cases fed⟩
  | exit acts =>
    dsimp only at acts
    subst acts
    exact ⟨ended, .exit, fun _ => rfl⟩

theorem not_full {more : Bytes} {ended : Bool} (kept : Kept capacities piped)
    {stream : Stream} {byte : UInt8} {data : Bytes} {later : program.State}
    (acts : piped.process = .running (.write stream (byte :: data) later))
    (fits : ∀ solo, SoloStep program capacities (piped.solo more ended) solo →
      ∀ stream, (solo.written stream).length ≤ capacities.output stream) :
    (piped.output stream).length < capacities.output stream := by
  obtain ⟨process, stdin, fed, output, written⟩ := piped
  dsimp only at acts
  subst acts
  have room : (emit written stream byte stream).length ≤ capacities.output stream :=
    fits _ .put stream
  rw [length_emit] at room
  have same : output = written := kept.output
  rw [same]
  exact room

end LocalServer.Library.Pipes
