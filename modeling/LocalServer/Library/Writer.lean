import LocalServer.Library.Action
import LocalServer.Library.Utf8

/-! Writing until everything is written: each call of `write` takes as much as
it likes. -/

namespace LocalServer.Library
open Utf8

inductive WriteAnswer where
  | took (count : Nat)
  | interrupted
  | failed
  deriving DecidableEq, Repr

def WriteAnswer.accepts : WriteAnswer → Bool
  | .took count => count ≠ 0
  | .interrupted => true
  | .failed => false

structure Writer where
  received : Bytes
  /-- The answers to come. Behind them a call takes all that it is given. -/
  answers : List WriteAnswer
  deriving DecidableEq, Repr

namespace Writer

def writeAllTo (received data : Bytes) (answers : List WriteAnswer) : Bool × Writer :=
  if data = [] then (true, ⟨received, answers⟩)
  else
    match answers with
    | [] => (true, ⟨received ++ data, []⟩)
    | .took count :: rest =>
      if count = 0 then (false, ⟨received, rest⟩)
      else writeAllTo (received ++ data.take count) (data.drop count) rest
    | .interrupted :: rest => writeAllTo received data rest
    | .failed :: rest => (false, ⟨received, rest⟩)

def writeAll (data : Bytes) : Action Writer Bool := fun writer =>
  writeAllTo writer.received data writer.answers

def Accepts (writer : Writer) : Prop := ∀ answer ∈ writer.answers, answer.accepts = true

instance (writer : Writer) : Decidable writer.Accepts :=
  inferInstanceAs (Decidable (∀ answer ∈ writer.answers, answer.accepts = true))

/-- What arrives is the start of what was written, and all of it where writing succeeds. -/
theorem writeAllTo_received (received data : Bytes) (answers : List WriteAnswer) :
    ∃ sent, (writeAllTo received data answers).2.received = received ++ sent ∧ sent <+: data ∧
      ((writeAllTo received data answers).1 = true → sent = data) := by
  induction answers generalizing received data with
  | nil =>
    unfold writeAllTo
    by_cases done : data = []
    · rw [if_pos done]
      exact ⟨[], (List.append_nil _).symm, List.nil_prefix, fun _ => done.symm⟩
    · rw [if_neg done]
      exact ⟨data, rfl, List.prefix_refl _, fun _ => rfl⟩
  | cons answer answers ih =>
    have nothing : ∃ sent, received = received ++ sent ∧ sent <+: data ∧ (false = true → sent = data) :=
      ⟨[], (List.append_nil _).symm, List.nil_prefix, fun succeeds => by cases succeeds⟩
    unfold writeAllTo
    by_cases done : data = []
    · rw [if_pos done]
      exact ⟨[], (List.append_nil _).symm, List.nil_prefix, fun _ => done.symm⟩
    · rw [if_neg done]
      cases answer with
      | took count =>
        dsimp only
        by_cases stuck : count = 0
        · rw [if_pos stuck]
          exact nothing
        · rw [if_neg stuck]
          obtain ⟨sent, arrives, ⟨unsent, whole⟩, all⟩ := ih (received ++ data.take count) (data.drop count)
          refine ⟨data.take count ++ sent, ?_, ⟨unsent, ?_⟩, ?_⟩
          · rw [arrives, List.append_assoc]
          · rw [List.append_assoc, whole, List.take_append_drop]
          · intro succeeds
            rw [all succeeds, List.take_append_drop]
      | interrupted => exact ih received data
      | failed => exact nothing

theorem writeAllTo_accepts {answers : List WriteAnswer} (received data : Bytes)
    (accepts : ∀ answer ∈ answers, answer.accepts = true) :
    (writeAllTo received data answers).1 = true ∧ (writeAllTo received data answers).2.Accepts := by
  induction answers generalizing received data with
  | nil =>
    unfold writeAllTo
    split_ifs
    · exact ⟨rfl, accepts⟩
    · exact ⟨rfl, accepts⟩
  | cons answer answers ih =>
    obtain ⟨first, later⟩ := List.forall_mem_cons.mp accepts
    unfold writeAllTo
    by_cases done : data = []
    · rw [if_pos done]
      exact ⟨rfl, accepts⟩
    · rw [if_neg done]
      cases answer with
      | took count =>
        dsimp only
        rw [if_neg (of_decide_eq_true first)]
        exact ih _ _ later
      | interrupted => exact ih _ _ later
      | failed => cases first

theorem writeAll_received (data : Bytes) (writer : Writer) :
    ∃ sent, (writeAll data writer).2.received = writer.received ++ sent ∧ sent <+: data ∧
      ((writeAll data writer).1 = true → sent = data) :=
  writeAllTo_received writer.received data writer.answers

/-- A writer that accepts everything receives everything, and goes on accepting. -/
theorem writeAll_accepts (data : Bytes) {writer : Writer} (accepts : writer.Accepts) :
    (writeAll data writer).1 = true ∧ (writeAll data writer).2.received = writer.received ++ data ∧
      (writeAll data writer).2.Accepts := by
  obtain ⟨succeeds, still⟩ := writeAllTo_accepts writer.received data accepts
  obtain ⟨sent, arrives, -, all⟩ := writeAll_received data writer
  refine ⟨succeeds, ?_, still⟩
  rw [arrives, all succeeds]

end Writer

end LocalServer.Library
