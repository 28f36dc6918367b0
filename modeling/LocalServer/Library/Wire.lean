import LocalServer.Library.Descriptors

/-! What the log tells about one connection: the bytes its socket took, and whether it was
shut down. -/

namespace LocalServer.Library
open Utf8

def Entry.taken (connection : Nat) (entry : Entry) : Bytes :=
  if entry.owner = some connection then
    match entry.call with
    | .write _ data (.wrote count) => data.take count
    | _ => []
  else []

/-- All that the socket of a connection took, in the order in which it took it. -/
def delivered (connection : Nat) : List Entry → Bytes
  | [] => []
  | entry :: older => delivered connection older ++ entry.taken connection

/-- The connection was shut down, which tells the other side that no bytes are missing. -/
def ShutDown (connection : Nat) (log : List Entry) : Prop :=
  ∃ entry ∈ log, entry.owner = some connection ∧ ∃ fd, entry.call = .shutdown fd

structure Untouched (connection : Nat) (before after : List Entry) : Prop where
  delivered : delivered connection after = delivered connection before
  shutDown : ShutDown connection after → ShutDown connection before

def Call.Inward : Call → Prop
  | .write _ _ _ | .shutdown _ => False
  | _ => True

variable {connection : Nat} {before middle after : List Entry}

theorem Untouched.refl (log : List Entry) : Untouched connection log log := ⟨rfl, id⟩

theorem Untouched.trans (early : Untouched connection before middle)
    (late : Untouched connection middle after) : Untouched connection before after :=
  ⟨late.delivered.trans early.delivered, fun shut => early.shutDown (late.shutDown shut)⟩

theorem untouched_cons {entry : Entry} (log : List Entry)
    (harmless : entry.owner ≠ some connection ∨ entry.call.Inward) :
    Untouched connection log (entry :: log) := by
  have nothing : entry.taken connection = [] := by
    unfold Entry.taken
    rcases harmless with other | inward
    · exact if_neg other
    · split_ifs
      · cases call : entry.call with
        | write fd data result =>
          rw [call] at inward
          cases inward
        | _ => rfl
      · rfl
  refine ⟨by rw [Library.delivered, nothing, List.append_nil], ?_⟩
  intro shut
  obtain ⟨found, member, owned, fd, isShutdown⟩ := shut
  rcases List.mem_cons.mp member with same | older
  · subst same
    rcases harmless with other | inward
    · exact absurd owned other
    · rw [isShutdown] at inward
      cases inward
  · exact ⟨found, older, owned, fd, isShutdown⟩

/-- A write that took some bytes gives them to the connection that owns the descriptor. -/
theorem delivered_wrote (fd : Fd) (data : Bytes) (count : Nat) (log : List Entry) :
    delivered connection (⟨.write fd data (.wrote count), some connection⟩ :: log) =
      delivered connection log ++ data.take count := by
  rw [delivered, Entry.taken, if_pos rfl]

theorem untouched_write {fd : Fd} {data : Bytes} {result : WriteResult} {owner : Option Nat}
    (log : List Entry) (none : ∀ count, result = .wrote count → count = 0) :
    Untouched connection log (⟨.write fd data result, owner⟩ :: log) := by
  constructor
  · have nothing : Entry.taken connection ⟨.write fd data result, owner⟩ = [] := by
      unfold Entry.taken
      split_ifs
      · cases result with
        | wrote count =>
          rw [none count rfl]
          rfl
        | _ => rfl
      · rfl
    rw [delivered, nothing, List.append_nil]
  · intro shut
    obtain ⟨found, member, owned, other, isShutdown⟩ := shut
    rcases List.mem_cons.mp member with same | older
    · subst same
      cases isShutdown
    · exact ⟨found, older, owned, other, isShutdown⟩

end LocalServer.Library
