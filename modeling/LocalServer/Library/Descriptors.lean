import LocalServer.Library.HashMap
import LocalServer.Library.Utf8

/-! The sockets of one process as its kernel keeps them. A descriptor number names one
connection after another; every call is logged with the connection it met. -/

namespace LocalServer.Library
open Utf8

abbrev Fd := Nat

inductive Interest where
  | readable
  | writable
  deriving DecidableEq, Repr

inductive ReadResult where
  | received (segment : Bytes)
  /-- The other side has closed. -/
  | closed
  | wouldBlock
  | failed
  deriving DecidableEq, Repr

inductive WriteResult where
  | wrote (count : Nat)
  | wouldBlock
  | failed
  deriving DecidableEq, Repr

inductive Call where
  /-- The descriptor now names a new connection. -/
  | accept (fd : Fd)
  | register (fd : Fd)
  | watchWrite (fd : Fd)
  | unregister (fd : Fd)
  /-- An event that was reported for this connection is about to be handled. -/
  | dispatch (fd : Fd) (connection : Nat)
  | read (fd : Fd) (result : ReadResult)
  | write (fd : Fd) (data : Bytes) (result : WriteResult)
  | shutdown (fd : Fd)
  | close (fd : Fd)
  deriving DecidableEq, Repr

def Call.fd : Call → Fd
  | .accept fd | .register fd | .watchWrite fd | .unregister fd | .dispatch fd _ | .read fd _
  | .write fd _ _ | .shutdown fd | .close fd => fd

structure Entry where
  call : Call
  owner : Option Nat
  deriving DecidableEq, Repr

/-- Connections are numbered as they are accepted, and each is open on one descriptor at most. -/
structure Kernel where
  /-- The connection open on a descriptor, of those that were accepted here. -/
  connections : HashMap Fd Nat
  interest : HashMap Fd Interest
  /-- How many connections were accepted. -/
  accepted : Nat
  /-- The bytes read on a connection so far. -/
  received : Nat → Bytes
  /-- Newest call first. -/
  log : List Entry
  numbered : ∀ fd connection, connections.get fd = some connection → connection < accepted
  single : ∀ fd other connection, connections.get fd = some connection →
    connections.get other = some connection → fd = other

namespace Kernel

def new : Kernel where
  connections := HashMap.empty
  interest := HashMap.empty
  accepted := 0
  received := fun _ => []
  log := []
  numbered := fun fd connection found => by rw [HashMap.get_empty] at found; cases found
  single := fun fd other connection found => by rw [HashMap.get_empty] at found; cases found

def owner (kernel : Kernel) (fd : Fd) : Option Nat := kernel.connections.get fd

def assign (kernel : Kernel) (fd : Fd) : Kernel where
  connections := kernel.connections.insert fd kernel.accepted
  interest := kernel.interest
  accepted := kernel.accepted + 1
  received := Function.update kernel.received kernel.accepted []
  log := kernel.log
  numbered := by
    intro other connection found
    rw [HashMap.get_insert] at found
    split_ifs at found with same
    · cases found
      exact Nat.lt_succ_self _
    · exact Nat.lt_succ_of_lt (kernel.numbered other connection found)
  single := by
    intro first second connection found found'
    rw [HashMap.get_insert] at found found'
    -- the new number is not in use yet
    split_ifs at found found' with here there there
    · rw [here, there]
    · cases found
      exact absurd (kernel.numbered second _ found') (Nat.lt_irrefl _)
    · cases found'
      exact absurd (kernel.numbered first _ found) (Nat.lt_irrefl _)
    · exact kernel.single first second connection found found'

def release (kernel : Kernel) (fd : Fd) : Kernel where
  connections := kernel.connections.remove fd
  interest := kernel.interest.remove fd
  accepted := kernel.accepted
  received := kernel.received
  log := kernel.log
  numbered := by
    intro other connection found
    rw [HashMap.get_remove] at found
    split_ifs at found
    exact kernel.numbered other connection found
  single := by
    intro first second connection found found'
    rw [HashMap.get_remove] at found found'
    split_ifs at found found'
    exact kernel.single first second connection found found'

def effect (kernel : Kernel) : Call → Kernel
  | .accept fd => kernel.assign fd
  | .register fd => { kernel with interest := kernel.interest.insert fd .readable }
  | .watchWrite fd => { kernel with
      interest := match kernel.interest.get fd with
        | none => kernel.interest
        | some _ => kernel.interest.insert fd .writable }
  | .unregister fd => { kernel with interest := kernel.interest.remove fd }
  | .read fd (.received segment) => { kernel with
      received := match kernel.owner fd with
        | none => kernel.received
        | some connection => Function.update kernel.received connection
            (kernel.received connection ++ segment) }
  | .close fd => kernel.release fd
  | .dispatch _ _ | .read _ _ | .write _ _ _ | .shutdown _ => kernel

def issue (kernel : Kernel) (call : Call) : Kernel :=
  let after := kernel.effect call
  { after with log := ⟨call, kernel.owner call.fd⟩ :: kernel.log }

@[simp] theorem log_issue (kernel : Kernel) (call : Call) :
    (kernel.issue call).log = ⟨call, kernel.owner call.fd⟩ :: kernel.log := rfl

/-- The call changes neither who owns a descriptor nor what was read. -/
def Call.Quiet : Call → Prop
  | .accept _ | .close _ | .read _ (.received _) => False
  | _ => True

theorem effect_quiet (kernel : Kernel) {call : Call} (quiet : Call.Quiet call) :
    (kernel.effect call).owner = kernel.owner ∧ (kernel.effect call).received = kernel.received := by
  cases call with
  | accept fd => cases quiet
  | close fd => cases quiet
  | read fd result =>
    cases result with
    | received segment => cases quiet
    | _ => exact ⟨rfl, rfl⟩
  | _ => exact ⟨rfl, rfl⟩

@[simp] theorem owner_accept (kernel : Kernel) (fd other : Fd) :
    (kernel.issue (.accept fd)).owner other =
      if other = fd then some kernel.accepted else kernel.owner other :=
  HashMap.get_insert kernel.connections fd other kernel.accepted

@[simp] theorem owner_close (kernel : Kernel) (fd other : Fd) :
    (kernel.issue (.close fd)).owner other = if other = fd then none else kernel.owner other :=
  HashMap.get_remove kernel.connections fd other

@[simp] theorem received_close (kernel : Kernel) (fd : Fd) :
    (kernel.issue (.close fd)).received = kernel.received := rfl

theorem owner_quiet (kernel : Kernel) {call : Call} (quiet : Call.Quiet call) (fd : Fd) :
    (kernel.issue call).owner fd = kernel.owner fd := congrFun (kernel.effect_quiet quiet).1 fd

theorem received_quiet (kernel : Kernel) {call : Call} (quiet : Call.Quiet call) :
    (kernel.issue call).received = kernel.received := (kernel.effect_quiet quiet).2

@[simp] theorem owner_read (kernel : Kernel) (fd other : Fd) (result : ReadResult) :
    (kernel.issue (.read fd result)).owner other = kernel.owner other := by
  cases result <;> rfl

/-- A segment goes to the connection open on the descriptor, and to no other. -/
theorem received_read (kernel : Kernel) {fd : Fd} {connection : Nat}
    (opened : kernel.owner fd = some connection) (segment : Bytes) (other : Nat) :
    (kernel.issue (.read fd (.received segment))).received other =
      if other = connection then kernel.received connection ++ segment
      else kernel.received other := by
  simp only [issue, effect, opened, Function.update_apply]

theorem received_accept (kernel : Kernel) (fd : Fd) (other : Nat) :
    (kernel.issue (.accept fd)).received other =
      if other = kernel.accepted then [] else kernel.received other := by
  simp only [issue, effect, assign, Function.update_apply]

theorem interest_watchWrite (kernel : Kernel) (fd other : Fd) :
    (kernel.issue (.watchWrite fd)).interest.get other =
      if other = fd then (kernel.interest.get fd).map fun _ => .writable
      else kernel.interest.get other := by
  simp only [issue, effect]
  by_cases same : other = fd
  · rw [if_pos same, same]
    cases found : kernel.interest.get fd with
    | none => exact found
    | some interest => exact HashMap.get_insert_self _ _ _
  · rw [if_neg same]
    cases kernel.interest.get fd with
    | none => rfl
    | some interest => exact HashMap.get_insert_of_ne _ _ _ _ same

theorem interest_read (kernel : Kernel) (fd : Fd) (result : ReadResult) :
    (kernel.issue (.read fd result)).interest = kernel.interest := by
  cases result <;> rfl

theorem accepted_read (kernel : Kernel) (fd : Fd) (result : ReadResult) :
    (kernel.issue (.read fd result)).accepted = kernel.accepted := by
  cases result <;> rfl

end Kernel

/-! Discipline -/

/-- Data moves and descriptors are closed only where a connection is open, and an event is
handled on the connection it was reported for. -/
def Entry.Sound (entry : Entry) : Prop :=
  match entry.call with
  | .read _ _ | .write _ _ _ | .shutdown _ | .close _ => entry.owner ≠ none
  | .dispatch _ connection => ∀ later, entry.owner = some later → later = connection
  | _ => True

/-- A read on the descriptor has failed since a connection was last accepted on it. -/
def readFailed (fd : Fd) : List Entry → Bool
  | [] => false
  | entry :: older =>
    if entry.call = .accept fd then false
    else entry.call = .read fd .failed || readFailed fd older

/-- Calls made while a descriptor is served: sound ones, on it, none of them an `accept`. -/
def Serving (fd : Fd) (entries : List Entry) : Prop :=
  ∀ entry ∈ entries, entry.call.fd = fd ∧ (∀ g, entry.call ≠ .accept g) ∧ entry.Sound

theorem readFailed_serving {fd other : Fd} {new old : List Entry} (serving : Serving fd new) :
    (other ≠ fd → readFailed other (new ++ old) = readFailed other old) ∧
      (readFailed other old = true → readFailed other (new ++ old) = true) := by
  induction new with
  | nil => exact ⟨fun _ => rfl, id⟩
  | cons entry new ih =>
    obtain ⟨keeps, grows⟩ := ih fun later member => serving later (by simp [member])
    obtain ⟨on, notAccept, -⟩ := serving entry (by simp)
    rw [List.cons_append, readFailed, if_neg (notAccept other)]
    refine ⟨fun different => ?_, fun failed => by rw [grows failed, Bool.or_true]⟩
    have elsewhere : entry.call ≠ .read other .failed := by
      intro same
      rw [same] at on
      exact different on
    rw [keeps different, decide_eq_false elsewhere, Bool.false_or]

end LocalServer.Library
