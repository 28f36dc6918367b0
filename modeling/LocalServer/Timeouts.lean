import LocalServer.Footprint
import LocalServer.Isolation

/-! Which connections the timeout watches. Each one does, as long as no write event ends with
bytes left: the loop forgets the time of a connection after every write event. -/

namespace LocalServer.Timeouts
open Library Action Utf8 Server Loop Footprint

/-- No write event leaves a part of its response unsent on a connection that stays open. -/
def Flowing (loop : Loop) : Label → Prop
  | .write event results => ∀ data, loop.writeBuffers.get event.fd = some data →
      stalls data results = false
  | _ => True

variable {fd : Fd}

theorem owner_finishWrite (loop : Loop) : (finishWrite fd loop).2.kernel.owner fd = none := by
  simp [finishWrite, issue, removeWrite]

theorem owner_abandonWrite (loop : Loop) : (abandonWrite fd loop).2.kernel.owner fd = none := by
  simp [abandonWrite, issue, removeWrite]

/-- A response that is sent or given up leaves the descriptor closed. -/
theorem owner_writeLoop {results : List WriteResult} {data : Bytes} (loop : Loop)
    (flows : stalls data results = false) :
    (writeLoop fd data results loop).2.kernel.owner fd = none := by
  obtain ⟨middle, -, ends⟩ := writeLoop_ends fd data results loop
  generalize (writeLoop fd data results loop).2 = after at ends
  cases ends with
  | finished => exact owner_finishWrite middle
  | abandoned => exact owner_abandonWrite middle
  | blocked data stays => cases flows.symm.trans stays

theorem owner_handleWrite {results : List WriteResult} {loop : Loop}
    (flows : ∀ data, loop.writeBuffers.get fd = some data → stalls data results = false) :
    (handleWrite fd results loop).2.kernel.owner fd = none := by
  unfold handleWrite
  cases held : loop.writeBuffers.get fd with
  | none => exact owner_finishWrite loop
  | some data => exact owner_writeLoop loop (flows data held)

/-- A connection that is open after the step was open before it, with the same time, or it
was accepted in the step and given one. -/
structure Watched (before after : Loop) : Prop where
  opened : ∀ fd connection, after.kernel.owner fd = some connection →
    (before.kernel.owner fd = some connection ∧
      after.connectTimes.get fd = before.connectTimes.get fd) ∨
    (before.kernel.accepted ≤ connection ∧ ∃ time, after.connectTimes.get fd = some time)
  accepted : before.kernel.accepted ≤ after.kernel.accepted

instance : Std.Refl Watched := ⟨fun _ => ⟨fun _ _ named => Or.inl ⟨named, rfl⟩, Nat.le_refl _⟩⟩

instance : IsTrans Loop Watched where
  trans before middle after early late := by
    refine ⟨?_, Nat.le_trans early.accepted late.accepted⟩
    intro fd connection named
    rcases late.opened fd connection named with ⟨still, same⟩ | ⟨new, time⟩
    · rw [same]
      exact early.opened fd connection still
    · exact Or.inr ⟨Nat.le_trans early.accepted new, time⟩

theorem watched_of_kernel {before after : Loop} (kernel : after.kernel = before.kernel)
    (times : after.connectTimes = before.connectTimes) : Watched before after := by
  refine ⟨fun fd connection named => Or.inl ⟨?_, by rw [times]⟩, by rw [kernel]⟩
  rwa [kernel] at named

theorem watched_of_closed {before after : Loop} (apart : Apart fd before after)
    (closed : after.kernel.owner fd = none) : Watched before after := by
  refine ⟨?_, Nat.le_of_eq apart.accepted.symm⟩
  intro other connection named
  have different : other ≠ fd := by
    intro same
    rw [same, closed] at named
    cases named
  rw [apart.owner other different] at named
  exact Or.inl ⟨named, apart.times other different⟩

theorem watched_issue {call : Call} (notAccept : ∀ g, call ≠ .accept g) :
    Keeps Watched (issue call) := by
  intro loop
  have owner : ∀ other connection, (loop.kernel.issue call).owner other = some connection →
      loop.kernel.owner other = some connection := by
    intro other connection named
    cases call with
    | accept g => exact absurd rfl (notAccept g)
    | close g =>
      rw [Kernel.owner_close] at named
      split_ifs at named
      exact named
    | read g result => rwa [Kernel.owner_read] at named
    | _ => exact named
  refine ⟨fun other connection named => Or.inl ⟨owner other connection named, rfl⟩, ?_⟩
  cases call with
  | accept g => exact absurd rfl (notAccept g)
  | read g result => exact Nat.le_of_eq (loop.kernel.accepted_read g result).symm
  | _ => exact Nat.le_refl _

theorem watched_extendRead (segment : Bytes) : Keeps Watched (extendRead fd segment) := by
  intro loop
  unfold extendRead
  cases loop.readBuffers.get fd with
  | none => exact Std.Refl.refl loop
  | some data => exact watched_of_kernel rfl rfl

theorem watched_operations (fd : Fd) : Operations fd Watched where
  issue := fun _ _ notAccept => watched_issue notAccept
  removeRead := fun _ => watched_of_kernel rfl rfl
  removeWrite := fun _ => watched_of_kernel rfl rfl
  setWrite := fun _ _ => watched_of_kernel rfl rfl
  extendRead := watched_extendRead
  world := fun _ _ => watched_of_kernel rfl rfl

theorem watched_closeTimedOut (timedOut : List Fd) : Keeps Watched (closeTimedOut timedOut) := by
  apply keeps_closeTimedOut
  exact fun fd loop => watched_of_closed (apart_closeOne fd loop) (owner_closeOne fd loop)

theorem owner_closeTimedOut {timedOut : List Fd} {loop : Loop}
    (expired : fd ∈ timedOut ∨ loop.kernel.owner fd = none) :
    (closeTimedOut timedOut loop).2.kernel.owner fd = none := by
  induction timedOut generalizing loop with
  | nil => exact expired.resolve_left (List.not_mem_nil)
  | cons other rest ih =>
    have closes : (closeTimedOut (other :: rest) loop).2 =
      (closeTimedOut rest (closeOne other loop)).2 := rfl
    rw [closes]
    apply ih
    by_cases same : fd = other
    · subst same
      exact Or.inr (owner_closeOne fd loop)
    · apply expired.imp
      · exact fun member => (List.mem_cons.mp member).resolve_left same
      · exact fun closed => ((apart_closeOne other loop).owner fd same).trans closed

theorem watched_opened (fd : Fd) (time : Nat) (loop : Loop) :
    Watched loop (opened fd time loop) := by
  refine ⟨?_, Nat.le_succ _⟩
  intro other connection named
  rw [owner_opened] at named
  by_cases same : other = fd
  · rw [if_pos same] at named
    cases named
    exact Or.inr ⟨Nat.le_refl _, time, by rw [same]; exact HashMap.get_insert_self _ _ _⟩
  · rw [if_neg same] at named
    exact Or.inl ⟨named, HashMap.get_insert_of_ne _ _ _ _ same⟩

theorem watched_dropped (fd : Fd) (loop : Loop) : Watched loop (dropped fd loop) := by
  refine ⟨?_, Nat.le_succ _⟩
  intro other connection named
  rw [owner_dropped] at named
  by_cases same : other = fd
  · rw [if_pos same] at named
    cases named
  · rw [if_neg same] at named
    exact Or.inl ⟨named, rfl⟩

theorem watched_acceptConnections (results : List AcceptResult) :
    Keeps Watched (acceptConnections results) :=
  keeps_acceptConnections watched_opened watched_dropped results

/-! The loop -/

theorem watched_continueWith {goesOn : Bool} {rest : List Event} {before after : Loop}
    (watched : Watched before after) (running : (continueWith goesOn rest after).phase ≠ .stopped) :
    Watched before (continueWith goesOn rest after) := by
  cases goesOn with
  | false => exact absurd rfl running
  | true => exact ⟨watched.opened, watched.accepted⟩

section
variable {platform : Platform} {server : Server} {listener : Fd}

theorem step_watched {before after : Loop} {label : Label} (flowing : Flowing before label)
    (step : Step platform server listener before label after) (running : after.phase ≠ .stopped) :
    Watched before after := by
  cases step with
  | @wait now events timedOut phase reported distinct bounded each expired =>
    have watched := watched_closeTimedOut timedOut before
    exact ⟨watched.opened, watched.accepted⟩
  | waitFailed phase => exact absurd rfl running
  | accept phase isListener fresh =>
    exact watched_continueWith (watched_acceptConnections _ before) running
  | @write event rest results phase isClient writable =>
    apply watched_continueWith _ running
    apply watched_of_closed (apart_write event results before)
    exact owner_handleWrite flowing
  | @read event rest results clock phase isClient readable =>
    apply watched_continueWith _ running
    have dispatches : Keeps Watched (issue (.dispatch event.fd event.connection)) :=
      watched_issue nofun
    exact IsTrans.trans _ _ _ (dispatches before)
      ((watched_operations event.fd).handleRead platform server clock results _)
  | again phase => exact watched_of_kernel rfl rfl
  | other => exact watched_of_kernel rfl rfl

theorem running_before {before after : Loop} {label : Label}
    (step : Step platform server listener before label after) (running : after.phase ≠ .stopped) :
    before.phase ≠ .stopped := by
  cases step with
  | wait phase | waitFailed phase | accept phase | write phase | read phase | again phase =>
    rw [phase]
    nofun
  | other => exact running

theorem run_watched {first later : Loop}
    (run : Reaches (Step platform server listener) Flowing (· = first) later) :
    later.phase ≠ .stopped → Watched first later := by
  apply run.invariant
  · intro state same running
    subst same
    exact Std.Refl.refl state
  · intro before label after watched flowing step running
    exact IsTrans.trans _ _ _ (watched (running_before step running)) (step_watched flowing step running)

theorem closed_of_late {loop next : Loop} {fd : Fd} {now time : Nat} {events : List Event}
    {timedOut : List Fd} (timed : loop.connectTimes.get fd = some time)
    (late : timeoutSecs < (now - time) / nanosPerSec)
    (waits : Step platform server listener loop (.wait now events timedOut) next) :
    next.kernel.owner fd = none := by
  cases waits with
  | wait phase reported distinct bounded each expired =>
    have member : fd ∈ timedOut := (expired fd).mpr ⟨time, timed, late⟩
    exact owner_closeTimedOut (Or.inl member)

end

/-- Under that condition every open connection has a time, which stays as it is for as long as
the connection is open: the first check more than `timeoutSecs` later closes it. -/
theorem connections_timed (platform : Platform) (server : Server) (listener : Fd) (loop : Loop)
    (reached : Reaches (Step platform server listener) Flowing Initial loop)
    (running : loop.phase ≠ .stopped) (fd : Fd) (connection : Nat)
    (opened : loop.kernel.owner fd = some connection) :
    ∃ time, loop.connectTimes.get fd = some time ∧
      ∀ later, Reaches (Step platform server listener) Flowing (· = loop) later →
        later.phase ≠ .stopped → later.kernel.owner fd = some connection →
        later.connectTimes.get fd = some time ∧
          ∀ now events timedOut next,
            Step platform server listener later (.wait now events timedOut) next →
            timeoutSecs < (now - time) / nanosPerSec → next.kernel.owner fd = none := by
  obtain ⟨first, initial, run⟩ := reached.origin
  have none : first.kernel.owner fd ≠ some connection := by
    rw [initial.kernel]
    nofun
  obtain ⟨time, timed⟩ : ∃ time, loop.connectTimes.get fd = some time := by
    rcases (run_watched run running).opened fd connection opened with ⟨before, -⟩ | ⟨-, timed⟩
    · exact absurd before none
    · exact timed
  refine ⟨time, timed, ?_⟩
  intro later goesOn alive still
  have same : later.connectTimes.get fd = some time := by
    rcases (run_watched goesOn alive).opened fd connection still with ⟨-, same⟩ | ⟨new, -⟩
    · exact same.trans timed
    · have old := loop.kernel.numbered fd connection opened
      omega
  exact ⟨same, fun now events timedOut next waits late => closed_of_late same late waits⟩

theorem connections_timed_webConnected :
    ∃ time, webConnected.connectTimes.get 7 = some time ∧
      ∀ later, Reaches (Step Handler.quietPlatform webServer 3) Flowing (· = webConnected) later →
        later.phase ≠ .stopped → later.kernel.owner 7 = some 0 →
        later.connectTimes.get 7 = some time ∧
          ∀ now events timedOut next,
            Step Handler.quietPlatform webServer 3 later (.wait now events timedOut) next →
            timeoutSecs < (now - time) / nanosPerSec → next.kernel.owner 7 = none := by
  have reached : Reaches (Step Handler.quietPlatform webServer 3) Flowing Initial webConnected :=
    (reaches_webConnected _).mono (by
      intro loop label calm
      cases label with
      | write event results => cases calm
      | _ => trivial)
  exact connections_timed Handler.quietPlatform webServer 3 webConnected reached (by decide) 7 0
    (by decide +kernel)

def writeReady : Event := ⟨7, true, 0⟩

def webWaiting : Loop := { Isolation.webAnswered with phase := .waiting }

def webSending : Loop := { webWaiting with phase := .dispatching [writeReady] }

def webWritten : Loop :=
  continueWith true []
    (removeTime writeReady.fd
      (handleWrite writeReady.fd [.wrote 5, .wouldBlock] (dispatched writeReady webSending)).2).2

def webStalled : Loop := { webWritten with phase := .waiting }

theorem connections_untimed :
    ¬∀ (platform : Platform) (server : Server) (listener : Fd) (loop : Loop),
      Reaches (Step platform server listener) (fun _ _ => True) Initial loop →
      loop.phase = .waiting → ∀ fd connection, loop.kernel.owner fd = some connection →
      ∃ time, loop.connectTimes.get fd = some time := by
  intro timed
  have answered : Reaches (Step Handler.quietPlatform webServer 3) (fun _ _ => True) Initial
      Isolation.webAnswered := Isolation.reaches_webAnswered.mono fun _ _ _ => trivial
  have again : Step Handler.quietPlatform webServer 3 Isolation.webAnswered .again
      webWaiting := .again (by decide +kernel)
  have opened : webWaiting.kernel.owner 7 = some 0 := by decide +kernel
  have watched : webWaiting.kernel.interest.get 7 = some .writable := by decide +kernel
  have reported : ∀ event ∈ [writeReady], webWaiting.Reported 3 event := by
    intro event member
    rw [List.mem_singleton] at member
    subst member
    exact ⟨Or.inr ⟨opened, .writable, watched, fun _ => rfl⟩⟩
  have waits : Step Handler.quietPlatform webServer 3 webWaiting (.wait 0 [writeReady] [])
      webSending :=
    step_wait_early rfl reported (by decide) (by decide) (Nat.zero_le _)
  have writes : Step Handler.quietPlatform webServer 3 webSending
      (.write writeReady [.wrote 5, .wouldBlock]) webWritten := by
    unfold webWritten
    exact .write rfl (by decide) rfl
  have returns : Step Handler.quietPlatform webServer 3 webWritten .again webStalled := .again rfl
  have stalled := (((answered.step trivial again).step trivial waits).step trivial writes).step
    trivial returns
  obtain ⟨time, found⟩ := timed Handler.quietPlatform webServer 3 webStalled stalled rfl 7 0
    (by decide +kernel)
  have missing : webStalled.connectTimes.get 7 = none := by decide +kernel
  rw [missing] at found
  cases found

end LocalServer.Timeouts
