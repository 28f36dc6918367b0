import LocalServer.Handling
import LocalServer.Isolation
import LocalServer.Timeouts

/-! What epoll watches each descriptor for. At every point of every run it is given by the loop's
buffers, so no waiting response and no half-read request is forgotten. -/

namespace LocalServer.Watching
open Library Action Utf8 Server Loop Footprint Handling Isolation

def needed (loop : Loop) (fd : Fd) : Option Interest :=
  match loop.writeBuffers.get fd, loop.readBuffers.get fd, loop.kernel.owner fd with
  | some _, _, _ => some .writable
  | none, some _, some _ => some .readable
  | none, _, _ => none

/-- The descriptor is watched for what it has to be, and responses wait on open ones only. -/
structure Armed (loop : Loop) (fd : Fd) : Prop where
  interest : loop.kernel.interest.get fd = needed loop fd
  opened : loop.kernel.owner fd = none → loop.writeBuffers.get fd = none

section
variable {fd : Fd} {loop before after : Loop}

theorem needed_waiting {reply : Bytes} (waits : loop.writeBuffers.get fd = some reply) :
    needed loop fd = some .writable := by
  unfold needed
  rw [waits]

theorem needed_listening {data : Bytes} {connection : Nat}
    (answered : loop.writeBuffers.get fd = none) (found : loop.readBuffers.get fd = some data)
    (named : loop.kernel.owner fd = some connection) : needed loop fd = some .readable := by
  unfold needed
  rw [answered, found, named]

theorem needed_closed (answered : loop.writeBuffers.get fd = none)
    (closed : loop.kernel.owner fd = none) : needed loop fd = none := by
  unfold needed
  rw [answered, closed]
  cases loop.readBuffers.get fd <;> rfl

theorem needed_idle (answered : loop.writeBuffers.get fd = none)
    (unread : loop.readBuffers.get fd = none) : needed loop fd = none := by
  unfold needed
  rw [answered, unread]

theorem Armed.congr (armed : Armed before fd)
    (owner : after.kernel.owner fd = before.kernel.owner fd)
    (interest : after.kernel.interest.get fd = before.kernel.interest.get fd)
    (reads : after.readBuffers.get fd = before.readBuffers.get fd)
    (writes : after.writeBuffers.get fd = before.writeBuffers.get fd) : Armed after fd := by
  constructor
  · rw [interest, armed.interest]
    unfold needed
    rw [owner, reads, writes]
  · rw [owner, writes]
    exact armed.opened

theorem armed_apart (armed : Armed before fd) {served : Fd} (apart : Apart served before after)
    (other : fd ≠ served) : Armed after fd :=
  armed.congr (apart.owner fd other) (apart.interest fd other) (apart.reads fd other)
    (apart.writes fd other)

theorem armed_closed (closed : loop.kernel.owner fd = none)
    (interest : loop.kernel.interest.get fd = none) (answered : loop.writeBuffers.get fd = none) :
    Armed loop fd := ⟨by rw [interest, needed_closed answered closed], fun _ => answered⟩

theorem armed_idle (interest : loop.kernel.interest.get fd = none)
    (unread : loop.readBuffers.get fd = none) (answered : loop.writeBuffers.get fd = none) :
    Armed loop fd := ⟨by rw [interest, needed_idle answered unread], fun _ => answered⟩

theorem armed_queued {data reply : Bytes} (armed : Armed before fd)
    (opened : before.kernel.owner fd ≠ none) (found : before.readBuffers.get fd = some data)
    (queued : Queued fd reply before after) : Armed after fd := by
  obtain ⟨connection, named⟩ := Option.ne_none_iff_exists'.mp opened
  have watched : ∃ interest, before.kernel.interest.get fd = some interest := by
    rw [armed.interest]
    cases waits : before.writeBuffers.get fd with
    | some waiting => exact ⟨_, needed_waiting waits⟩
    | none => exact ⟨_, needed_listening waits found named⟩
  obtain ⟨interest, isWatched⟩ := watched
  refine ⟨?_, ?_⟩
  · rw [queued.interest, isWatched, needed_waiting queued.writes, Option.map_some]
  · rw [queued.owner]
    exact fun closed => absurd closed opened

theorem opened_of_drained {results : List ReadResult}
    (closedFails : loop.kernel.owner fd = none → results.head? = some .failed)
    (ends : ending results = .wouldBlock) : loop.kernel.owner fd ≠ none := by
  intro closed
  cases results with
  | nil => cases closedFails closed
  | cons result results =>
    cases closedFails closed
    cases ends

theorem armed_handleRead {platform : Platform} {server : Server} {clock : Clock}
    {results : List ReadResult} (armed : Armed loop fd)
    (closedFails : loop.kernel.owner fd = none → results.head? = some .failed)
    (goesOn : (handleRead platform server clock fd results loop).1 = true) :
    Armed (handleRead platform server clock fd results loop).2 fd := by
  have opened := opened_of_drained closedFails
  have ends := read_ends platform server clock fd results loop
  generalize handleRead platform server clock fd results loop = after at ends goesOn
  cases ends with
  | gone ends reads writes interest world => exact armed_idle interest reads writes
  | ignored ends unread reads writes owner interest world =>
    exact armed.congr owner interest (reads.trans unread.symm) writes
  | refused ends found computed reads queued world =>
    exact armed_queued armed (opened ends) found queued
  | answered ends found computed reads queued =>
    exact armed_queued armed (opened ends) found queued
  | panicked ends found computed owner world => cases goesOn

theorem armed_finishWrite (loop : Loop) : Armed (finishWrite fd loop).2 fd :=
  armed_closed (Timeouts.owner_finishWrite loop) (HashMap.get_remove_self _ _)
    (HashMap.get_remove_self _ _)

theorem armed_handleWrite (armed : Armed loop fd) (results : List WriteResult) :
    Armed (handleWrite fd results loop).2 fd := by
  cases named : loop.kernel.owner fd with
  | none =>
    have nothing : handleWrite fd results loop = finishWrite fd loop := by
      rw [handleWrite, armed.opened named]
    rw [nothing]
    exact armed_finishWrite loop
  | some connection =>
    cases held : loop.writeBuffers.get fd with
    | none =>
      have nothing : handleWrite fd results loop = finishWrite fd loop := by rw [handleWrite, held]
      rw [nothing]
      exact armed_finishWrite loop
    | some left =>
      have ends := end_handleWrite results named
      rw [held, Option.getD_some] at ends
      cases ends with
      | closed taken rest split sends owner interest writes shut =>
        exact armed_closed owner interest writes
      | waiting taken rest split remains sends owner interest writes shut =>
        refine ⟨?_, ?_⟩
        · rw [interest, armed.interest, needed_waiting held, needed_waiting writes]
        · rw [owner, named]
          nofun

theorem armed_closeOne (served : Fd) (armed : Armed loop fd) : Armed (closeOne served loop) fd := by
  by_cases same : fd = served
  · subst same
    exact armed_closed (owner_closeOne fd loop) (HashMap.get_remove_self _ _)
      (HashMap.get_remove_self _ _)
  · exact armed_apart armed (apart_closeOne served loop) same

theorem armed_closeTimedOut (timedOut : List Fd) (armed : Armed loop fd) :
    Armed (closeTimedOut timedOut loop).2 fd := by
  induction timedOut generalizing loop with
  | nil => exact armed
  | cons served rest ih => exact ih (armed_closeOne served armed)

theorem armed_opened {served : Fd} (time : Nat) (armed : Armed loop fd)
    (unused : loop.kernel.owner served = none) : Armed (opened served time loop) fd := by
  by_cases same : fd = served
  · subst same
    have named : (opened fd time loop).kernel.owner fd = some loop.kernel.accepted := by
      rw [owner_opened, if_pos rfl]
    have interest : (opened fd time loop).kernel.interest.get fd = some .readable :=
      HashMap.get_insert_self _ _ _
    have reads : (opened fd time loop).readBuffers.get fd = some [] := HashMap.get_insert_self _ _ _
    have writes : (opened fd time loop).writeBuffers.get fd = none := armed.opened unused
    exact ⟨by rw [interest, needed_listening writes reads named], fun _ => writes⟩
  · refine armed.congr ?_ ?_ ?_ rfl
    · rw [owner_opened, if_neg same]
    · exact HashMap.get_insert_of_ne _ _ _ _ same
    · exact HashMap.get_insert_of_ne _ _ _ _ same

theorem armed_acceptConnections (results : List AcceptResult) (armed : ∀ fd, Armed loop fd)
    (distinct : (acceptedFds results).Nodup)
    (unused : ∀ fd ∈ acceptedFds results, loop.kernel.owner fd = none)
    (goesOn : (acceptConnections results loop).1 = true) :
    ∀ fd, Armed (acceptConnections results loop).2 fd := by
  induction results generalizing loop with
  | nil => exact armed
  | cons result results ih =>
    cases result with
    | failed => exact armed
    | connected served time ready =>
      cases ready with
      | false => cases goesOn
      | true =>
        obtain ⟨fresh, distinct⟩ := List.nodup_cons.mp distinct
        have here : ∀ fd, Armed (opened served time loop) fd :=
          fun fd => armed_opened time (armed fd) (unused served List.mem_cons_self)
        have still : ∀ other ∈ acceptedFds results,
            (opened served time loop).kernel.owner other = none := by
          intro other member
          have different : other ≠ served := by
            intro same
            rw [same] at member
            exact fresh member
          rw [owner_opened, if_neg different]
          exact unused other (List.mem_cons_of_mem _ member)
        exact ih here distinct still goesOn

end

/-! The loop -/

section
variable {platform : Platform} {server : Server} {listener : Fd}

theorem armed_continueWith {goesOn : Bool} {rest : List Event} {loop : Loop}
    (armed : goesOn = true → ∀ fd, Armed loop fd)
    (running : (continueWith goesOn rest loop).phase ≠ .stopped) (fd : Fd) :
    Armed (continueWith goesOn rest loop) fd := by
  cases goesOn with
  | false => exact absurd rfl running
  | true => exact (armed rfl fd).congr rfl rfl rfl rfl

theorem step_armed {before after : Loop} {label : Label}
    (armed : before.phase ≠ .stopped → ∀ fd, Armed before fd)
    (closedFails : ClosedFails before label)
    (step : Step platform server listener before label after) (running : after.phase ≠ .stopped)
    (fd : Fd) : Armed after fd := by
  have armed := armed (Timeouts.running_before step running)
  cases step with
  | @wait now events timedOut phase reported distinct bounded each expired =>
    exact (armed_closeTimedOut timedOut (armed fd)).congr rfl rfl rfl rfl
  | waitFailed phase => exact absurd rfl running
  | accept phase isListener fresh =>
    apply armed_continueWith _ running
    exact armed_acceptConnections _ armed fresh.distinct
      fun fd member => (fresh.unused fd member).2
  | @write event rest results phase isClient writable =>
    apply armed_continueWith _ running
    intro _ other
    by_cases same : other = event.fd
    · subst same
      have dispatched' : Armed (dispatched event before) event.fd :=
        (armed event.fd).congr rfl rfl rfl rfl
      exact (armed_handleWrite dispatched' results).congr rfl rfl rfl rfl
    · exact armed_apart (armed other) (apart_write event results before) same
  | @read event rest results clock phase isClient readable =>
    apply armed_continueWith _ running
    intro goesOn other
    by_cases same : other = event.fd
    · subst same
      have dispatched' : Armed (dispatched event before) event.fd :=
        (armed event.fd).congr rfl rfl rfl rfl
      exact armed_handleRead dispatched' closedFails goesOn
    · exact armed_apart (armed other)
        (apart_read platform server clock event results before) same
  | again phase => exact (armed fd).congr rfl rfl rfl rfl
  | other => exact (armed fd).congr rfl rfl rfl rfl

theorem armed_initial {loop : Loop} (initial : Initial loop) (fd : Fd) : Armed loop fd := by
  apply armed_idle
  · rw [initial.kernel]
    exact HashMap.get_empty fd
  · rw [initial.readBuffers]
    exact HashMap.get_empty fd
  · rw [initial.writeBuffers]
    exact HashMap.get_empty fd

theorem run_armed {loop : Loop}
    (reached : Reaches (Step platform server listener) ClosedFails Initial loop) :
    loop.phase ≠ .stopped → ∀ fd, Armed loop fd := by
  apply reached.invariant
  · exact fun start initial _ => armed_initial initial
  · exact fun before label after armed closedFails step => step_armed armed closedFails step

end

/-- Whatever happens, a running loop has epoll watch a descriptor for writing exactly while a
response waits on it, and otherwise for reading exactly while it is open and has a buffer for
what is read; and a response waits on open descriptors only. -/
theorem watched_as_needed (platform : Platform) (server : Server) (listener : Fd) (loop : Loop)
    (reached : Reaches (Step platform server listener) ClosedFails Initial loop)
    (running : loop.phase ≠ .stopped) (fd : Fd) :
    loop.kernel.interest.get fd = needed loop fd ∧
      (loop.kernel.owner fd = none → loop.writeBuffers.get fd = none) := by
  have armed := run_armed reached running fd
  exact ⟨armed.interest, armed.opened⟩

theorem watched_as_needed_webAnswered :
    webAnswered.kernel.interest.get 7 = needed webAnswered 7 ∧
      (webAnswered.kernel.owner 7 = none → webAnswered.writeBuffers.get 7 = none) :=
  watched_as_needed Handler.quietPlatform webServer 3 webAnswered reaches_webAnswered
    (by decide +kernel) 7

end LocalServer.Watching
