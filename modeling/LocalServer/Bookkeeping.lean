import LocalServer.Footprint
import LocalServer.Isolation
import LocalServer.Segmentation

/-! The loop's three maps and the connections they are kept for. They match in every run that
answers no request with an early 413, has no failed read, and handles no write event on a
descriptor that was reused within its batch. -/

namespace LocalServer.Bookkeeping
open Library Action Utf8 Server Loop Footprint Segmentation

/-- A closed descriptor is a key of no map, and no descriptor waits to be read and written. -/
structure Tidy (loop : Loop) (fd : Fd) : Prop where
  closed : loop.kernel.owner fd = none →
    loop.readBuffers.get fd = none ∧ loop.writeBuffers.get fd = none ∧
      loop.connectTimes.get fd = none
  single : loop.readBuffers.get fd = none ∨ loop.writeBuffers.get fd = none
  /-- The bytes are released once a response waits. -/
  watched : loop.kernel.interest.get fd = some .writable → loop.readBuffers.get fd = none

section
variable {fd : Fd} {loop before after : Loop}

theorem tidy_apart (tidy : Tidy before fd) {served : Fd} (apart : Apart served before after)
    (other : fd ≠ served) : Tidy after fd := by
  refine ⟨?_, ?_, ?_⟩
  · rw [apart.owner fd other, apart.reads fd other, apart.writes fd other, apart.times fd other]
    exact tidy.closed
  · rw [apart.reads fd other, apart.writes fd other]
    exact tidy.single
  · rw [apart.interest fd other, apart.reads fd other]
    exact tidy.watched

theorem tidy_withPhase (tidy : Tidy loop fd) (phase : Phase) : Tidy { loop with phase } fd :=
  ⟨tidy.closed, tidy.single, tidy.watched⟩

structure Forgotten (fd : Fd) (loop : Loop) : Prop where
  reads : loop.readBuffers.get fd = none
  writes : loop.writeBuffers.get fd = none

theorem tidy_forgotten (forgotten : Forgotten fd loop)
    (times : loop.kernel.owner fd = none → loop.connectTimes.get fd = none) : Tidy loop fd :=
  ⟨fun closed => ⟨forgotten.reads, forgotten.writes, times closed⟩, Or.inl forgotten.reads,
    fun _ => forgotten.reads⟩

theorem tidy_leave (loop : Loop) (fd : Fd) : Tidy loop.leave fd :=
  tidy_forgotten ⟨HashMap.get_empty fd, HashMap.get_empty fd⟩ fun _ => HashMap.get_empty fd

structure Sent (fd : Fd) (before after : Loop) : Prop where
  reads : after.readBuffers.get fd = before.readBuffers.get fd
  outcome : after.writeBuffers.get fd = none ∨
    after.kernel.owner fd = before.kernel.owner fd

theorem sent_writeLoop (data : Bytes) (results : List WriteResult) (loop : Loop) :
    Sent fd loop (writeLoop fd data results loop).2 := by
  obtain ⟨middle, wrote, ends⟩ := writeLoop_ends fd data results loop
  have reads : middle.readBuffers.get fd = loop.readBuffers.get fd := by rw [wrote.reads]
  generalize (writeLoop fd data results loop).2 = after at ends
  cases ends with
  | finished => exact ⟨reads, Or.inl (HashMap.get_remove_self _ _)⟩
  | abandoned => exact ⟨reads, Or.inl (HashMap.get_remove_self _ _)⟩
  | blocked data stays => exact ⟨reads, Or.inr (wrote.owner fd)⟩

/-- The received bytes are gone already when a write event comes. -/
theorem tidy_write {event : Event} {results : List WriteResult} (tidy : Tidy loop event.fd)
    (released : loop.readBuffers.get event.fd = none) :
    Tidy (removeTime event.fd (handleWrite event.fd results (dispatched event loop)).2).2
      event.fd := by
  have timeless : (removeTime event.fd
      (handleWrite event.fd results (dispatched event loop)).2).2.connectTimes.get event.fd =
        none := HashMap.get_remove_self _ _
  unfold handleWrite at timeless ⊢
  cases held : (dispatched event loop).writeBuffers.get event.fd with
  | none =>
    have kept : (finishWrite event.fd (dispatched event loop)).2.readBuffers.get event.fd = none :=
      released
    exact tidy_forgotten ⟨kept, HashMap.get_remove_self _ _⟩ fun _ => HashMap.get_remove_self _ _
  | some data =>
    have sent := @sent_writeLoop event.fd data results (dispatched event loop)
    have opened : loop.kernel.owner event.fd ≠ none := by
      intro closed
      cases held.symm.trans (tidy.closed closed).2.1
    refine ⟨fun closed => ⟨sent.reads.trans released, ?_, HashMap.get_remove_self _ _⟩,
      Or.inl (sent.reads.trans released), fun _ => sent.reads.trans released⟩
    exact sent.outcome.resolve_right fun same => opened (same.symm.trans closed)

section
variable {platform : Platform} {server : Server} {clock : Clock} {results : List ReadResult}

/-- No error ends the reading of a connection that has a time, and no bytes above the limit. -/
structure Readable (platform : Platform) (server : Server) (loop : Loop) (fd : Fd)
    (results : List ReadResult) : Prop where
  unbroken : ending results = .failed → loop.connectTimes.get fd = none
  fits : ∀ data, loop.readBuffers.get fd = some data → ending results = .wouldBlock →
    tooLarge platform.tables (limits server) (data ++ receivedBytes results) = false

theorem tidy_answer (tidy : Tidy loop fd)
    (fits : ∀ data, loop.readBuffers.get fd = some data →
      tooLarge platform.tables (limits server) data = false)
    (goesOn : (answer platform server clock fd loop).1 = true) :
    Tidy (answer platform server clock fd loop).2 fd := by
  cases found : loop.readBuffers.get fd with
  | none =>
    rw [answer_no_buffer found]
    have removed : (removeRead fd loop).2.readBuffers.get fd = none := HashMap.get_remove_self _ _
    exact ⟨fun closed => ⟨removed, (tidy.closed closed).2⟩, Or.inl removed, fun _ => removed⟩
  | some data =>
    cases computed : respond platform server clock data loop.world with
    | error panic =>
      rw [answer_panics found computed] at goesOn
      cases goesOn
    | ok reply =>
      cases reply with
      | tooLarge =>
        have large := (respond_tooLarge clock data loop.world).mpr computed
        rw [fits data found] at large
        cases large
      | answered response world =>
        rw [answer_answered found computed]
        have opened : loop.kernel.owner fd ≠ none := by
          intro closed
          cases found.symm.trans (tidy.closed closed).1
        have removed : (removeRead fd
            (queue fd response { loop with world }).2).2.readBuffers.get fd = none :=
          HashMap.get_remove_self _ _
        exact ⟨fun closed => absurd closed opened, Or.inl removed, fun _ => removed⟩

theorem tidy_filled {bytes : Bytes} {middle : Loop} (tidy : Tidy loop fd)
    (filled : Filled fd bytes loop middle) :
    Tidy (issue (.read fd .wouldBlock) middle).2 fd := by
  let full := (issue (.read fd .wouldBlock) middle).2
  have reads : full.readBuffers.get fd = (loop.readBuffers.get fd).map (· ++ bytes) := filled.reads
  have none_of_none (empty : loop.readBuffers.get fd = none) : full.readBuffers.get fd = none := by
    rw [reads, empty, Option.map_none]
  have writes : full.writeBuffers.get fd = loop.writeBuffers.get fd :=
    congrArg (HashMap.get · fd) filled.writes
  have times : full.connectTimes.get fd = loop.connectTimes.get fd :=
    congrArg (HashMap.get · fd) filled.times
  have owner : full.kernel.owner fd = loop.kernel.owner fd :=
    (middle.kernel.owner_read fd fd .wouldBlock).trans (filled.owner fd)
  refine ⟨?_, tidy.single.imp none_of_none writes.trans, ?_⟩
  · intro closed
    obtain ⟨read, written, timeless⟩ := tidy.closed (owner.symm.trans closed)
    exact ⟨none_of_none read, writes.trans written, times.trans timeless⟩
  · intro waits
    have before : loop.kernel.interest.get fd = some .writable := by
      rw [← filled.interest]
      exact waits
    exact none_of_none (tidy.watched before)

theorem tidy_handleRead (tidy : Tidy loop fd)
    (readable : loop.kernel.owner fd ≠ none → Readable platform server loop fd results)
    (goesOn : (handleRead platform server clock fd results loop).1 = true) :
    Tidy (handleRead platform server clock fd results loop).2 fd := by
  obtain ⟨middle, filled, drained⟩ := drain_filled fd results loop
  unfold handleRead at goesOn ⊢
  rw [bind_apply, drained] at goesOn ⊢
  have untimed : loop.kernel.owner fd = none → middle.connectTimes.get fd = none := by
    intro closed
    rw [filled.times]
    exact (tidy.closed closed).2.2
  cases ends : ending results with
  | received segment => exact absurd ends (ending_ne_received results segment)
  | closed =>
    apply tidy_forgotten
    · exact ⟨HashMap.get_remove_self _ _, HashMap.get_remove_self _ _⟩
    · intro closed
      exact untimed ((filled.owner fd).symm.trans closed)
  | failed =>
    apply tidy_forgotten
    · exact ⟨HashMap.get_remove_self _ _, HashMap.get_remove_self _ _⟩
    · intro _
      by_cases closed : loop.kernel.owner fd = none
      · exact untimed closed
      · exact (congrArg (HashMap.get · fd) filled.times).trans ((readable closed).unbroken ends)
  | wouldBlock =>
    rw [ends] at goesOn
    let full := (issue (.read fd .wouldBlock) middle).2
    have keys : full.readBuffers.get fd =
        (loop.readBuffers.get fd).map (· ++ receivedBytes results) := filled.reads
    have fits : ∀ data, full.readBuffers.get fd = some data →
        tooLarge platform.tables (limits server) data = false := by
      intro data found
      rw [keys, Option.map_eq_some_iff] at found
      obtain ⟨old, held, whole⟩ := found
      have opened : loop.kernel.owner fd ≠ none := by
        intro closed
        cases held.symm.trans (tidy.closed closed).1
      rw [← whole]
      exact (readable opened).fits old held ends
    exact tidy_answer (tidy_filled tidy filled) fits goesOn

end

theorem tidy_closeOne (served : Fd) (tidy : Tidy loop fd) : Tidy (closeOne served loop) fd := by
  by_cases same : fd = served
  · subst same
    exact tidy_forgotten ⟨HashMap.get_remove_self _ _, HashMap.get_remove_self _ _⟩
      fun _ => HashMap.get_remove_self _ _
  · exact tidy_apart tidy (apart_closeOne served loop) same

theorem tidy_closeTimedOut (timedOut : List Fd) (tidy : Tidy loop fd) :
    Tidy (closeTimedOut timedOut loop).2 fd := by
  induction timedOut generalizing loop with
  | nil => exact tidy
  | cons served rest ih => exact ih (tidy_closeOne served tidy)

theorem tidy_opened {served : Fd} (time : Nat) (tidy : Tidy loop fd)
    (unused : loop.kernel.owner served = none) : Tidy (opened served time loop) fd := by
  have owner := @owner_opened served time loop fd
  by_cases same : fd = served
  · subst same
    refine ⟨fun closed => ?_, Or.inr (tidy.closed unused).2.1, fun watched => ?_⟩
    · rw [owner, if_pos rfl] at closed
      cases closed
    · have registered : (opened fd time loop).kernel.interest.get fd = some .readable :=
        HashMap.get_insert_self _ _ _
      rw [registered] at watched
      cases watched
  · have reads : (opened served time loop).readBuffers.get fd = loop.readBuffers.get fd :=
      HashMap.get_insert_of_ne _ _ _ _ same
    have times : (opened served time loop).connectTimes.get fd = loop.connectTimes.get fd :=
      HashMap.get_insert_of_ne _ _ _ _ same
    have interest : (opened served time loop).kernel.interest.get fd =
        loop.kernel.interest.get fd := HashMap.get_insert_of_ne _ _ _ _ same
    refine ⟨fun closed => ?_, ?_, fun watched => ?_⟩
    · rw [owner, if_neg same] at closed
      rw [reads, times]
      exact tidy.closed closed
    · rw [reads]
      exact tidy.single
    · rw [reads]
      exact tidy.watched (interest.symm.trans watched)

theorem tidy_acceptConnections (results : List AcceptResult) (tidy : ∀ fd, Tidy loop fd)
    (distinct : (acceptedFds results).Nodup)
    (unused : ∀ fd ∈ acceptedFds results, loop.kernel.owner fd = none)
    (goesOn : (acceptConnections results loop).1 = true) (fd : Fd) :
    Tidy (acceptConnections results loop).2 fd := by
  induction results generalizing loop with
  | nil => exact tidy fd
  | cons result results ih =>
    cases result with
    | failed => exact tidy fd
    | connected served time ready =>
      cases ready with
      | false => cases goesOn
      | true =>
        have split : acceptedFds (.connected served time true :: results) =
          served :: acceptedFds results := rfl
        rw [split] at distinct unused
        obtain ⟨fresh, distinct⟩ := List.nodup_cons.mp distinct
        have here : loop.kernel.owner served = none := unused served List.mem_cons_self
        apply @ih (opened served time loop) _ distinct _ goesOn
        · exact fun other => tidy_opened time (tidy other) here
        · intro other member
          have different : other ≠ served := by
            intro same
            rw [same] at member
            exact fresh member
          rw [owner_opened, if_neg different]
          exact unused other (List.mem_cons_of_mem _ member)

/-! The rest of a batch -/

structure Settled (before after : Loop) : Prop where
  reads : ∀ fd connection, after.kernel.owner fd = some connection →
    connection < before.kernel.accepted → before.kernel.owner fd = some connection ∧
      (before.readBuffers.get fd = none → after.readBuffers.get fd = none)
  accepted : before.kernel.accepted ≤ after.kernel.accepted

instance : Std.Refl Settled := ⟨fun _ => ⟨fun _ _ named _ => ⟨named, id⟩, Nat.le_refl _⟩⟩

instance : IsTrans Loop Settled where
  trans before middle after early late := by
    refine ⟨?_, Nat.le_trans early.accepted late.accepted⟩
    intro fd connection named old
    obtain ⟨named, kept⟩ := late.reads fd connection named (by have := early.accepted; omega)
    obtain ⟨named, kept'⟩ := early.reads fd connection named old
    exact ⟨named, fun none => kept (kept' none)⟩

theorem settled_closeOne (served : Fd) (loop : Loop) : Settled loop (closeOne served loop) := by
  have apart := apart_closeOne served loop
  refine ⟨?_, Nat.le_of_eq apart.accepted.symm⟩
  intro fd connection named old
  have different : fd ≠ served := by
    intro same
    rw [same, owner_closeOne] at named
    cases named
  rw [apart.owner fd different] at named
  rw [apart.reads fd different]
  exact ⟨named, id⟩

theorem settled_closeTimedOut (timedOut : List Fd) : Keeps Settled (closeTimedOut timedOut) :=
  keeps_closeTimedOut settled_closeOne timedOut

theorem settled_opened (served : Fd) (time : Nat) (loop : Loop) :
    Settled loop (opened served time loop) := by
  refine ⟨?_, Nat.le_succ _⟩
  intro fd connection named old
  rw [owner_opened] at named
  by_cases same : fd = served
  · rw [if_pos same] at named
    cases named
    omega
  · rw [if_neg same] at named
    have reads : (opened served time loop).readBuffers.get fd = loop.readBuffers.get fd :=
      HashMap.get_insert_of_ne _ _ _ _ same
    rw [reads]
    exact ⟨named, id⟩

theorem settled_dropped (served : Fd) (loop : Loop) : Settled loop (dropped served loop) := by
  refine ⟨?_, Nat.le_succ _⟩
  intro fd connection named old
  rw [owner_dropped] at named
  by_cases same : fd = served
  · rw [if_pos same] at named
    cases named
  · rw [if_neg same] at named
    exact ⟨named, id⟩

theorem settled_acceptConnections (results : List AcceptResult) :
    Keeps Settled (acceptConnections results) :=
  keeps_acceptConnections settled_opened settled_dropped results

/-- The events that are still to be handled. A write event is for a connection whose bytes were
released, or for one that is gone. -/
structure Batch (listener : Fd) (events : List Event) (loop : Loop) : Prop where
  distinct : (events.map Event.fd).Nodup
  numbered : ∀ event ∈ events, event.fd ≠ listener → event.connection < loop.kernel.accepted
  released : ∀ event ∈ events, event.fd ≠ listener → event.writable = true →
    loop.kernel.owner event.fd = some event.connection →
    loop.readBuffers.get event.fd = none

variable {listener : Fd}

theorem batch_settled {events : List Event} (batch : Batch listener events before)
    (settled : Settled before after) : Batch listener events after := by
  refine ⟨batch.distinct, ?_, ?_⟩
  · intro event member isClient
    exact Nat.lt_of_lt_of_le (batch.numbered event member isClient) settled.accepted
  · intro event member isClient writable named
    have old := batch.numbered event member isClient
    obtain ⟨named, kept⟩ := settled.reads event.fd event.connection named old
    exact kept (batch.released event member isClient writable named)

theorem batch_apart {event : Event} {rest : List Event}
    (batch : Batch listener (event :: rest) before) (apart : Apart event.fd before after) :
    Batch listener rest after := by
  obtain ⟨fresh, distinct⟩ := List.nodup_cons.mp batch.distinct
  refine ⟨distinct, ?_, ?_⟩
  · intro other member isClient
    rw [apart.accepted]
    exact batch.numbered other (List.mem_cons_of_mem _ member) isClient
  · intro other member isClient writable named
    have different : other.fd ≠ event.fd := by
      intro same
      exact fresh (same ▸ List.mem_map_of_mem member)
    rw [apart.owner _ different] at named
    rw [apart.reads _ different]
    exact batch.released other (List.mem_cons_of_mem _ member) isClient writable named

theorem batch_tail {event : Event} {rest : List Event}
    (batch : Batch listener (event :: rest) loop) : Batch listener rest loop :=
  batch_apart batch (Std.Refl.refl loop)

/-- What epoll reports is a batch: it reports writability only where the server asked for it. -/
theorem batch_reported {events : List Event} (tidy : ∀ fd, Tidy loop fd)
    (distinct : (events.map Event.fd).Nodup)
    (reported : ∀ event ∈ events, loop.Reported listener event) : Batch listener events loop := by
  refine ⟨distinct, ?_, ?_⟩
  · intro event member isClient
    obtain ⟨named, -⟩ := (reported event member).registered.resolve_left isClient
    exact loop.kernel.numbered event.fd event.connection named
  · intro event member isClient writable named
    obtain ⟨-, interest, watched, mode⟩ :=
      (reported event member).registered.resolve_left isClient
    rw [mode writable] at watched
    exact (tidy event.fd).watched watched

/-! The loop -/

/-- What the loop's maps satisfy at every point, inside a batch too. -/
structure Orderly (listener : Fd) (loop : Loop) : Prop where
  tidy : ∀ fd, Tidy loop fd
  batch : ∀ events, loop.phase = .dispatching events → Batch listener events loop

theorem orderly_continueWith {goesOn : Bool} {rest : List Event}
    (tidy : goesOn = true → ∀ fd, Tidy loop fd)
    (batch : goesOn = true → Batch listener rest loop) :
    Orderly listener (continueWith goesOn rest loop) := by
  cases goesOn with
  | false => exact ⟨tidy_leave loop, nofun⟩
  | true =>
    refine ⟨fun fd => tidy_withPhase (tidy rfl fd) _, ?_⟩
    intro events dispatching
    cases dispatching
    obtain ⟨distinct, numbered, released⟩ := batch rfl
    exact ⟨distinct, numbered, released⟩

end

/-- Read events are like that on open connections, and a write event meets the connection that
it was reported for, or none. -/
def Careful (platform : Platform) (server : Server) (loop : Loop) : Label → Prop
  | .read _ event results => loop.kernel.owner event.fd ≠ none →
      Readable platform server loop event.fd results
  | .write event _ => ∀ connection, loop.kernel.owner event.fd = some connection →
      connection = event.connection
  | _ => True

section
variable {platform : Platform} {server : Server} {listener : Fd} {before after : Loop}

/-- A write event finds nothing left to read. -/
theorem released_of_write {event : Event} {rest : List Event}
    (tidy : Tidy before event.fd) (batch : Batch listener (event :: rest) before)
    (isClient : event.fd ≠ listener) (writable : event.writable = true)
    (same : ∀ connection, before.kernel.owner event.fd = some connection →
      connection = event.connection) : before.readBuffers.get event.fd = none := by
  cases named : before.kernel.owner event.fd with
  | none => exact (tidy.closed named).1
  | some connection =>
    rw [same connection named] at named
    exact batch.released event List.mem_cons_self isClient writable named

theorem step_orderly {label : Label} (orderly : Orderly listener before)
    (careful : Careful platform server before label)
    (step : Step platform server listener before label after) : Orderly listener after := by
  cases step with
  | @wait now events timedOut phase reported distinct bounded each expired =>
    refine ⟨fun fd => tidy_withPhase (tidy_closeTimedOut timedOut (orderly.tidy fd)) _, ?_⟩
    intro events' dispatching
    cases dispatching
    have fresh := batch_reported orderly.tidy distinct reported
    obtain ⟨distinct, numbered, released⟩ :=
      batch_settled fresh (settled_closeTimedOut timedOut before)
    exact ⟨distinct, numbered, released⟩
  | waitFailed phase => exact ⟨tidy_leave before, nofun⟩
  | @accept event rest results phase isListener fresh =>
    apply orderly_continueWith
    · exact tidy_acceptConnections results orderly.tidy fresh.distinct
        fun fd member => (fresh.unused fd member).2
    · intro goesOn
      exact batch_settled (batch_tail (orderly.batch _ phase))
        (settled_acceptConnections results before)
  | @write event rest results phase isClient writable =>
    have batch := orderly.batch _ phase
    have apart := apart_write event results before
    have released := released_of_write (orderly.tidy event.fd) batch isClient writable careful
    apply orderly_continueWith
    · intro goesOn fd
      by_cases same : fd = event.fd
      · rw [same]
        exact tidy_write (orderly.tidy event.fd) released
      · exact tidy_apart (orderly.tidy fd) apart same
    · exact fun goesOn => batch_apart batch apart
  | @read event rest results clock phase isClient readable =>
    have apart := apart_read platform server clock event results before
    apply orderly_continueWith
    · intro goesOn fd
      by_cases same : fd = event.fd
      · rw [same]
        have dispatchedTidy : Tidy (dispatched event before) event.fd :=
          ⟨(orderly.tidy event.fd).closed, (orderly.tidy event.fd).single,
            (orderly.tidy event.fd).watched⟩
        apply tidy_handleRead dispatchedTidy _ goesOn
        intro named
        obtain ⟨unbroken, fits⟩ := careful named
        exact ⟨unbroken, fits⟩
      · exact tidy_apart (orderly.tidy fd) apart same
    · exact fun goesOn => batch_apart (orderly.batch _ phase) apart
  | again phase =>
    exact ⟨fun fd => tidy_withPhase (orderly.tidy fd) _, nofun⟩
  | other =>
    refine ⟨fun fd => ⟨(orderly.tidy fd).closed, (orderly.tidy fd).single,
      (orderly.tidy fd).watched⟩, ?_⟩
    intro events dispatching
    obtain ⟨distinct, numbered, released⟩ := orderly.batch events dispatching
    exact ⟨distinct, numbered, released⟩

end

theorem orderly_initial {loop : Loop} (initial : Initial loop) (listener : Fd) :
    Orderly listener loop := by
  refine ⟨fun fd => ?_, ?_⟩
  · apply tidy_forgotten
    · exact ⟨by rw [initial.readBuffers, HashMap.get_empty],
        by rw [initial.writeBuffers, HashMap.get_empty]⟩
    · intro _
      rw [initial.connectTimes, HashMap.get_empty]
  · intro events dispatching
    rw [initial.phase] at dispatching
    cases dispatching

/-- Under these conditions a closed descriptor is a key of none of the three maps, and no
descriptor is a key of both buffer maps. -/
theorem maps_follow_connections (platform : Platform) (server : Server) (listener : Fd)
    (loop : Loop)
    (reached : Reaches (Step platform server listener) (Careful platform server) Initial loop)
    (fd : Fd) :
    (loop.kernel.owner fd = none → loop.readBuffers.get fd = none ∧
      loop.writeBuffers.get fd = none ∧ loop.connectTimes.get fd = none) ∧
    (loop.readBuffers.get fd = none ∨ loop.writeBuffers.get fd = none) := by
  have orderly : Orderly listener loop := by
    apply reached.invariant
    · exact fun start initial => orderly_initial initial listener
    · exact fun before label after orderly careful step => step_orderly orderly careful step
  exact ⟨(orderly.tidy fd).closed, (orderly.tidy fd).single⟩

theorem maps_follow_connections_webAnswered :
    (Isolation.webAnswered.kernel.owner 7 = none →
      Isolation.webAnswered.readBuffers.get 7 = none ∧
      Isolation.webAnswered.writeBuffers.get 7 = none ∧
      Isolation.webAnswered.connectTimes.get 7 = none) ∧
    (Isolation.webAnswered.readBuffers.get 7 = none ∨
      Isolation.webAnswered.writeBuffers.get 7 = none) := by
  have connected : Reaches (Step Handler.quietPlatform webServer 3)
      (Careful Handler.quietPlatform webServer) Initial webConnected :=
    (reaches_webConnected _).mono (by
      intro loop label calm
      cases label with
      | write event results => cases calm
      | read clock event results => cases calm
      | _ => trivial)
  have waits : Step Handler.quietPlatform webServer 3 webConnected (.wait 0 [requestReady] [])
      Isolation.webReady :=
    step_wait_early rfl (by simpa using ⟨Or.inr (by decide +kernel)⟩) (by decide) (by decide)
      (Nat.zero_le _)
  have reads : Step Handler.quietPlatform webServer 3 Isolation.webReady
      (.read ⟨0, 0, 0⟩ requestReady Isolation.requestReads) Isolation.webAnswered := by
    unfold Isolation.webAnswered Isolation.webRead
    exact .read rfl (by decide) rfl
  have careful : Careful Handler.quietPlatform webServer Isolation.webReady
      (.read ⟨0, 0, 0⟩ requestReady Isolation.requestReads) := by
    intro _
    refine ⟨nofun, ?_⟩
    intro data found _
    have empty : Isolation.webReady.readBuffers.get 7 = some [] := by decide +kernel
    cases empty.symm.trans found
    decide +kernel
  exact maps_follow_connections Handler.quietPlatform webServer 3 Isolation.webAnswered
    ((connected.step (by trivial) waits).step careful reads) 7

def webReset : Loop :=
  continueWith true []
    (handleRead Handler.quietPlatform webServer ⟨0, 0, 0⟩ requestReady.fd [.failed]
      (dispatched requestReady Isolation.webReady)).2

/-- The time of the connection stays when an error of `read` closes it. -/
theorem maps_outlive_connections :
    ¬∀ (platform : Platform) (server : Server) (listener : Fd) (loop : Loop),
      Reaches (Step platform server listener) (fun _ _ => True) Initial loop →
      loop.phase = .waiting → ∀ fd,
      (loop.kernel.owner fd = none → loop.readBuffers.get fd = none ∧
        loop.writeBuffers.get fd = none ∧ loop.connectTimes.get fd = none) ∧
      (loop.readBuffers.get fd = none ∨ loop.writeBuffers.get fd = none) := by
  intro tidy
  have connected : Reaches (Step Handler.quietPlatform webServer 3) (fun _ _ => True) Initial
      webConnected := (reaches_webConnected _).mono fun _ _ _ => trivial
  have waits : Step Handler.quietPlatform webServer 3 webConnected (.wait 0 [requestReady] [])
      Isolation.webReady :=
    step_wait_early rfl (by simpa using ⟨Or.inr (by decide +kernel)⟩) (by decide) (by decide)
      (Nat.zero_le _)
  have reads : Step Handler.quietPlatform webServer 3 Isolation.webReady
      (.read ⟨0, 0, 0⟩ requestReady [.failed]) webReset := by
    unfold webReset
    exact .read rfl (by decide) rfl
  have returns : Step Handler.quietPlatform webServer 3 webReset .again
      { webReset with phase := .waiting } := .again rfl
  have reached := ((connected.step trivial waits).step trivial reads).step trivial returns
  obtain ⟨closed, -⟩ := tidy Handler.quietPlatform webServer 3 _ reached rfl 7
  obtain ⟨-, -, forgotten⟩ := closed (by decide +kernel)
  have kept : webReset.connectTimes.get 7 = some 0 := by decide +kernel
  cases kept.symm.trans forgotten

end LocalServer.Bookkeeping
