import LocalServer.Footprint

/-! Which descriptor every call of the loop is made on. The calls are sound as long as no
step closes a descriptor that an event of its batch still names, or one that a failed read
has closed before. -/

namespace LocalServer.Ownership
open Library Utf8 Server Loop
open Footprint (apart_issue opened dropped owner_opened)

structure Serves (fd : Fd) (before after : Loop) : Prop where
  others : ∀ other, other ≠ fd → after.kernel.owner other = before.kernel.owner other
  log : ∃ new, after.kernel.log = new ++ before.kernel.log ∧ Serving fd new
  times : ∀ other, other ≠ fd → after.connectTimes.get other = before.connectTimes.get other

section
variable {fd : Fd} {before middle after : Loop}

theorem Serves.refl (loop : Loop) : Serves fd loop loop :=
  ⟨fun _ _ => rfl, ⟨[], rfl, fun _ member => by cases member⟩, fun _ _ => rfl⟩

theorem Serves.trans (first : Serves fd before middle) (second : Serves fd middle after) :
    Serves fd before after := by
  obtain ⟨early, grown, served⟩ := first.log
  obtain ⟨late, grown', served'⟩ := second.log
  refine ⟨?_, ⟨late ++ early, by rw [grown', grown, List.append_assoc], ?_⟩,
    fun other different => (second.times other different).trans (first.times other different)⟩
  · intro other different
    rw [second.others other different, first.others other different]
  · intro entry member
    exact (List.mem_append.mp member).elim (served' entry) (served entry)

theorem serves_issue (call : Call) (on : call.fd = fd) (notAccept : ∀ g, call ≠ .accept g)
    (sound : (⟨call, before.kernel.owner fd⟩ : Entry).Sound) :
    Serves fd before (issue call before).2 := by
  subst on
  refine ⟨(apart_issue rfl notAccept before).owner,
    ⟨[⟨call, before.kernel.owner call.fd⟩], rfl, ?_⟩, fun _ _ => rfl⟩
  intro entry member
  rw [List.mem_singleton] at member
  subst member
  exact ⟨rfl, notAccept, sound⟩

theorem serves_unregister : Serves fd before (issue (.unregister fd) before).2 :=
  serves_issue _ rfl nofun trivial

theorem serves_watchWrite : Serves fd before (issue (.watchWrite fd) before).2 :=
  serves_issue _ rfl nofun trivial

theorem serves_dispatch {connection : Nat} (opened : before.kernel.owner fd = some connection) :
    Serves fd before (issue (.dispatch fd connection) before).2 :=
  serves_issue _ rfl nofun fun later same => by rw [opened] at same; cases same; rfl

theorem serves_read (opened : before.kernel.owner fd ≠ none) (result : ReadResult) :
    Serves fd before (issue (.read fd result) before).2 := serves_issue _ rfl nofun opened

theorem serves_write (opened : before.kernel.owner fd ≠ none) (data : Bytes) (result : WriteResult) :
    Serves fd before (issue (.write fd data result) before).2 := serves_issue _ rfl nofun opened

theorem serves_shutdown (opened : before.kernel.owner fd ≠ none) :
    Serves fd before (issue (.shutdown fd) before).2 := serves_issue _ rfl nofun opened

theorem serves_close (opened : before.kernel.owner fd ≠ none) :
    Serves fd before (issue (.close fd) before).2 := serves_issue _ rfl nofun opened

theorem serves_of_kernel (same : after.kernel = before.kernel)
    (times : after.connectTimes = before.connectTimes) : Serves fd before after :=
  ⟨fun _ _ => by rw [same], ⟨[], by rw [same]; rfl, fun _ member => by cases member⟩,
    fun _ _ => by rw [times]⟩

theorem serves_removeTime (fd : Fd) (before : Loop) : Serves fd before (removeTime fd before).2 :=
  ⟨fun _ _ => rfl, ⟨[], rfl, fun _ member => by cases member⟩,
    fun other different => HashMap.get_remove_of_ne before.connectTimes fd other different⟩

theorem Serves.readFailed (serves : Serves fd before after) (other : Fd) :
    (other ≠ fd → readFailed other after.kernel.log = readFailed other before.kernel.log) ∧
      (readFailed other before.kernel.log = true → readFailed other after.kernel.log = true) := by
  obtain ⟨new, grown, serving⟩ := serves.log
  rw [grown]
  exact readFailed_serving serving

end

/-! The handlers -/

section
variable {fd : Fd} {loop : Loop} {connection : Nat}

theorem serves_extendRead (fd : Fd) (segment : Bytes) (loop : Loop) :
    Serves fd loop (extendRead fd segment loop).2 := by
  unfold extendRead
  split <;> exact serves_of_kernel rfl rfl

theorem owner_extendRead (fd : Fd) (segment : Bytes) (loop : Loop) :
    (extendRead fd segment loop).2.kernel.owner fd = loop.kernel.owner fd := by
  unfold extendRead
  split <;> rfl

theorem drain_serves (results : List ReadResult) (opened : loop.kernel.owner fd = some connection) :
    Serves fd loop (drain fd results loop).2 ∧
      ((drain fd results loop).1 = true →
        (drain fd results loop).2.kernel.owner fd = some connection) ∧
      ((drain fd results loop).2.kernel.owner fd = some connection ∨
        readFailed fd (drain fd results loop).2.kernel.log = true) := by
  induction results generalizing loop with
  | nil => exact ⟨serves_read (by simp [opened]) .wouldBlock, fun _ => opened, Or.inl opened⟩
  | cons result results ih =>
    have read := serves_read (by simp [opened] : loop.kernel.owner fd ≠ none) result
    have still : (issue (.read fd result) loop).2.kernel.owner fd = some connection :=
      (loop.kernel.owner_read fd fd result).trans opened
    generalize after : (issue (.read fd result) loop).2 = middle at read still
    cases result with
    | received segment =>
      obtain ⟨served, rest⟩ := ih ((owner_extendRead fd segment middle).trans still)
      have whole := (read.trans (serves_extendRead fd segment middle)).trans served
      subst after
      exact ⟨whole, rest⟩
    | wouldBlock =>
      subst after
      exact ⟨read, fun _ => still, Or.inl still⟩
    | closed =>
      have unregistered := read.trans serves_unregister
      subst after
      exact ⟨unregistered.trans (serves_of_kernel rfl rfl), fun continued => (by cases continued),
        Or.inl still⟩
    | failed =>
      let removed := (removeWrite fd (removeRead fd (issue (.unregister fd) middle).2).2).2
      have removes : Serves fd middle removed :=
        serves_unregister.trans (serves_of_kernel rfl rfl)
      have named : removed.kernel.owner fd ≠ none := fun gone => by cases gone.symm.trans still
      have closes : Serves fd middle (issue (.close fd) removed).2 :=
        removes.trans (serves_close named)
      subst after
      refine ⟨read.trans closes, fun continued => (by cases continued), Or.inr ?_⟩
      show readFailed fd (⟨.close fd, _⟩ :: ⟨.unregister fd, _⟩ :: ⟨.read fd .failed, _⟩ ::
        loop.kernel.log) = true
      simp [readFailed]

theorem answer_serves (platform : Platform) (server : Server) (clock : Clock)
    (opened : loop.kernel.owner fd = some connection) :
    Serves fd loop (answer platform server clock fd loop).2 ∧
      ((answer platform server clock fd loop).1 = true →
        (answer platform server clock fd loop).2.kernel.owner fd = some connection) := by
  have named : loop.kernel.owner fd ≠ none := by simp [opened]
  have watched : ∀ next : Loop, next.kernel = loop.kernel → next.connectTimes = loop.connectTimes →
      Serves fd loop (issue (.watchWrite fd) next).2 := fun next kernel times =>
    (serves_of_kernel kernel times).trans serves_watchWrite
  cases found : loop.readBuffers.get fd with
  | none =>
    rw [answer_no_buffer found]
    exact ⟨serves_of_kernel rfl rfl, fun _ => opened⟩
  | some data =>
    cases computed : respond platform server clock data loop.world with
    | error panic =>
      rw [answer_panics found computed]
      exact ⟨serves_close named, fun continued => (by cases continued)⟩
    | ok reply =>
      cases reply with
      | tooLarge =>
        rw [answer_tooLarge found computed]
        exact ⟨watched _ rfl rfl, fun _ => opened⟩
      | answered response world =>
        rw [answer_answered found computed]
        exact ⟨(watched _ rfl rfl).trans (serves_of_kernel rfl rfl), fun _ => opened⟩

theorem handleRead_serves (platform : Platform) (server : Server) (clock : Clock)
    (results : List ReadResult) (opened : loop.kernel.owner fd = some connection) :
    Serves fd loop (handleRead platform server clock fd results loop).2 ∧
      ((handleRead platform server clock fd results loop).1 = true →
        (handleRead platform server clock fd results loop).2.kernel.owner fd = some connection ∨
          readFailed fd (handleRead platform server clock fd results loop).2.kernel.log = true) := by
  obtain ⟨drained, more, left⟩ := drain_serves results opened
  simp only [handleRead, Action.bind_apply]
  cases continued : (drain fd results loop).1 with
  | false => exact ⟨drained, fun _ => left⟩
  | true =>
    obtain ⟨answered, still⟩ := answer_serves platform server clock (more continued)
    exact ⟨drained.trans answered, fun goesOn => Or.inl (still goesOn)⟩

theorem finishWrite_serves (opened : loop.kernel.owner fd ≠ none) :
    Serves fd loop (finishWrite fd loop).2 := by
  let removed := (removeWrite fd (issue (.unregister fd) loop).2).2
  have removes : Serves fd loop removed := serves_unregister.trans (serves_of_kernel rfl rfl)
  have named : removed.kernel.owner fd ≠ none := opened
  have shut : Serves fd removed (issue (.shutdown fd) removed).2 := serves_shutdown named
  exact removes.trans (shut.trans (serves_close named))

theorem abandonWrite_serves (opened : loop.kernel.owner fd ≠ none) :
    Serves fd loop (abandonWrite fd loop).2 := by
  let removed := (removeWrite fd (issue (.unregister fd) loop).2).2
  have removes : Serves fd loop removed := serves_unregister.trans (serves_of_kernel rfl rfl)
  have named : removed.kernel.owner fd ≠ none := opened
  exact removes.trans (serves_close named)

theorem writeLoop_serves (data : Bytes) (results : List WriteResult)
    (opened : loop.kernel.owner fd ≠ none) : Serves fd loop (writeLoop fd data results loop).2 := by
  induction results generalizing data loop with
  | nil =>
    rw [writeLoop]
    split_ifs
    · exact finishWrite_serves opened
    · exact serves_write opened data .wouldBlock
  | cons result results ih =>
    rw [writeLoop.eq_def]
    split_ifs
    · exact finishWrite_serves opened
    · have written := serves_write opened data result
      have named : (issue (.write fd data result) loop).2.kernel.owner fd ≠ none := opened
      cases result with
      | wrote count =>
        simp only [Action.bind_apply]
        split_ifs
        · exact written.trans (abandonWrite_serves named)
        · have stored : Serves fd (issue (.write fd data (.wrote count)) loop).2
              (setWrite fd (data.drop count) (issue (.write fd data (.wrote count)) loop).2).2 :=
            serves_of_kernel rfl rfl
          exact (written.trans stored).trans (ih (data.drop count) named)
      | failed => exact written.trans (abandonWrite_serves named)
      | wouldBlock => exact written

theorem handleWrite_serves (results : List WriteResult) (opened : loop.kernel.owner fd ≠ none) :
    Serves fd loop (handleWrite fd results loop).2 := by
  unfold handleWrite
  cases loop.writeBuffers.get fd with
  | none => exact finishWrite_serves opened
  | some data => exact writeLoop_serves data results opened

theorem closeOne_serves (opened : loop.kernel.owner fd ≠ none) :
    Serves fd loop (issue (.close fd) (removeTime fd (removeWrite fd (removeRead fd
      (issue (.unregister fd) loop).2).2).2).2).2 := by
  let unbuffered := (removeWrite fd (removeRead fd (issue (.unregister fd) loop).2).2).2
  have clears : Serves fd loop unbuffered := serves_unregister.trans (serves_of_kernel rfl rfl)
  let removed := (removeTime fd unbuffered).2
  have removes : Serves fd loop removed := clears.trans (serves_removeTime fd unbuffered)
  have named : removed.kernel.owner fd ≠ none := opened
  exact removes.trans (serves_close named)

end

def SoundLog (loop : Loop) : Prop := ∀ entry ∈ loop.kernel.log, entry.Sound

/-- Whoever is waited for is connected, unless a failed read has closed the descriptor. -/
def Timed (loop : Loop) : Prop :=
  ∀ fd time, loop.connectTimes.get fd = some time →
    loop.kernel.owner fd ≠ none ∨ readFailed fd loop.kernel.log = true

/-- The events still to be handled name different descriptors, each the connection's it
was reported for. -/
structure Batch (listener : Fd) (events : List Event) (loop : Loop) : Prop where
  distinct : (events.map Event.fd).Nodup
  current : ∀ event ∈ events, event.fd = listener ∨
    loop.kernel.owner event.fd = some event.connection

structure Owned (listener : Fd) (loop : Loop) : Prop where
  sound : SoundLog loop
  timed : Timed loop
  batch : ∀ events, loop.phase = .dispatching events → Batch listener events loop

theorem Serves.soundLog {fd : Fd} {before after : Loop} (serves : Serves fd before after)
    (sound : SoundLog before) : SoundLog after := by
  obtain ⟨new, grown, serving⟩ := serves.log
  intro entry member
  rw [grown] at member
  exact (List.mem_append.mp member).elim (fun inNew => (serving entry inNew).2.2) (sound entry)

theorem Serves.timed {fd : Fd} {before after : Loop} (serves : Serves fd before after)
    (timed : Timed before) (self : ∀ time, after.connectTimes.get fd = some time →
      after.kernel.owner fd ≠ none ∨ Library.readFailed fd after.kernel.log = true) :
    Timed after := by
  intro other time found
  by_cases same : other = fd
  · subst same
    exact self time found
  · rw [serves.times other same] at found
    rw [serves.others other same, (serves.readFailed other).1 same]
    exact timed other time found

theorem Batch.tail {listener : Fd} {event : Event} {rest : List Event} {before after : Loop}
    (batch : Batch listener (event :: rest) before)
    (kept : ∀ other ∈ rest, before.kernel.owner other.fd = some other.connection →
      after.kernel.owner other.fd = some other.connection) : Batch listener rest after where
  distinct := (List.nodup_cons.mp batch.distinct).2
  current := fun other member =>
    (batch.current other (List.mem_cons_of_mem _ member)).imp_right (kept other member)

theorem owned_leave {listener : Fd} {loop : Loop} (sound : SoundLog loop) :
    Owned listener loop.leave where
  sound := sound
  timed := fun fd time found => by rw [leave, HashMap.get_empty] at found; cases found
  batch := fun events dispatching => by cases dispatching

/-- Handling one event of a client leaves the rest of the batch as it was. -/
theorem owned_served {listener : Fd} {event : Event} {rest : List Event} {before after : Loop}
    (owned : Owned listener before) (phase : before.phase = .dispatching (event :: rest))
    (serves : Serves event.fd before after) (goesOn : Bool)
    (self : goesOn = true → ∀ time, after.connectTimes.get event.fd = some time →
      after.kernel.owner event.fd ≠ none ∨ readFailed event.fd after.kernel.log = true) :
    Owned listener (continueWith goesOn rest after) := by
  have batch := owned.batch _ phase
  cases goesOn with
  | false => exact owned_leave (serves.soundLog owned.sound)
  | true =>
    refine ⟨serves.soundLog owned.sound, serves.timed owned.timed (self rfl), ?_⟩
    intro events dispatching
    cases dispatching
    have tail : Batch listener rest after := batch.tail fun other member opened => by
      have different : other.fd ≠ event.fd := fun same =>
        (List.nodup_cons.mp batch.distinct).1 (same ▸ List.mem_map_of_mem member)
      rw [serves.others other.fd different, opened]
    exact ⟨tail.distinct, tail.current⟩

/-! The steps -/

theorem closeTimedOut_owned (timedOut : List Fd) {loop : Loop} (each : timedOut.Nodup)
    (opened : ∀ fd ∈ timedOut, loop.kernel.owner fd ≠ none) (sound : SoundLog loop)
    (timed : Timed loop) :
    SoundLog (closeTimedOut timedOut loop).2 ∧ Timed (closeTimedOut timedOut loop).2 ∧
      ∀ other ∉ timedOut,
        (closeTimedOut timedOut loop).2.kernel.owner other = loop.kernel.owner other := by
  induction timedOut generalizing loop with
  | nil => exact ⟨sound, timed, fun _ _ => rfl⟩
  | cons fd rest ih =>
    obtain ⟨fresh, each⟩ := List.nodup_cons.mp each
    have serves := closeOne_serves (opened fd List.mem_cons_self)
    -- no time is kept for the descriptor just closed
    have removed := serves.timed timed (fun time found => by
      cases (HashMap.get_remove_self loop.connectTimes fd).symm.trans found)
    obtain ⟨sound, timed, others⟩ := ih each (fun other member => by
      rw [serves.others other (fun same => fresh (same ▸ member))]
      exact opened other (List.mem_cons_of_mem _ member)) (serves.soundLog sound) removed
    refine ⟨sound, timed, fun other absent => ?_⟩
    rw [List.mem_cons, not_or] at absent
    exact (others other absent.2).trans (serves.others other absent.1)

theorem soundLog_accept (fd : Fd) {loop : Loop} (sound : SoundLog loop) :
    SoundLog (issue (.accept fd) loop).2 := by
  intro entry member
  rcases List.mem_cons.mp member with rfl | old
  · exact trivial
  · exact sound entry old

theorem soundLog_opened (fd : Fd) (time : Nat) {loop : Loop} (sound : SoundLog loop) :
    SoundLog (opened fd time loop) := by
  intro entry member
  rcases List.mem_cons.mp member with rfl | old
  · exact trivial
  · exact soundLog_accept fd sound entry old

theorem soundLog_dropped (fd : Fd) {loop : Loop} (sound : SoundLog loop) :
    SoundLog (dropped fd loop) := by
  have named : (issue (.accept fd) loop).2.kernel.owner fd = some loop.kernel.accepted := by
    rw [show (issue (.accept fd) loop).2.kernel.owner fd = _ from loop.kernel.owner_accept fd fd,
      if_pos rfl]
  have serves : Serves fd (issue (.accept fd) loop).2 (dropped fd loop) :=
    serves_close (by rw [named]; simp)
  exact serves.soundLog (soundLog_accept fd sound)

/-- The connection just accepted is connected, and the others' failed reads are as before. -/
theorem timed_opened (fd : Fd) (time : Nat) {loop : Loop} (timed : Timed loop) :
    Timed (opened fd time loop) := by
  intro other since found
  by_cases same : other = fd
  · exact Or.inl (by rw [owner_opened, if_pos same]; simp)
  · have old : loop.connectTimes.get other = some since := by
      rwa [← HashMap.get_insert_of_ne loop.connectTimes fd other time same]
    rw [owner_opened, if_neg same]
    refine (timed other since old).imp_right fun failed => ?_
    show readFailed other (⟨.register fd, _⟩ :: ⟨.accept fd, _⟩ :: loop.kernel.log) = true
    simp [readFailed, failed, Ne.symm same]

theorem acceptConnections_owned (results : List AcceptResult) {loop : Loop}
    (distinct : (acceptedFds results).Nodup)
    (unused : ∀ fd ∈ acceptedFds results, loop.kernel.owner fd = none) (sound : SoundLog loop) :
    SoundLog (acceptConnections results loop).2 ∧
      ((acceptConnections results loop).1 = true →
        (Timed loop → Timed (acceptConnections results loop).2) ∧
          ∀ other connection, loop.kernel.owner other = some connection →
            (acceptConnections results loop).2.kernel.owner other = some connection) := by
  induction results generalizing loop with
  | nil => exact ⟨sound, fun _ => ⟨id, fun _ _ => id⟩⟩
  | cons result results ih =>
    cases result with
    | failed => exact ⟨sound, fun _ => ⟨id, fun _ _ => id⟩⟩
    | connected fd time ready =>
      have split : acceptedFds (.connected fd time ready :: results) =
          fd :: acceptedFds results := rfl
      rw [split] at distinct unused
      obtain ⟨fresh, distinct⟩ := List.nodup_cons.mp distinct
      cases ready with
      | false => exact ⟨soundLog_dropped fd sound, fun continued => by cases continued⟩
      | true =>
        have unusedRest : ∀ other ∈ acceptedFds results,
            (opened fd time loop).kernel.owner other = none := by
          intro other member
          have different : other ≠ fd := by
            intro same
            subst same
            exact fresh member
          rw [owner_opened, if_neg different]
          exact unused other (List.mem_cons_of_mem _ member)
        obtain ⟨sound, rest⟩ := ih distinct unusedRest (soundLog_opened fd time sound)
        refine ⟨sound, fun goesOn => ?_⟩
        obtain ⟨timed, kept⟩ := rest goesOn
        refine ⟨fun before => timed (timed_opened fd time before), fun other connection found =>
          kept other connection ?_⟩
        -- a descriptor in use is not the one just accepted
        have different : other ≠ fd := by
          intro same
          subst same
          rw [unused other List.mem_cons_self] at found
          cases found
        rw [owner_opened, if_neg different, found]

/-- In an iteration of the loop, no connection is closed by the timeout that an event of the
same batch names, or that a failed read has closed already. -/
def Undisturbed (loop : Loop) : Label → Prop
  | .wait _ events timedOut => ∀ fd ∈ timedOut,
      fd ∉ events.map Event.fd ∧ readFailed fd loop.kernel.log = false
  | _ => True

theorem step_owned {platform : Platform} {server : Server} {listener : Fd} {before after : Loop}
    {label : Label} (owned : Owned listener before) (undisturbed : Undisturbed before label)
    (step : Step platform server listener before label after) : Owned listener after := by
  cases step with
  | @wait now events timedOut phase reported distinct bounded each expired =>
    have opened : ∀ fd ∈ timedOut, before.kernel.owner fd ≠ none := by
      intro fd member
      obtain ⟨time, found, -⟩ := (expired fd).mp member
      rcases owned.timed fd time found with opened | failed
      · exact opened
      · rw [(undisturbed fd member).2] at failed
        cases failed
    obtain ⟨sound, timed, others⟩ := closeTimedOut_owned timedOut each opened owned.sound owned.timed
    refine ⟨sound, timed, fun batch dispatching => ?_⟩
    cases dispatching
    refine ⟨distinct, fun event member => ?_⟩
    rcases (reported event member).registered with isListener | ⟨current, -⟩
    · exact Or.inl isListener
    · have ready : event.fd ∉ timedOut := fun expires =>
        (undisturbed event.fd expires).1 (List.mem_map_of_mem member)
      exact Or.inr ((others event.fd ready).trans current)
  | waitFailed phase => exact owned_leave owned.sound
  | @accept event rest results phase isListener fresh =>
    have batch := owned.batch _ phase
    obtain ⟨sound, goesOn⟩ := acceptConnections_owned results fresh.distinct
      (fun fd member => (fresh.unused fd member).2) owned.sound
    cases continued : (acceptConnections results before).1 with
    | false => exact owned_leave sound
    | true =>
      obtain ⟨timed, kept⟩ := goesOn continued
      refine ⟨sound, timed owned.timed, fun events dispatching => ?_⟩
      cases dispatching
      have tail : Batch listener rest (acceptConnections results before).2 := batch.tail
        fun other member opened => kept other.fd other.connection opened
      exact ⟨tail.distinct, tail.current⟩
  | @write event rest results phase isClient writable =>
    have current := ((owned.batch _ phase).current event List.mem_cons_self).resolve_left isClient
    have dispatches : Serves event.fd before (dispatched event before) := serves_dispatch current
    have named : (dispatched event before).kernel.owner event.fd ≠ none := by
      rw [show (dispatched event before).kernel.owner event.fd = _ from current]
      simp
    have serves := (dispatches.trans (handleWrite_serves results named)).trans
      (serves_removeTime event.fd _)
    exact owned_served owned phase serves true fun _ time found => by
      cases (HashMap.get_remove_self _ event.fd).symm.trans found
  | @read event rest results clock phase isClient readable =>
    have current := ((owned.batch _ phase).current event List.mem_cons_self).resolve_left isClient
    have dispatches : Serves event.fd before (dispatched event before) := serves_dispatch current
    obtain ⟨serves, left⟩ := handleRead_serves platform server clock results
      (show (dispatched event before).kernel.owner event.fd = some event.connection from current)
    refine owned_served owned phase (dispatches.trans serves) _ fun goesOn time _ => ?_
    exact (left goesOn).imp_left fun still => by rw [still]; simp
  | again phase => exact ⟨owned.sound, owned.timed, fun events dispatching => by cases dispatching⟩
  | other =>
    refine ⟨owned.sound, owned.timed, fun events dispatching => ?_⟩
    have batch := owned.batch events dispatching
    exact ⟨batch.distinct, batch.current⟩

/-- In every run without such an iteration, all calls are sound: each read, write, shutdown
and close is on a descriptor that was accepted and not closed since, and each event is
handled on the connection it was reported for. -/
theorem calls_sound (platform : Platform) (server : Server) (listener : Fd) (loop : Loop)
    (reached : Reaches (Step platform server listener) Undisturbed Initial loop) :
    ∀ entry ∈ loop.kernel.log, entry.Sound := by
  have owned : Owned listener loop := by
    apply reached.invariant
    · intro start initial
      refine ⟨?_, ?_, ?_⟩
      · intro entry member
        rw [initial.kernel] at member
        cases member
      · intro fd time found
        rw [initial.connectTimes, HashMap.get_empty] at found
        cases found
      · intro events dispatching
        rw [initial.phase] at dispatching
        cases dispatching
    · intro before label after owned undisturbed step
      exact step_owned owned undisturbed step
  exact owned.sound

def lateSecond : Nat := 31 * nanosPerSec

theorem webConnected_expired (fd : Fd) : fd ∈ [7] ↔ webConnected.TimedOut lateSecond fd := by
  have times : webConnected.connectTimes = HashMap.empty.insert 7 0 := rfl
  rw [List.mem_singleton, TimedOut, times]
  constructor
  · intro same
    subst same
    exact ⟨0, HashMap.get_insert_self _ _ _, by decide⟩
  · intro expires
    obtain ⟨time, found, -⟩ := expires
    rw [HashMap.get_insert, HashMap.get_empty] at found
    split_ifs at found with same
    exact same

def webClosed (events : List Event) : Loop :=
  { (closeTimedOut [7] webConnected).2 with phase := .dispatching events }

theorem calls_sound_webClosed :
    (⟨.close 7, some 0⟩ : Entry) ∈ (webClosed []).kernel.log ∧ Entry.Sound ⟨.close 7, some 0⟩ := by
  have connected : Reaches (Step Handler.quietPlatform webServer 3) Undisturbed Initial
      webConnected := (reaches_webConnected _).mono (by
    intro loop label calm
    cases label with
    | wait now events timedOut =>
      rw [show timedOut = [] from calm]
      exact fun fd member => by cases member
    | _ => trivial)
  have waits : Step Handler.quietPlatform webServer 3 webConnected (.wait lateSecond [] [7])
      (webClosed []) :=
    .wait rfl (by simp) (by decide) (by decide) (by decide) webConnected_expired
  have undisturbed : Undisturbed webConnected (.wait lateSecond [] [7]) := by
    unfold Undisturbed
    decide +kernel
  have logged : (⟨.close 7, some 0⟩ : Entry) ∈ (webClosed []).kernel.log := by decide +kernel
  exact ⟨logged, calls_sound Handler.quietPlatform webServer 3 (webClosed [])
    (connected.step undisturbed waits) _ logged⟩

/-- The descriptor is closed by the timeout, then read and closed again for the event. -/
theorem calls_unsound :
    ¬∀ (platform : Platform) (server : Server) (listener : Fd) (loop : Loop),
      Reaches (Step platform server listener) (fun _ _ => True) Initial loop →
      ∀ entry ∈ loop.kernel.log, entry.Sound := by
  intro sound
  have connected : Reaches (Step Handler.quietPlatform webServer 3) (fun _ _ => True) Initial
      webConnected := (reaches_webConnected _).mono fun _ _ _ => trivial
  have waits : Step Handler.quietPlatform webServer 3 webConnected
      (.wait lateSecond [requestReady] [7]) (webClosed [requestReady]) :=
    .wait rfl (by simpa using ⟨Or.inr (by decide +kernel)⟩) (by decide) (by decide) (by decide)
      webConnected_expired
  have reads : Step Handler.quietPlatform webServer 3 (webClosed [requestReady])
      (.read ⟨0, 0, 0⟩ requestReady [.failed]) _ := .read rfl (by decide) rfl
  have late := sound Handler.quietPlatform webServer 3 _
    ((connected.step (by trivial) waits).step (by trivial) reads) ⟨.read 7 .failed, none⟩
    (by decide +kernel)
  exact late rfl

end LocalServer.Ownership
