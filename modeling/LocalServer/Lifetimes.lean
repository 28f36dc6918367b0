import LocalServer.Exchanges

/-! How long connections last. The timeout closes none before its time, and a response is sent
or given up after no more write events than it has bytes. -/

namespace LocalServer.Lifetimes
open Library Action Utf8 Server Loop Footprint Handling Isolation Watching Exchanges

/-! The times of connections -/

structure Aged (before after : Loop) : Prop where
  times : ∀ fd connection, after.kernel.owner fd = some connection →
    connection < before.kernel.accepted → before.kernel.owner fd = some connection ∧
      (after.connectTimes.get fd = before.connectTimes.get fd ∨
        after.connectTimes.get fd = none)
  accepted : before.kernel.accepted ≤ after.kernel.accepted

instance : Std.Refl Aged := ⟨fun _ => ⟨fun _ _ named _ => ⟨named, Or.inl rfl⟩, Nat.le_refl _⟩⟩

instance : IsTrans Loop Aged where
  trans before middle after early late := by
    refine ⟨?_, Nat.le_trans early.accepted late.accepted⟩
    intro fd connection named old
    obtain ⟨named, later⟩ :=
      late.times fd connection named (Nat.lt_of_lt_of_le old early.accepted)
    obtain ⟨named, earlier⟩ := early.times fd connection named old
    refine ⟨named, ?_⟩
    rcases later with same | none
    · rw [same]
      exact earlier
    · exact Or.inr none

section
variable {before after : Loop}

theorem aged_of_watched (watched : Timeouts.Watched before after) : Aged before after := by
  refine ⟨?_, watched.accepted⟩
  intro fd connection named old
  rcases watched.opened fd connection named with ⟨still, same⟩ | ⟨new, -⟩
  · exact ⟨still, Or.inl same⟩
  · omega

theorem aged_removeTime (fd : Fd) : Keeps Aged (removeTime fd) := by
  intro loop
  refine ⟨?_, Nat.le_refl _⟩
  intro other connection named _
  refine ⟨named, ?_⟩
  by_cases same : other = fd
  · subst same
    exact Or.inr (HashMap.get_remove_self _ _)
  · exact Or.inl (HashMap.get_remove_of_ne _ _ _ same)

theorem aged_continueWith {goesOn : Bool} {rest : List Event} (aged : Aged before after) :
    Aged before (continueWith goesOn rest after) := by
  cases goesOn with
  | true => exact ⟨aged.times, aged.accepted⟩
  | false =>
    refine ⟨?_, aged.accepted⟩
    intro fd connection named old
    exact ⟨(aged.times fd connection named old).1, Or.inr (HashMap.get_empty fd)⟩

variable {platform : Platform} {server : Server} {listener : Fd}

theorem step_aged {label : Label} (step : Step platform server listener before label after) :
    Aged before after := by
  have same : Aged before before := Std.Refl.refl before
  have dispatches : ∀ event : Event,
      Keeps Timeouts.Watched (issue (.dispatch event.fd event.connection)) :=
    fun event => Timeouts.watched_issue nofun
  cases step with
  | @wait now events timedOut phase reported distinct bounded each expired =>
    have closes := aged_of_watched (Timeouts.watched_closeTimedOut timedOut before)
    exact ⟨closes.times, closes.accepted⟩
  | waitFailed phase =>
    have leaves : Aged before (continueWith false [] before) := aged_continueWith same
    exact leaves
  | @accept event rest results phase isListener fresh =>
    exact aged_continueWith (aged_of_watched (Timeouts.watched_acceptConnections results before))
  | @write event rest results phase isClient writable =>
    have writes := (Timeouts.watched_operations event.fd).handleWrite results
      (dispatched event before)
    have both := aged_of_watched (IsTrans.trans _ _ _ (dispatches event before) writes)
    exact aged_continueWith (IsTrans.trans _ _ _ both (aged_removeTime event.fd _))
  | @read event rest results clock phase isClient readable =>
    have reads := (Timeouts.watched_operations event.fd).handleRead platform server clock results
      (dispatched event before)
    exact aged_continueWith
      (aged_of_watched (IsTrans.trans _ _ _ (dispatches event before) reads))
  | again phase => exact ⟨same.times, same.accepted⟩
  | other => exact ⟨same.times, same.accepted⟩

theorem run_aged {guard : Loop → Label → Prop}
    (run : Reaches (Step platform server listener) guard (· = before) after) :
    Aged before after := by
  apply run.invariant
  · intro state same
    subst same
    exact Std.Refl.refl state
  · exact fun state label next aged _ step => IsTrans.trans _ _ _ aged (step_aged step)

theorem accepted_time (results : List AcceptResult) {loop : Loop} {fd : Fd} {connection : Nat}
    (named : (acceptConnections results loop).2.kernel.owner fd = some connection)
    (new : loop.kernel.accepted ≤ connection) (goesOn : (acceptConnections results loop).1 = true) :
    ∃ time, AcceptResult.connected fd time true ∈ results ∧
      (acceptConnections results loop).2.connectTimes.get fd = some time := by
  induction results generalizing loop with
  | nil => exact absurd (loop.kernel.numbered fd connection named) (Nat.not_lt_of_le new)
  | cons result results ih =>
    cases result with
    | failed => exact absurd (loop.kernel.numbered fd connection named) (Nat.not_lt_of_le new)
    | connected served time ready =>
      cases ready with
      | false => cases goesOn
      | true =>
        have split : acceptConnections (.connected served time true :: results) loop =
            acceptConnections results (opened served time loop) := rfl
        rw [split] at named goesOn ⊢
        by_cases first : connection = loop.kernel.accepted
        · -- the later accepts leave the connection and its time alone
          subst first
          have watched := Timeouts.watched_acceptConnections results (opened served time loop)
          have old : loop.kernel.accepted < (opened served time loop).kernel.accepted :=
            Nat.lt_succ_self _
          rcases watched.opened fd _ named with ⟨still, same⟩ | ⟨later, -⟩
          · rw [owner_opened] at still
            by_cases here : fd = served
            · subst here
              refine ⟨time, List.mem_cons_self, same.trans ?_⟩
              exact HashMap.get_insert_self _ _ _
            · rw [if_neg here] at still
              exact absurd (loop.kernel.numbered fd _ still) (Nat.lt_irrefl _)
          · omega
        · have later : (opened served time loop).kernel.accepted ≤ connection :=
            Nat.lt_of_le_of_ne new (Ne.symm first)
          obtain ⟨time, member, timed⟩ := ih named later goesOn
          exact ⟨time, List.mem_cons_of_mem _ member, timed⟩

theorem kept_closeTimedOut {timedOut : List Fd} {fd : Fd} (notExpired : fd ∉ timedOut)
    (loop : Loop) : (closeTimedOut timedOut loop).2.kernel.owner fd = loop.kernel.owner fd ∧
      (closeTimedOut timedOut loop).2.readBuffers.get fd = loop.readBuffers.get fd ∧
      (closeTimedOut timedOut loop).2.writeBuffers.get fd = loop.writeBuffers.get fd := by
  induction timedOut generalizing loop with
  | nil => exact ⟨rfl, rfl, rfl⟩
  | cons served rest ih =>
    have different : fd ≠ served := List.ne_of_not_mem_cons notExpired
    obtain ⟨owner, reads, writes⟩ :=
      ih (List.not_mem_of_not_mem_cons notExpired) (closeOne served loop)
    have apart := apart_closeOne served loop
    exact ⟨owner.trans (apart.owner fd different), reads.trans (apart.reads fd different),
      writes.trans (apart.writes fd different)⟩

end

/-- Whatever happens in between, and however descriptor numbers are reused, the timeout check
leaves a connection and its buffers alone until `timeoutSecs` full seconds and one more have
passed since the connection itself was accepted. -/
theorem never_closed_early (platform : Platform) (server : Server) (listener : Fd)
    (before after : Loop) (results : List AcceptResult)
    (accepts : Step platform server listener before (.accept results) after)
    (running : after.phase ≠ .stopped) (fd : Fd) (connection : Nat)
    (named : after.kernel.owner fd = some connection)
    (new : before.kernel.accepted ≤ connection) :
    ∃ time, AcceptResult.connected fd time true ∈ results ∧
      ∀ later, Reaches (Step platform server listener) (fun _ _ => True) (· = after) later →
        later.kernel.owner fd = some connection → ∀ now events timedOut next,
        Step platform server listener later (.wait now events timedOut) next →
        (now - time) / nanosPerSec ≤ timeoutSecs →
        next.kernel.owner fd = some connection ∧
          next.readBuffers.get fd = later.readBuffers.get fd ∧
          next.writeBuffers.get fd = later.writeBuffers.get fd := by
  have timed : ∃ time, AcceptResult.connected fd time true ∈ results ∧
      after.connectTimes.get fd = some time := by
    cases accepts with
    | @accept event rest results phase isListener fresh =>
      cases goesOn : (acceptConnections results before).1 with
      | false =>
        rw [goesOn] at running
        exact absurd rfl running
      | true =>
        rw [goesOn] at named
        exact accepted_time results named new goesOn
  obtain ⟨time, member, timed⟩ := timed
  refine ⟨time, member, ?_⟩
  intro later run still now events timedOut next waits early
  have old : connection < after.kernel.accepted := after.kernel.numbered fd connection named
  obtain ⟨-, times⟩ := (run_aged run).times fd connection still old
  cases waits with
  | wait phase reported distinct bounded each expired =>
    have notExpired : fd ∉ timedOut := by
      intro expires
      obtain ⟨stored, found, late⟩ := (expired fd).mp expires
      rcases times with same | none
      · rw [same, timed] at found
        cases found
        omega
      · rw [none] at found
        cases found
    obtain ⟨owner, reads, writes⟩ := kept_closeTimedOut notExpired later
    exact ⟨owner.trans still, reads, writes⟩

def webOpened : Loop := { webConnected with phase := .dispatching [] }

theorem step_webOpened : Step Handler.quietPlatform webServer 3 webListening
    (.accept [.connected 7 0 true]) webOpened :=
  .accept rfl rfl ⟨by decide, by decide +kernel⟩

theorem never_closed_early_webOpened :
    ∃ time, AcceptResult.connected 7 time true ∈ [AcceptResult.connected 7 0 true] ∧
      ∀ later, Reaches (Step Handler.quietPlatform webServer 3) (fun _ _ => True)
          (· = webOpened) later →
        later.kernel.owner 7 = some 0 → ∀ now events timedOut next,
        Step Handler.quietPlatform webServer 3 later (.wait now events timedOut) next →
        (now - time) / nanosPerSec ≤ timeoutSecs →
        next.kernel.owner 7 = some 0 ∧
          next.readBuffers.get 7 = later.readBuffers.get 7 ∧
          next.writeBuffers.get 7 = later.writeBuffers.get 7 :=
  never_closed_early Handler.quietPlatform webServer 3 webListening webOpened _ step_webOpened
    (by decide) 7 0 (by decide +kernel) (by decide +kernel)

def Writes (fd : Fd) (connection : Nat) (loop : Loop) : Label → Prop
  | .write event _ => event.fd = fd ∧ loop.kernel.owner fd = some connection
  | _ => False

/-- What the kernel promises; and a socket that is reported as writable takes something, or
refuses for good. -/
def Productive (fd : Fd) (loop : Loop) (label : Label) : Prop :=
  Ordinary loop label ∧
    match label with
    | .write event results => event.fd = fd →
        ∃ result rest, results = result :: rest ∧ result ≠ .wouldBlock
    | _ => True

structure Held (before after : Loop) : Prop where
  writes : ∀ fd connection, after.kernel.owner fd = some connection →
    connection < before.kernel.accepted → before.kernel.owner fd = some connection ∧
      after.writeBuffers.get fd = before.writeBuffers.get fd
  accepted : before.kernel.accepted ≤ after.kernel.accepted

instance : Std.Refl Held := ⟨fun _ => ⟨fun _ _ named _ => ⟨named, rfl⟩, Nat.le_refl _⟩⟩

instance : IsTrans Loop Held where
  trans before middle after early late := by
    refine ⟨?_, Nat.le_trans early.accepted late.accepted⟩
    intro fd connection named old
    obtain ⟨named, later⟩ :=
      late.writes fd connection named (Nat.lt_of_lt_of_le old early.accepted)
    obtain ⟨named, earlier⟩ := early.writes fd connection named old
    exact ⟨named, later.trans earlier⟩

theorem held_closeOne (served : Fd) (loop : Loop) : Held loop (closeOne served loop) := by
  have apart := apart_closeOne served loop
  refine ⟨?_, Nat.le_of_eq apart.accepted.symm⟩
  intro fd connection named _
  have different : fd ≠ served := by
    intro same
    rw [same, owner_closeOne] at named
    cases named
  rw [apart.owner fd different] at named
  exact ⟨named, apart.writes fd different⟩

theorem held_opened (served : Fd) (time : Nat) (loop : Loop) :
    Held loop (opened served time loop) := by
  refine ⟨?_, Nat.le_succ _⟩
  intro fd connection named old
  rw [owner_opened] at named
  by_cases same : fd = served
  · rw [if_pos same] at named
    cases named
    exact absurd old (Nat.lt_irrefl _)
  · rw [if_neg same] at named
    exact ⟨named, rfl⟩

theorem held_dropped (served : Fd) (loop : Loop) : Held loop (dropped served loop) := by
  refine ⟨?_, Nat.le_succ _⟩
  intro fd connection named old
  rw [owner_dropped] at named
  by_cases same : fd = served
  · rw [if_pos same] at named
    cases named
  · rw [if_neg same] at named
    exact ⟨named, rfl⟩

section
variable {fd : Fd} {connection : Nat} {loop before after : Loop}

/-- The number of bytes that the connection still waits to be sent, or one to be closed. -/
def remaining (fd : Fd) (connection : Nat) (loop : Loop) : Nat :=
  if loop.kernel.owner fd = some connection then
    max 1 ((loop.writeBuffers.get fd).getD []).length
  else 0

theorem remaining_closed (closed : loop.kernel.owner fd ≠ some connection) :
    remaining fd connection loop = 0 := if_neg closed

theorem remaining_pos (named : loop.kernel.owner fd = some connection) :
    0 < remaining fd connection loop := by
  rw [remaining, if_pos named]
  omega

def Below (fd : Fd) (bound : Nat) (loop : Loop) : Prop :=
  loop.kernel.owner fd = none ∨
    ∃ rest, loop.writeBuffers.get fd = some rest ∧ rest ≠ [] ∧ rest.length < bound

theorem below_writeLoop (results : List WriteResult) {left : Bytes} {bound : Nat}
    (named : loop.kernel.owner fd = some connection)
    (held : loop.writeBuffers.get fd = some left) (fewer : left.length < bound) :
    Below fd bound (writeLoop fd left results loop).2 := by
  cases end_writeLoop results named held with
  | closed taken rest split sends owner interest writes shut => exact Or.inl owner
  | waiting taken rest split remains sends owner interest writes shut =>
    refine Or.inr ⟨rest, writes, remains, ?_⟩
    rw [split, List.length_append] at fewer
    omega

/-- A write event on which the socket takes something, or refuses for good. -/
theorem below_handleWrite {result : WriteResult} {rest : List WriteResult} {left : Bytes}
    (named : loop.kernel.owner fd = some connection)
    (held : loop.writeBuffers.get fd = some left) (takes : result ≠ .wouldBlock) :
    Below fd left.length (handleWrite fd (result :: rest) loop).2 := by
  unfold handleWrite
  rw [held]
  dsimp only
  unfold writeLoop
  by_cases done : left = []
  · rw [if_pos done]
    exact Or.inl (Timeouts.owner_finishWrite loop)
  · rw [if_neg done]
    cases result with
    | wouldBlock => exact absurd rfl takes
    | failed => exact Or.inl (Timeouts.owner_abandonWrite _)
    | wrote count =>
      dsimp only
      rw [bind_apply]
      by_cases nothing : count = 0
      · rw [if_pos nothing]
        exact Or.inl (Timeouts.owner_abandonWrite _)
      · rw [if_neg nothing, bind_apply]
        have fewer : (left.drop count).length < left.length := by
          have some : 0 < left.length := List.length_pos_iff.mpr done
          rw [List.length_drop]
          omega
        let wrote := (setWrite fd (left.drop count) (issue (.write fd left (.wrote count)) loop).2).2
        have named' : wrote.kernel.owner fd = some connection := named
        exact below_writeLoop rest named' (HashMap.get_insert_self _ _ _) fewer

theorem remaining_handleWrite {result : WriteResult} {rest : List WriteResult}
    (named : loop.kernel.owner fd = some connection) (takes : result ≠ .wouldBlock) :
    remaining fd connection (handleWrite fd (result :: rest) loop).2 <
      remaining fd connection loop := by
  have before : remaining fd connection loop = max 1 ((loop.writeBuffers.get fd).getD []).length :=
    if_pos named
  have closed : (handleWrite fd (result :: rest) loop).2.kernel.owner fd = none →
      remaining fd connection (handleWrite fd (result :: rest) loop).2 <
        remaining fd connection loop := by
    intro gone
    rw [remaining_closed (by rw [gone]; nofun)]
    exact remaining_pos named
  cases held : loop.writeBuffers.get fd with
  | none =>
    apply closed
    rw [handleWrite, held]
    exact Timeouts.owner_finishWrite loop
  | some left =>
    have below : Below fd left.length (handleWrite fd (result :: rest) loop).2 :=
      below_handleWrite named held takes
    rcases below with gone | ⟨later, waits, remains, fewer⟩
    · exact closed gone
    · rw [before, held, Option.getD_some]
      unfold remaining
      rw [waits, Option.getD_some]
      have some : 0 < later.length := List.length_pos_iff.mpr remains
      split_ifs <;> omega

theorem remaining_congr (owner : after.kernel.owner fd = before.kernel.owner fd)
    (writes : after.writeBuffers.get fd = before.writeBuffers.get fd) :
    remaining fd connection after = remaining fd connection before := by
  unfold remaining
  rw [owner, writes]

theorem remaining_held (held : Held before after) (old : connection < before.kernel.accepted) :
    remaining fd connection after ≤ remaining fd connection before := by
  by_cases named : after.kernel.owner fd = some connection
  · obtain ⟨still, same⟩ := held.writes fd connection named old
    exact Nat.le_of_eq (remaining_congr (named.trans still.symm) same)
  · rw [remaining_closed named]
    exact Nat.zero_le _

/-- A descriptor does not come to name a connection by being served. -/
theorem remaining_beside (beside : Beside fd before after)
    (other : before.kernel.owner fd ≠ some connection) : remaining fd connection after = 0 :=
  remaining_closed fun named => other (beside.owner connection named)

end

/-! The loop -/

structure Answered (listener fd : Fd) (connection : Nat) (loop : Loop) : Prop where
  served : Served listener loop
  old : connection < loop.kernel.accepted
  waits : loop.phase ≠ .stopped → loop.kernel.owner fd = some connection →
    loop.writeBuffers.get fd ≠ none

/-- The response still waits, if the connection is open, and no more of it than before. -/
structure Onward (fd : Fd) (connection : Nat) (before after : Loop) : Prop where
  waits : after.kernel.owner fd = some connection → after.writeBuffers.get fd ≠ none
  fewer : remaining fd connection after ≤ remaining fd connection before

section
variable {platform : Platform} {server : Server} {listener fd : Fd} {connection : Nat}
  {before after : Loop} {label : Label}

theorem onward_held (held : Held before after) (old : connection < before.kernel.accepted)
    (waits : before.kernel.owner fd = some connection → before.writeBuffers.get fd ≠ none) :
    Onward fd connection before after := by
  refine ⟨?_, remaining_held held old⟩
  intro named
  obtain ⟨still, same⟩ := held.writes fd connection named old
  rw [same]
  exact waits still

/-- An event on another descriptor, or on one that names another connection. -/
theorem onward_served {served : Fd} (apart : Apart served before after)
    (beside : Beside served before after)
    (waits : before.kernel.owner fd = some connection → before.writeBuffers.get fd ≠ none)
    (self : served = fd → before.kernel.owner fd = some connection →
      Onward fd connection before after) : Onward fd connection before after := by
  by_cases same : served = fd
  · subst same
    by_cases named : before.kernel.owner served = some connection
    · exact self rfl named
    · refine ⟨fun later => absurd (beside.owner connection later) named, ?_⟩
      rw [remaining_beside beside named]
      exact Nat.zero_le _
  · have different : fd ≠ served := Ne.symm same
    refine ⟨?_, Nat.le_of_eq (remaining_congr (apart.owner fd different) (apart.writes fd different))⟩
    rw [apart.owner fd different, apart.writes fd different]
    exact waits

theorem onward_handleWrite (results : List WriteResult)
    (named : before.kernel.owner fd = some connection) :
    Onward fd connection before (handleWrite fd results before).2 := by
  have ends := end_handleWrite results named
  generalize (handleWrite fd results before).2 = after at ends
  cases ends with
  | closed taken rest split sends owner interest writes shut =>
    have gone : after.kernel.owner fd ≠ some connection := by
      rw [owner]
      nofun
    exact ⟨fun later => absurd later gone, by rw [remaining_closed gone]; exact Nat.zero_le _⟩
  | waiting taken rest split remains sends owner interest writes shut =>
    refine ⟨fun _ => by rw [writes]; nofun, ?_⟩
    have length : rest.length ≤ ((before.writeBuffers.get fd).getD []).length := by
      rw [split, List.length_append]
      omega
    rw [remaining, if_pos (owner.trans named), remaining, if_pos named, writes, Option.getD_some]
    omega

theorem onward_continueWith {goesOn : Bool} {rest : List Event}
    (onward : Onward fd connection before after)
    (running : (continueWith goesOn rest after).phase ≠ .stopped) :
    Onward fd connection before (continueWith goesOn rest after) := by
  cases goesOn with
  | false => exact absurd rfl running
  | true => exact ⟨onward.waits, onward.fewer⟩

theorem step_onward (answered : Answered listener fd connection before)
    (step : Step platform server listener before label after) (running : after.phase ≠ .stopped) :
    Onward fd connection before after := by
  have waits := answered.waits (Timeouts.running_before step running)
  have same : Onward fd connection before before := ⟨waits, Nat.le_refl _⟩
  cases step with
  | @wait now events timedOut phase reported distinct bounded each expired =>
    have closes := onward_held (keeps_closeTimedOut held_closeOne timedOut before) answered.old waits
    exact ⟨closes.waits, closes.fewer⟩
  | waitFailed phase => exact absurd rfl running
  | @accept event rest results phase isListener fresh =>
    apply onward_continueWith _ running
    exact onward_held (keeps_acceptConnections held_opened held_dropped results before)
      answered.old waits
  | @write event rest results phase isClient writable =>
    apply onward_continueWith _ running
    have beside := (beside_operations event.fd).handleWrite results (dispatched event before)
    refine onward_served (apart_write event results before) ⟨beside.owner, beside.received, ?_⟩
      waits ?_
    · intro other different
      have notes : Untouched other before.kernel.log (dispatched event before).kernel.log :=
        untouched_cons before.kernel.log (Or.inr trivial)
      exact notes.trans (beside.wire other different)
    · intro here named
      subst here
      have named' : (dispatched event before).kernel.owner event.fd = some connection := named
      have writes := onward_handleWrite results named'
      exact ⟨writes.waits, writes.fewer⟩
  | @read event rest results clock phase isClient readable =>
    apply onward_continueWith _ running
    have beside := (beside_operations event.fd).handleRead platform server clock results
      (dispatched event before)
    refine onward_served (apart_read platform server clock event results before)
      ⟨beside.owner, beside.received, ?_⟩ waits ?_
    · intro other different
      have notes : Untouched other before.kernel.log (dispatched event before).kernel.log :=
        untouched_cons before.kernel.log (Or.inr trivial)
      exact notes.trans (beside.wire other different)
    · intro here named
      subst here
      have clear := (answered.served.batch _ phase).answered event List.mem_cons_self isClient readable
      exact absurd clear (waits named)
  | again phase => exact ⟨same.waits, same.fewer⟩
  | other => exact ⟨same.waits, same.fewer⟩

theorem step_answered (answered : Answered listener fd connection before)
    (ordinary : Ordinary before label)
    (step : Step platform server listener before label after) :
    Answered listener fd connection after :=
  ⟨step_served answered.served ordinary step,
    Nat.lt_of_lt_of_le answered.old (step_aged step).accepted,
    fun running => (step_onward answered step running).waits⟩

/-- A loop that has ended sends nothing. -/
def outstanding (fd : Fd) (connection : Nat) (loop : Loop) : Nat :=
  if loop.phase = .stopped then 0 else remaining fd connection loop

theorem outstanding_running {loop : Loop} (running : loop.phase ≠ .stopped) :
    outstanding fd connection loop = remaining fd connection loop := if_neg running

theorem outstanding_stopped {loop : Loop} (stopped : loop.phase = .stopped) :
    outstanding fd connection loop = 0 := if_pos stopped

theorem step_stays (answered : Answered listener fd connection before)
    (step : Step platform server listener before label after) :
    outstanding fd connection after ≤ outstanding fd connection before := by
  by_cases running : after.phase = .stopped
  · rw [outstanding_stopped running]
    exact Nat.zero_le _
  · rw [outstanding_running running,
      outstanding_running (Timeouts.running_before step running)]
    exact (step_onward answered step running).fewer

theorem step_falls (productive : Productive fd before label)
    (writes : Writes fd connection before label)
    (step : Step platform server listener before label after) :
    outstanding fd connection after < outstanding fd connection before := by
  cases step with
  | @write event rest results phase isClient writable =>
    obtain ⟨here, named⟩ := writes
    subst here
    obtain ⟨result, rest', split, takes⟩ := productive.2 rfl
    subst split
    have running : before.phase ≠ .stopped := by
      rw [phase]
      nofun
    have named' : (dispatched event before).kernel.owner event.fd = some connection := named
    have fewer : remaining event.fd connection
        (handleWrite event.fd (result :: rest') (dispatched event before)).2 <
          remaining event.fd connection (dispatched event before) :=
      remaining_handleWrite named' takes
    have still : (continueWith true rest (removeTime event.fd
        (handleWrite event.fd (result :: rest') (dispatched event before)).2).2).phase ≠ .stopped :=
      nofun
    rw [outstanding_running running, outstanding_running still]
    exact fewer
  | wait | waitFailed | accept | read | again | other => cases writes

end

/-- Once a response waits, the connection is closed after no more write events than there are
bytes left, if on each of them the socket takes something or refuses for good. -/
theorem delivered_in_time (platform : Platform) (server : Server) (listener : Fd) (loop : Loop)
    (reached : Reaches (Step platform server listener) Ordinary Initial loop)
    (running : loop.phase ≠ .stopped) (fd : Fd) (connection : Nat)
    (named : loop.kernel.owner fd = some connection) (left : Bytes)
    (waits : loop.writeBuffers.get fd = some left) (count : Nat) (later : Loop)
    (run : Tally (Step platform server listener) (Productive fd) (Writes fd connection) loop count
      later) :
    count ≤ max 1 left.length ∧
      (later.phase ≠ .stopped → later.kernel.owner fd = some connection →
        count < max 1 left.length) := by
  have initial : Answered listener fd connection loop := by
    refine ⟨run_served reached, loop.kernel.numbered fd connection named, fun _ _ => ?_⟩
    rw [waits]
    nofun
  have falls : ∀ state label next, Answered listener fd connection state →
      Productive fd state label → Writes fd connection state label →
      Step platform server listener state label next →
      outstanding fd connection next < outstanding fd connection state :=
    fun _ _ _ _ productive writes step => step_falls productive writes step
  have stays : ∀ state label next, Answered listener fd connection state →
      Productive fd state label → ¬Writes fd connection state label →
      Step platform server listener state label next →
      outstanding fd connection next ≤ outstanding fd connection state :=
    fun _ _ _ answered _ _ step => step_stays answered step
  obtain ⟨-, bounded⟩ := run.bounded initial
    (fun _ _ _ answered productive step => step_answered answered productive.1 step) falls stays
  have first : outstanding fd connection loop = max 1 left.length := by
    rw [outstanding_running running, remaining, if_pos named, waits, Option.getD_some]
  rw [first] at bounded
  refine ⟨by omega, ?_⟩
  intro running' named'
  have positive : 0 < outstanding fd connection later := by
    rw [outstanding_running running']
    exact remaining_pos named'
  omega

theorem delivered_in_time_webSending :
    ∃ left, Timeouts.webSending.writeBuffers.get 7 = some left ∧ 1 ≤ max 1 left.length ∧
      (Timeouts.webWritten.phase ≠ .stopped → Timeouts.webWritten.kernel.owner 7 = some 0 →
        1 < max 1 left.length) := by
  obtain ⟨left, waits⟩ : ∃ left, Timeouts.webSending.writeBuffers.get 7 = some left :=
    Option.isSome_iff_exists.mp (by decide +kernel)
  have named : Timeouts.webSending.kernel.owner 7 = some 0 := by decide +kernel
  have productive : Productive 7 Timeouts.webSending
      (.write Timeouts.writeReady [.wrote 5, .wouldBlock]) :=
    ⟨ordinary_webSending, fun _ => ⟨.wrote 5, [.wouldBlock], rfl, nofun⟩⟩
  have writes : Writes 7 0 Timeouts.webSending
      (.write Timeouts.writeReady [.wrote 5, .wouldBlock]) := ⟨rfl, named⟩
  have run := Tally.start.counted productive writes step_webWritten
  exact ⟨left, waits, delivered_in_time Handler.quietPlatform webServer 3 Timeouts.webSending
    reaches_webSending (by decide) 7 0 named left waits 1 Timeouts.webWritten run⟩

end LocalServer.Lifetimes
