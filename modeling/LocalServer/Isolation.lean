import LocalServer.Handling

/-! What waits to be written on a descriptor was computed from the bytes of the connection
that is open on it, however descriptor numbers are reused. -/

namespace LocalServer.Isolation
open Library Machine Utf8 Server Loop Handling

/-- The step drains what the connection has sent and queues the answer to all of it, computed in
this step from the files and sessions that it finds. -/
inductive Gives (platform : Platform) (server : Server) (connection : Nat) (received : Bytes)
    (reply : Reply) : Loop × Label × Loop → Prop where
  | read {before after : Loop} {clock : Clock} {event : Event} {results : List ReadResult}
      (named : before.kernel.owner event.fd = some connection)
      (whole : after.kernel.received connection = received)
      (computed : respond platform server clock received before.world = .ok reply)
      (queued : after.writeBuffers.get event.fd = some reply.response.serializeResponse) :
      Gives platform server connection received reply (before, .read clock event results, after)

/-- One of the steps has given the connection this answer to these bytes. -/
def Gave (platform : Platform) (server : Server) (steps : List (Loop × Label × Loop))
    (connection : Nat) (received bytes : Bytes) : Prop :=
  ∃ moment ∈ steps, ∃ reply, Gives platform server connection received reply moment ∧
    bytes = reply.response.serializeResponse

theorem Gave.later {platform : Platform} {server : Server} {steps : List (Loop × Label × Loop)}
    {connection : Nat} {received bytes : Bytes} (more : List (Loop × Label × Loop))
    (gave : Gave platform server steps connection received bytes) :
    Gave platform server (steps ++ more) connection received bytes := by
  obtain ⟨moment, member, answer⟩ := gave
  exact ⟨moment, List.mem_append_left _ member, answer⟩

/-- The bytes are what is left of an answer given to a connection, to a part of what was received. -/
def Answers (gives : Nat → Bytes → Bytes → Prop) (connection : Nat) (received pending : Bytes) : Prop :=
  ∃ data reply, data <+: received ∧ gives connection data reply ∧ pending <:+ reply

/-- A descriptor's buffers belong to the connection that is open on it. -/
structure Isolated (gives : Nat → Bytes → Bytes → Prop) (loop : Loop) : Prop where
  reads : ∀ fd connection data, loop.kernel.owner fd = some connection →
    loop.readBuffers.get fd = some data → data = loop.kernel.received connection
  writes : ∀ fd pending, loop.writeBuffers.get fd = some pending →
    ∃ connection, loop.kernel.owner fd = some connection ∧
      Answers gives connection (loop.kernel.received connection) pending

section
variable {gives : Nat → Bytes → Bytes → Prop} {loop : Loop} {fd : Fd}

theorem Answers.later {connection : Nat} {received pending more : Bytes}
    (answers : Answers gives connection received pending) :
    Answers gives connection (received ++ more) pending := by
  obtain ⟨data, reply, early, given, rest⟩ := answers
  exact ⟨data, reply, early.trans (List.prefix_append _ _), given, rest⟩

theorem Answers.drop {connection : Nat} {received pending : Bytes}
    (answers : Answers gives connection received pending) (count : Nat) :
    Answers gives connection received (pending.drop count) := by
  obtain ⟨data, reply, early, given, rest⟩ := answers
  exact ⟨data, reply, early, given, (List.drop_suffix _ _).trans rest⟩

theorem Isolated.mono {more : Nat → Bytes → Bytes → Prop} (isolated : Isolated gives loop)
    (grows : ∀ connection received reply, gives connection received reply →
      more connection received reply) : Isolated more loop := by
  refine ⟨isolated.reads, ?_⟩
  intro fd pending waiting
  obtain ⟨connection, opened, data, reply, early, given, rest⟩ := isolated.writes fd pending waiting
  exact ⟨connection, opened, data, reply, early, grows _ _ _ given, rest⟩

/-! Single operations -/

/-- Buffers may go as long as the connections and what was read on them stay. -/
theorem Isolated.fewer {before after : Loop} (isolated : Isolated gives before)
    (owner : ∀ fd, after.kernel.owner fd = before.kernel.owner fd)
    (received : after.kernel.received = before.kernel.received)
    (reads : ∀ fd data, after.readBuffers.get fd = some data → before.readBuffers.get fd = some data)
    (writes : ∀ fd data, after.writeBuffers.get fd = some data →
      before.writeBuffers.get fd = some data) : Isolated gives after := by
  refine ⟨?_, ?_⟩
  · intro fd connection data opened found
    rw [owner] at opened
    rw [received]
    exact isolated.reads fd connection data opened (reads fd data found)
  · intro fd pending found
    obtain ⟨connection, opened, answers⟩ := isolated.writes fd pending (writes fd pending found)
    exact ⟨connection, (owner fd).trans opened, by rwa [received]⟩

theorem Isolated.quiet (isolated : Isolated gives loop) (call : Call)
    (quiet : Kernel.Call.Quiet call) : Isolated gives (issue call loop).2 :=
  isolated.fewer (loop.kernel.owner_quiet quiet) (loop.kernel.received_quiet quiet)
    (fun _ _ found => found) (fun _ _ found => found)

theorem get_of_remove {map : HashMap Fd Bytes} {key other : Fd} {value : Bytes}
    (found : (map.remove key).get other = some value) : map.get other = some value := by
  rw [HashMap.get_remove] at found
  split_ifs at found
  exact found

theorem Isolated.removeRead (isolated : Isolated gives loop) (fd : Fd) :
    Isolated gives (removeRead fd loop).2 :=
  isolated.fewer (fun _ => rfl) rfl (fun _ _ => get_of_remove) (fun _ _ found => found)

theorem Isolated.removeWrite (isolated : Isolated gives loop) (fd : Fd) :
    Isolated gives (removeWrite fd loop).2 :=
  isolated.fewer (fun _ => rfl) rfl (fun _ _ found => found) (fun _ _ => get_of_remove)

theorem Isolated.close (isolated : Isolated gives loop)
    (drained : loop.writeBuffers.get fd = none) :
    Isolated gives (issue (.close fd) loop).2 := by
  refine ⟨?_, ?_⟩
  · intro other connection data opened found
    simp only [issue, Kernel.owner_close] at opened
    split_ifs at opened
    exact isolated.reads other connection data opened found
  · intro other pending found
    obtain ⟨connection, opened, answers⟩ := isolated.writes other pending found
    refine ⟨connection, ?_, answers⟩
    have different : other ≠ fd := by
      intro same
      subst same
      rw [show loop.writeBuffers.get other = some pending from found] at drained
      cases drained
    simp only [issue, Kernel.owner_close, if_neg different]
    exact opened

theorem Isolated.absorb (isolated : Isolated gives loop) {connection : Nat}
    (opened : loop.kernel.owner fd = some connection) (segment : Bytes) :
    Isolated gives (extendRead fd segment
      (issue (.read fd (.received segment)) loop).2).2 := by
  have kernel : (extendRead fd segment (issue (.read fd (.received segment)) loop).2).2.kernel =
      loop.kernel.issue (.read fd (.received segment)) := by
    simp only [extendRead, issue]
    split <;> rfl
  have writeBuffers : (extendRead fd segment
      (issue (.read fd (.received segment)) loop).2).2.writeBuffers = loop.writeBuffers := by
    simp only [extendRead, issue]
    split <;> rfl
  refine ⟨?_, ?_⟩
  · intro other connection' data opened' found
    rw [kernel, Kernel.owner_read] at opened'
    rw [kernel, loop.kernel.received_read opened]
    simp only [extendRead, issue] at found
    by_cases same : other = fd
    · subst same
      have sameConnection := opened'.symm.trans opened
      cases sameConnection
      rw [if_pos rfl]
      split at found
      · next absent =>
        rw [absent] at found
        cases found
      · next old present =>
        rw [HashMap.get_insert_self] at found
        cases found
        rw [isolated.reads other connection old opened present]
    · have different : connection' ≠ connection := by
        intro same
        subst same
        exact same (loop.kernel.single other fd connection' opened' opened)
      rw [if_neg different]
      apply isolated.reads other connection' data opened'
      split at found
      · exact found
      · rwa [HashMap.get_insert_of_ne _ _ _ _ same] at found
  · intro other pending found
    rw [writeBuffers] at found
    obtain ⟨connection', opened', answers⟩ := isolated.writes other pending found
    refine ⟨connection', by rw [kernel, Kernel.owner_read, opened'], ?_⟩
    rw [kernel, loop.kernel.received_read opened]
    split_ifs with same
    · subst same
      exact answers.later
    · exact answers

theorem Isolated.setWrite (isolated : Isolated gives loop) {connection : Nat}
    (opened : loop.kernel.owner fd = some connection) {pending : Bytes}
    (answers : Answers gives connection (loop.kernel.received connection) pending) :
    Isolated gives { loop with writeBuffers := loop.writeBuffers.insert fd pending } := by
  refine ⟨isolated.reads, ?_⟩
  intro other waiting found
  rw [HashMap.get_insert] at found
  split_ifs at found with same
  · cases found
    exact ⟨connection, by rw [same]; exact opened, answers⟩
  · exact isolated.writes other waiting found

/-- A new connection starts with an empty buffer; nothing waits to be written on a number
that was not in use. -/
theorem Isolated.accept (isolated : Isolated gives loop)
    (unused : loop.kernel.owner fd = none) (time : Nat) :
    Isolated gives (track fd time (issue (.accept fd) loop).2).2 := by
  refine ⟨?_, ?_⟩
  · intro other connection data opened found
    simp only [track, issue, Kernel.owner_accept, Kernel.received_accept] at opened found ⊢
    rw [HashMap.get_insert] at found
    split_ifs at opened found with same
    · cases opened
      cases found
      rw [if_pos rfl]
    · rw [if_neg (Nat.ne_of_lt (loop.kernel.numbered other connection opened))]
      exact isolated.reads other connection data opened found
  · intro other pending found
    obtain ⟨connection, opened, answers⟩ := isolated.writes other pending found
    have different : other ≠ fd := by
      intro same
      subst same
      rw [unused] at opened
      cases opened
    refine ⟨connection, ?_, ?_⟩
    · simp only [track, issue, Kernel.owner_accept, if_neg different]
      exact opened
    · simp only [track, issue, Kernel.received_accept,
        if_neg (Nat.ne_of_lt (loop.kernel.numbered other connection opened))]
      exact answers

/-! The handlers -/

/-- Draining keeps the buffers apart; a descriptor that was drained is open, as it was before. -/
theorem drain_isolated (fd : Fd) (results : List ReadResult)
    (isolated : Isolated gives loop)
    (closedFails : loop.kernel.owner fd = none → results.head? = some .failed) :
    Isolated gives (drain fd results loop).2 ∧
      ((drain fd results loop).1 = true →
        ∃ connection, loop.kernel.owner fd = some connection ∧
          (drain fd results loop).2.kernel.owner fd = some connection) := by
  have drained : ∀ loop : Loop, Isolated gives loop → loop.kernel.owner fd ≠ none →
      Isolated gives (issue (.read fd .wouldBlock) loop).2 ∧
        (true = true → ∃ connection, loop.kernel.owner fd = some connection ∧
          (issue (.read fd .wouldBlock) loop).2.kernel.owner fd = some connection) := by
    intro loop isolated opened
    refine ⟨isolated.quiet (.read fd .wouldBlock) trivial, fun _ => ?_⟩
    obtain ⟨connection, named⟩ := Option.ne_none_iff_exists'.mp opened
    exact ⟨connection, named, (loop.kernel.owner_read fd fd .wouldBlock).trans named⟩
  induction results generalizing loop with
  | nil => exact drained loop isolated fun closed => by cases closedFails closed
  | cons result results ih =>
    cases result with
    | received segment =>
      have opened : loop.kernel.owner fd ≠ none := fun closed => by cases closedFails closed
      obtain ⟨connection, named⟩ := Option.ne_none_iff_exists'.mp opened
      have owner : (extendRead fd segment (issue (.read fd (.received segment)) loop).2).2.kernel.owner
          fd = loop.kernel.owner fd := by
        simp only [extendRead, issue]
        split <;> exact loop.kernel.owner_read fd fd _
      have rest := ih (isolated.absorb named segment) (by
        rw [owner]
        exact fun closed => absurd closed opened)
      rwa [owner] at rest
    | closed =>
      have unregistered :=
        (isolated.quiet (.read fd .closed) trivial).quiet (.unregister fd) trivial
      exact ⟨(unregistered.removeRead fd).removeWrite fd, fun continued => by cases continued⟩
    | wouldBlock => exact drained loop isolated fun closed => by cases closedFails closed
    | failed =>
      have unregistered :=
        (isolated.quiet (.read fd .failed) trivial).quiet (.unregister fd) trivial
      exact ⟨((unregistered.removeRead fd).removeWrite fd).close (HashMap.get_remove_self _ _),
        fun continued => by cases continued⟩

variable {platform : Platform} {server : Server}

/-- What is queued is the answer to the buffer, in the state that the answer finds. -/
theorem answer_isolated {clock : Clock} (isolated : Isolated gives loop) {connection : Nat}
    (named : loop.kernel.owner fd = some connection)
    (gave : ∀ reply, (answer platform server clock fd loop).2.kernel.received connection =
        loop.kernel.received connection →
      respond platform server clock (loop.kernel.received connection) loop.world = .ok reply →
      (answer platform server clock fd loop).2.writeBuffers.get fd =
        some reply.response.serializeResponse →
      gives connection (loop.kernel.received connection) reply.response.serializeResponse)
    (goesOn : (answer platform server clock fd loop).1 = true) :
    Isolated gives (answer platform server clock fd loop).2 := by
  cases found : loop.readBuffers.get fd with
  | none =>
    rw [answer_no_buffer found]
    exact isolated.removeRead fd
  | some data =>
    have whole := isolated.reads fd connection data named found
    cases computed : respond platform server clock data loop.world with
    | error panic =>
      rw [answer_panics found computed] at goesOn
      cases goesOn
    | ok reply =>
      have queues : ∀ {after : Loop}, after.kernel = loop.kernel.issue (.watchWrite fd) →
          after.writeBuffers = loop.writeBuffers.insert fd reply.response.serializeResponse →
          (answer platform server clock fd loop).2 = after →
          Answers gives connection (loop.kernel.received connection)
            reply.response.serializeResponse := by
        intro after kernel writes same
        refine ⟨_, _, List.prefix_refl _, gave reply ?_ (whole ▸ computed) ?_, List.suffix_refl _⟩
        · rw [same, kernel]
          rfl
        · rw [same, writes]
          exact HashMap.get_insert_self _ _ _
      cases reply with
      | tooLarge =>
        have answers := queues rfl rfl (congrArg Prod.snd (answer_tooLarge found computed))
        rw [answer_tooLarge found computed]
        exact (isolated.setWrite named answers).quiet (.watchWrite fd) trivial
      | answered response world =>
        have answers := queues rfl rfl (congrArg Prod.snd (answer_answered found computed))
        rw [answer_answered found computed]
        have released :=
          ((isolated.setWrite named answers).quiet (.watchWrite fd) trivial).removeRead fd
        exact ⟨released.reads, released.writes⟩

theorem handleRead_isolated {clock : Clock} (results : List ReadResult)
    (isolated : Isolated gives loop)
    (closedFails : loop.kernel.owner fd = none → results.head? = some .failed)
    (gave : ∀ connection received reply, loop.kernel.owner fd = some connection →
      (handleRead platform server clock fd results loop).2.kernel.received connection = received →
      respond platform server clock received loop.world = .ok reply →
      (handleRead platform server clock fd results loop).2.writeBuffers.get fd =
        some reply.response.serializeResponse →
      gives connection received reply.response.serializeResponse)
    (goesOn : (handleRead platform server clock fd results loop).1 = true) :
    Isolated gives (handleRead platform server clock fd results loop).2 := by
  obtain ⟨drained, opened⟩ := drain_isolated fd results isolated closedFails
  have world := world_drain fd results loop
  simp only [handleRead, Action.bind_apply] at goesOn gave ⊢
  cases more : (drain fd results loop).1 with
  | false => exact drained
  | true =>
    simp only [more, if_true] at goesOn gave ⊢
    obtain ⟨connection, before, named⟩ := opened more
    apply answer_isolated drained named ?_ goesOn
    intro reply received computed queued
    rw [world] at computed
    exact gave connection _ reply before received computed queued

theorem finishWrite_isolated (isolated : Isolated gives loop) (fd : Fd) :
    Isolated gives (finishWrite fd loop).2 :=
  (((isolated.quiet (.unregister fd) trivial).removeWrite fd).quiet (.shutdown fd) trivial).close
    (HashMap.get_remove_self _ _)

theorem abandonWrite_isolated (isolated : Isolated gives loop) (fd : Fd) :
    Isolated gives (abandonWrite fd loop).2 :=
  ((isolated.quiet (.unregister fd) trivial).removeWrite fd).close (HashMap.get_remove_self _ _)

/-- Each partial write leaves a suffix of what waited before it. -/
theorem writeLoop_isolated (fd : Fd) (data : Bytes) (results : List WriteResult)
    (isolated : Isolated gives loop) (waiting : loop.writeBuffers.get fd = some data) :
    Isolated gives (writeLoop fd data results loop).2 := by
  induction results generalizing data loop with
  | nil =>
    rw [writeLoop]
    split_ifs
    · exact finishWrite_isolated isolated fd
    · exact isolated.quiet (.write fd data .wouldBlock) trivial
  | cons result results ih =>
    rw [writeLoop.eq_def]
    split_ifs
    · exact finishWrite_isolated isolated fd
    · cases result with
      | wrote count =>
        have written := isolated.quiet (.write fd data (.wrote count)) trivial
        simp only [Action.bind_apply]
        split_ifs
        · exact abandonWrite_isolated written fd
        · obtain ⟨connection, opened, answers⟩ := written.writes fd data waiting
          exact ih (data.drop count) (written.setWrite opened (answers.drop count))
            (HashMap.get_insert_self _ _ _)
      | failed => exact abandonWrite_isolated (isolated.quiet (.write fd data .failed) trivial) fd
      | wouldBlock => exact isolated.quiet (.write fd data .wouldBlock) trivial

theorem handleWrite_isolated (results : List WriteResult) (isolated : Isolated gives loop)
    (fd : Fd) : Isolated gives (handleWrite fd results loop).2 := by
  unfold handleWrite
  cases waiting : loop.writeBuffers.get fd with
  | none => exact finishWrite_isolated isolated fd
  | some data => exact writeLoop_isolated fd data results isolated waiting

theorem closeTimedOut_isolated (timedOut : List Fd) (isolated : Isolated gives loop) :
    Isolated gives (closeTimedOut timedOut loop).2 := by
  induction timedOut generalizing loop with
  | nil => exact isolated
  | cons fd rest ih =>
    have removed := ((isolated.quiet (.unregister fd) trivial).removeRead fd).removeWrite fd
    have untimed : Isolated gives
        (removeTime fd (removeWrite fd (removeRead fd (issue (.unregister fd) loop).2).2).2).2 :=
      removed.fewer (fun _ => rfl) rfl (fun _ _ kept => kept) (fun _ _ kept => kept)
    exact ih (untimed.close (HashMap.get_remove_self _ _))

theorem acceptConnections_isolated (results : List AcceptResult)
    (isolated : Isolated gives loop) (distinct : (acceptedFds results).Nodup)
    (unused : ∀ fd ∈ acceptedFds results, loop.kernel.owner fd = none)
    (goesOn : (acceptConnections results loop).1 = true) :
    Isolated gives (acceptConnections results loop).2 := by
  induction results generalizing loop with
  | nil => exact isolated
  | cons result results ih =>
    cases result with
    | failed => exact isolated
    | connected fd time ready =>
      cases ready with
      | false => cases goesOn
      | true =>
        have split : acceptedFds (.connected fd time true :: results) = fd :: acceptedFds results := rfl
        rw [split] at distinct unused
        have opened := isolated.accept (unused fd List.mem_cons_self) time
        have registered : Isolated gives
            (track fd time (issue (.register fd) (issue (.accept fd) loop).2).2).2 :=
          opened.fewer (fun _ => rfl) rfl (fun _ _ kept => kept) (fun _ _ kept => kept)
        refine ih registered (List.nodup_cons.mp distinct).2 ?_ goesOn
        intro other member
        have different : other ≠ fd := by
          intro same
          subst same
          exact (List.nodup_cons.mp distinct).1 member
        have same : (track fd time (issue (.register fd)
            (issue (.accept fd) loop).2).2).2.kernel.owner other = loop.kernel.owner other := by
          simp only [track, issue]
          rw [Kernel.owner_quiet _ (show Kernel.Call.Quiet (.register fd) from trivial),
            Kernel.owner_accept, if_neg different]
        rw [same]
        exact unused other (List.mem_cons_of_mem _ member)

theorem isolated_of_empty (reads : loop.readBuffers = HashMap.empty)
    (writes : loop.writeBuffers = HashMap.empty) : Isolated gives loop := by
  refine ⟨?_, ?_⟩
  · intro fd connection data opened found
    rw [reads, HashMap.get_empty] at found
    cases found
  · intro fd pending found
    rw [writes, HashMap.get_empty] at found
    cases found

theorem Isolated.withPhase (isolated : Isolated gives loop) (phase : Phase) :
    Isolated gives { loop with phase } := ⟨isolated.reads, isolated.writes⟩

theorem continueWith_isolated {goesOn : Bool} {rest : List Event}
    (isolated : goesOn = true → Isolated gives loop) :
    Isolated gives (continueWith goesOn rest loop) := by
  cases goesOn with
  | false => exact isolated_of_empty rfl rfl
  | true => exact (isolated rfl).withPhase _

end

/-- A read or write on a descriptor that is not open fails. -/
def ClosedFails (loop : Loop) : Label → Prop
  | .read _ event results => loop.kernel.owner event.fd = none → results.head? = some .failed
  | .write event results => loop.kernel.owner event.fd = none → results.head? = some .failed
  | _ => True

theorem step_isolated {gives : Nat → Bytes → Bytes → Prop} {platform : Platform} {server : Server}
    {listener : Fd} {before after : Loop} {label : Label} (isolated : Isolated gives before)
    (closedFails : ClosedFails before label)
    (gave : ∀ connection received reply,
      Gives platform server connection received reply (before, label, after) →
        gives connection received reply.response.serializeResponse)
    (step : Step platform server listener before label after) : Isolated gives after := by
  cases step with
  | wait phase reported distinct bounded each expired =>
    exact (closeTimedOut_isolated _ isolated).withPhase _
  | waitFailed phase => exact isolated_of_empty rfl rfl
  | accept phase isListener fresh =>
    exact continueWith_isolated (acceptConnections_isolated _ isolated fresh.distinct
      fun fd member => (fresh.unused fd member).2)
  | @write event rest results phase isClient writable =>
    refine continueWith_isolated fun _ => ?_
    have written := handleWrite_isolated results
      (isolated.quiet (.dispatch event.fd event.connection) trivial) event.fd
    exact written.fewer (fun _ => rfl) rfl (fun _ _ kept => kept) (fun _ _ kept => kept)
  | @read event rest results clock phase isClient readable =>
    refine continueWith_isolated fun goesOn => handleRead_isolated results
      (isolated.quiet (.dispatch event.fd event.connection) trivial) closedFails ?_ goesOn
    rw [goesOn] at gave
    intro connection received reply named whole computed queued
    exact gave connection received reply (.read named whole computed queued)
  | again phase => exact isolated.withPhase _
  | other => exact ⟨isolated.reads, isolated.writes⟩

theorem walk_isolated {platform : Platform} {server : Server} {listener : Fd} {loop : Loop}
    {steps : List (Loop × Label × Loop)}
    (walk : Walk (Step platform server listener) ClosedFails Initial steps loop) :
    Isolated (Gave platform server steps) loop := by
  induction walk with
  | start initial => exact isolated_of_empty initial.readBuffers initial.writeBuffers
  | @step steps before after label walk closedFails step ih =>
    have known : Isolated (Gave platform server (steps ++ [(before, label, after)])) before :=
      ih.mono fun connection received reply gave => gave.later _
    refine step_isolated known closedFails ?_ step
    intro connection received reply gives
    exact ⟨_, List.mem_append_right _ List.mem_cons_self, reply, gives, rfl⟩

/-- In every run of the loop, what waits to be written on a descriptor is a suffix of the response
that a step of the run has computed, from all the bytes that had been read by then on the
connection that is open on the descriptor now. -/
theorem writeBuffers_isolated (platform : Platform) (server : Server) (listener : Fd) (loop : Loop)
    (steps : List (Loop × Label × Loop))
    (walk : Walk (Step platform server listener) ClosedFails Initial steps loop) (fd : Fd)
    (pending : Bytes) (waiting : loop.writeBuffers.get fd = some pending) :
    ∃ connection received reply, loop.kernel.owner fd = some connection ∧
      received <+: loop.kernel.received connection ∧
      (∃ moment ∈ steps, Gives platform server connection received reply moment) ∧
      pending <:+ reply.response.serializeResponse := by
  obtain ⟨connection, opened, received, bytes, early, gave, rest⟩ :=
    (walk_isolated walk).writes fd pending waiting
  obtain ⟨moment, member, reply, gives, rfl⟩ := gave
  exact ⟨connection, received, reply, opened, early, ⟨moment, member, gives⟩, rest⟩

def requestReads : List ReadResult := [.received (utf8 "GET / HTTP/1.1\r\n\r\n")]

def webReady : Loop := { webConnected with phase := .dispatching [requestReady] }

def webRead : Bool × Loop :=
  handleRead Handler.quietPlatform webServer ⟨0, 0, 0⟩ requestReady.fd requestReads
    (dispatched requestReady webReady)

def webAnswered : Loop := continueWith webRead.1 [] webRead.2

theorem reaches_webAnswered :
    Reaches (Step Handler.quietPlatform webServer 3) ClosedFails Initial webAnswered := by
  have connected : Reaches (Step Handler.quietPlatform webServer 3) ClosedFails Initial
      webConnected := (reaches_webConnected _).mono (by
    intro loop label calm
    cases label with
    | read clock event results => cases calm
    | write event results => cases calm
    | _ => trivial)
  have waits : Step Handler.quietPlatform webServer 3 webConnected (.wait 0 [requestReady] [])
      webReady :=
    step_wait_early rfl (by simpa using ⟨Or.inr (by decide +kernel)⟩) (by decide) (by decide)
      (Nat.zero_le _)
  have reads : Step Handler.quietPlatform webServer 3 webReady
      (.read ⟨0, 0, 0⟩ requestReady requestReads) webAnswered := by
    unfold webAnswered webRead
    exact .read rfl (by decide) rfl
  have opened : webReady.kernel.owner 7 ≠ none := by decide +kernel
  exact (connected.step (by trivial) waits).step (by exact fun closed => absurd closed opened) reads

theorem writeBuffers_isolated_webAnswered : ∃ steps pending connection received reply,
    Walk (Step Handler.quietPlatform webServer 3) ClosedFails Initial steps webAnswered ∧
      webAnswered.writeBuffers.get 7 = some pending ∧ webAnswered.kernel.owner 7 = some connection ∧
      (∃ moment ∈ steps, Gives Handler.quietPlatform webServer connection received reply moment) ∧
      pending <:+ reply.response.serializeResponse := by
  obtain ⟨steps, walk⟩ := reaches_webAnswered.walk
  obtain ⟨pending, waiting⟩ : ∃ pending, webAnswered.writeBuffers.get 7 = some pending :=
    Option.isSome_iff_exists.mp (by decide +kernel)
  obtain ⟨connection, received, reply, opened, -, given, rest⟩ := writeBuffers_isolated
    Handler.quietPlatform webServer 3 webAnswered steps walk 7 pending waiting
  exact ⟨steps, pending, connection, received, reply, walk, waiting, opened, given, rest⟩

end LocalServer.Isolation
