import LocalServer.Footprint

/-! Whether a handler leaves something behind that an edge-triggered `epoll` does not report
again. Reading and writing never do; accepting does when a call fails. -/

namespace LocalServer.Edges
open Library Action Utf8 Server Loop Footprint

inductive Handling where
  | accept (results : List AcceptResult)
  | read (clock : Clock) (fd : Fd) (results : List ReadResult)
  | write (fd : Fd) (results : List WriteResult)

def blocked (fd : Fd) : List Entry → Prop
  | [] => False
  | entry :: older =>
    match entry.call with
    | .read other result => if other = fd then result = .wouldBlock else blocked fd older
    | .write other _ result => if other = fd then result = .wouldBlock else blocked fd older
    | _ => blocked fd older

structure Settled (fd : Fd) (before after : Loop) : Prop where
  calls : ∃ calls, after.kernel.log = calls ++ before.kernel.log ∧
    (blocked fd calls ∨ (∃ entry ∈ calls, entry.call = .watchWrite fd) ∨
      after.kernel.interest.get fd = none)

/-- Every connection that was waiting has been accepted, and one behind them would have been. -/
structure Drained (results : List AcceptResult) (loop : Loop) : Prop where
  accepted : (acceptConnections results loop).2.kernel.accepted =
    loop.kernel.accepted + (acceptedFds results).length
  further : ∀ more, acceptConnections (results ++ more) loop =
    acceptConnections more (acceptConnections results loop).2

/-- When the handler returns to the loop, no edge is lost. -/
def EdgeKept (platform : Platform) (server : Server) (loop : Loop) : Handling → Prop
  | .accept results => (acceptConnections results loop).1 = true → Drained results loop
  | .read clock fd results => (handleRead platform server clock fd results loop).1 = true →
      Settled fd loop (handleRead platform server clock fd results loop).2
  | .write fd results => Settled fd loop (handleWrite fd results loop).2

/-- No call of `accept` fails, unless a connection before it cannot be set up and ends the
server. -/
def Unfailing : Handling → Prop
  | .accept results => ∀ early late, results = early ++ .failed :: late →
      ∃ fd time, .connected fd time false ∈ early
  | _ => True

section
variable {fd : Fd} {before middle after : Loop}

theorem blocked_append {calls : List Entry} (older : List Entry) (blocks : blocked fd calls) :
    blocked fd (calls ++ older) := by
  induction calls with
  | nil => exact False.elim blocks
  | cons entry calls ih =>
    rw [List.cons_append]
    unfold blocked at blocks ⊢
    cases call : entry.call with
    | read other result =>
      rw [call] at blocks
      by_cases same : other = fd
      · simpa only [if_pos same] using blocks
      · simp only [if_neg same] at blocks ⊢
        exact ih blocks
    | write other data result =>
      rw [call] at blocks
      by_cases same : other = fd
      · simpa only [if_pos same] using blocks
      · simp only [if_neg same] at blocks ⊢
        exact ih blocks
    | _ =>
      rw [call] at blocks
      exact ih blocks

theorem settled_later (grown : ∃ calls, middle.kernel.log = calls ++ before.kernel.log)
    (settled : Settled fd middle after) : Settled fd before after := by
  obtain ⟨early, grown⟩ := grown
  obtain ⟨late, grown', outcome⟩ := settled.calls
  refine ⟨late ++ early, by rw [grown', grown, List.append_assoc], ?_⟩
  rcases outcome with blocks | ⟨entry, member, arms⟩ | removed
  · exact Or.inl (blocked_append early blocks)
  · exact Or.inr (Or.inl ⟨entry, List.mem_append_left _ member, arms⟩)
  · exact Or.inr (Or.inr removed)

theorem settled_finishWrite (loop : Loop) : Settled fd loop (finishWrite fd loop).2 :=
  ⟨[⟨.close fd, _⟩, ⟨.shutdown fd, _⟩, ⟨.unregister fd, _⟩], rfl,
    Or.inr (Or.inr (by simp [finishWrite, issue, removeWrite, Kernel.issue, Kernel.effect,
      Kernel.release]))⟩

theorem settled_abandonWrite (loop : Loop) : Settled fd loop (abandonWrite fd loop).2 :=
  ⟨[⟨.close fd, _⟩, ⟨.unregister fd, _⟩], rfl,
    Or.inr (Or.inr (by simp [abandonWrite, issue, removeWrite, Kernel.issue, Kernel.effect,
      Kernel.release]))⟩

theorem settled_blocked (data : Bytes) (loop : Loop) :
    Settled fd loop (issue (.write fd data .wouldBlock) loop).2 :=
  ⟨[⟨.write fd data .wouldBlock, _⟩], rfl, Or.inl (by simp [blocked])⟩

/-- The write loop goes on until the socket would block, or the descriptor is removed. -/
theorem settled_writeLoop (data : Bytes) (results : List WriteResult) (loop : Loop) :
    Settled fd loop (writeLoop fd data results loop).2 := by
  obtain ⟨middle, wrote, ends⟩ := writeLoop_ends fd data results loop
  apply settled_later wrote.log
  generalize (writeLoop fd data results loop).2 = after at ends
  cases ends with
  | finished => exact settled_finishWrite middle
  | abandoned => exact settled_abandonWrite middle
  | blocked data stays => exact settled_blocked data middle

theorem settled_handleWrite (results : List WriteResult) (loop : Loop) :
    Settled fd loop (handleWrite fd results loop).2 := by
  unfold handleWrite
  cases loop.writeBuffers.get fd with
  | none => exact settled_finishWrite loop
  | some data => exact settled_writeLoop data results loop

theorem answer_log (platform : Platform) (server : Server) (clock : Clock) (loop : Loop) :
    ∃ calls, (answer platform server clock fd loop).2.kernel.log = calls ++ loop.kernel.log ∧
      ∀ older, blocked fd older → blocked fd (calls ++ older) := by
  cases found : loop.readBuffers.get fd with
  | none =>
    rw [answer_no_buffer found]
    exact ⟨[], rfl, fun older => id⟩
  | some data =>
    cases computed : respond platform server clock data loop.world with
    | error panic =>
      rw [answer_panics found computed]
      exact ⟨[⟨.close fd, _⟩], rfl, fun older => id⟩
    | ok reply =>
      cases reply with
      | tooLarge =>
        rw [answer_tooLarge found computed]
        exact ⟨[⟨.watchWrite fd, _⟩], rfl, fun older => id⟩
      | answered response world =>
        rw [answer_answered found computed]
        exact ⟨[⟨.watchWrite fd, _⟩], rfl, fun older => id⟩

/-- The read loop goes on until the socket would block, or the descriptor is removed. -/
theorem settled_handleRead (platform : Platform) (server : Server) (clock : Clock)
    (results : List ReadResult) (loop : Loop) :
    Settled fd loop (handleRead platform server clock fd results loop).2 := by
  obtain ⟨middle, filled, drained⟩ := drain_filled fd results loop
  apply settled_later filled.log
  unfold handleRead
  rw [bind_apply, drained]
  cases ends : ending results with
  | received segment => exact absurd ends (ending_ne_received results segment)
  | closed =>
    exact ⟨[⟨.unregister fd, _⟩, ⟨.read fd .closed, _⟩], rfl,
      Or.inr (Or.inr (HashMap.get_remove_self _ _))⟩
  | failed =>
    refine ⟨[⟨.close fd, _⟩, ⟨.unregister fd, _⟩, ⟨.read fd .failed, _⟩], rfl,
      Or.inr (Or.inr (HashMap.get_remove_self _ _))⟩
  | wouldBlock =>
    obtain ⟨calls, grown, quiet⟩ :=
      answer_log platform server clock (issue (.read fd .wouldBlock) middle).2
    refine ⟨calls ++ [⟨.read fd .wouldBlock, middle.kernel.owner fd⟩], ?_, ?_⟩
    · rw [List.append_assoc]
      exact grown
    · exact Or.inl (quiet _ (by simp [blocked]))

end

/-! Accepting -/

def Ready (results : List AcceptResult) : Prop :=
  ∀ result ∈ results, ∃ fd time, result = .connected fd time true

theorem drained_of_ready {results : List AcceptResult} (ready : Ready results) (loop : Loop) :
    Drained results loop := by
  induction results generalizing loop with
  | nil => exact ⟨rfl, fun more => rfl⟩
  | cons result results ih =>
    obtain ⟨fd, time, isReady⟩ := ready result List.mem_cons_self
    subst isReady
    have rest := ih (fun later member => ready later (List.mem_cons_of_mem _ member))
      (track fd time (issue (.register fd) (issue (.accept fd) loop).2).2).2
    refine ⟨?_, rest.further⟩
    have count : (acceptedFds (.connected fd time true :: results)).length =
      (acceptedFds results).length + 1 := rfl
    rw [count]
    refine rest.accepted.trans ?_
    show loop.kernel.accepted + 1 + _ = _
    omega

theorem accept_failed {early : List AcceptResult} (ready : Ready early)
    (late : List AcceptResult) (loop : Loop) :
    acceptConnections (early ++ .failed :: late) loop =
      (true, (acceptConnections early loop).2) :=
  (drained_of_ready ready loop).further (.failed :: late)

/-- The handler returns to the loop when the connections before a failing call could be set up. -/
theorem ready_of_returns {results : List AcceptResult} {loop : Loop}
    (goesOn : (acceptConnections results loop).1 = true) :
    Ready results ∨ ∃ early late, results = early ++ .failed :: late ∧ Ready early := by
  induction results generalizing loop with
  | nil => exact Or.inl nofun
  | cons result results ih =>
    cases result with
    | failed => exact Or.inr ⟨[], results, rfl, nofun⟩
    | connected fd time ready =>
      cases ready with
      | false => cases goesOn
      | true =>
        rcases ih goesOn with all | ⟨early, late, split, before⟩
        · left
          intro later member
          rcases List.mem_cons.mp member with same | old
          · exact ⟨fd, time, same⟩
          · exact all later old
        · right
          refine ⟨.connected fd time true :: early, late, by rw [split]; rfl, ?_⟩
          intro later member
          rcases List.mem_cons.mp member with same | old
          · exact ⟨fd, time, same⟩
          · exact before later old

theorem first_failed {early : List AcceptResult}
    (setUp : ∀ fd time, .connected fd time false ∉ early) (late : List AcceptResult) :
    ∃ ready rest, early ++ .failed :: late = ready ++ .failed :: rest ∧ Ready ready := by
  induction early with
  | nil => exact ⟨[], late, rfl, nofun⟩
  | cons result early ih =>
    cases result with
    | failed => exact ⟨[], early ++ .failed :: late, rfl, nofun⟩
    | connected fd time isReady =>
      cases isReady with
      | false => exact absurd List.mem_cons_self (setUp fd time)
      | true =>
        obtain ⟨ready, rest, split, before⟩ :=
          ih fun g since member => setUp g since (List.mem_cons_of_mem _ member)
        refine ⟨.connected fd time true :: ready, rest, by rw [List.cons_append, split]; rfl, ?_⟩
        intro later member
        rcases List.mem_cons.mp member with same | old
        · exact ⟨fd, time, same⟩
        · exact before later old

theorem drained_iff (results : List AcceptResult) (loop : Loop) :
    ((acceptConnections results loop).1 = true → Drained results loop) ↔
      Unfailing (.accept results) := by
  constructor
  · intro kept early late split
    by_contra none
    obtain ⟨ready, rest, first, isReady⟩ :=
      first_failed (fun fd time member => none ⟨fd, time, member⟩) late
    rw [← split] at first
    have returns : (acceptConnections results loop).1 = true := by
      rw [first, accept_failed isReady]
    -- a connection behind them that cannot be set up would have ended the server
    have further := (kept returns).further [.connected 0 0 false]
    rw [first, List.append_assoc, List.cons_append, accept_failed isReady] at further
    have ends : true = false := congrArg Prod.fst further
    cases ends
  · intro unfailing goesOn
    rcases ready_of_returns goesOn with ready | ⟨early, late, split, ready⟩
    · exact drained_of_ready ready loop
    · obtain ⟨fd, time, member⟩ := unfailing early late split
      obtain ⟨_, _, same⟩ := ready _ member
      cases same

/-- Reading and writing always keep the edge, and accepting does exactly when no call of
`accept` fails. -/
theorem edgeKept_iff (platform : Platform) (server : Server) (loop : Loop) (handling : Handling) :
    EdgeKept platform server loop handling ↔ Unfailing handling := by
  cases handling with
  | accept results => exact drained_iff results loop
  | read clock fd results =>
    apply iff_of_true
    · exact fun goesOn => settled_handleRead platform server clock results loop
    · trivial
  | write fd results => exact iff_of_true (settled_handleWrite results loop) trivial

/-- A connection waits behind one that was given up before it was accepted. -/
theorem edge_lost :
    ¬∀ (platform : Platform) (server : Server) (loop : Loop) (handling : Handling),
      EdgeKept platform server loop handling := by
  intro kept
  have drained : Drained [.failed, .connected 7 0 true] webListening :=
    kept Handler.quietPlatform webServer webListening (.accept [.failed, .connected 7 0 true]) rfl
  have waits : (acceptConnections [.failed, .connected 7 0 true] webListening).2.kernel.accepted =
    0 := rfl
  have all := drained.accepted
  rw [waits] at all
  cases all

end LocalServer.Edges
