import LocalServer.Watching
import LocalServer.Library.Exchange

/-! The loop serves every connection as the abstract exchange: it answers once, with a reply to
what it had read, and sends that reply and nothing else, whatever the other connections do. -/

namespace LocalServer.Exchanges
open Library Action Utf8 Server Loop Footprint Handling Isolation Watching

structure Idle (loop : Loop) (fd : Fd) : Prop where
  reads : loop.readBuffers.get fd = none
  writes : loop.writeBuffers.get fd = none

/-- The state of one connection, read off the loop. -/
inductive Corresponds (loop : Loop) (connection : Nat) : Exchange UInt8 → Prop where
  | unopened (new : loop.kernel.accepted ≤ connection)
      (sent : delivered connection loop.kernel.log = [])
      (whole : ¬ShutDown connection loop.kernel.log) : Corresponds loop connection .unopened
  | listening {fd : Fd} (named : loop.kernel.owner fd = some connection)
      (reads : loop.readBuffers.get fd = some (loop.kernel.received connection))
      (writes : loop.writeBuffers.get fd = none)
      (sent : delivered connection loop.kernel.log = [])
      (whole : ¬ShutDown connection loop.kernel.log) :
      Corresponds loop connection (.listening (loop.kernel.received connection))
  | answering {fd : Fd} {received left : Bytes} (named : loop.kernel.owner fd = some connection)
      (early : received <+: loop.kernel.received connection)
      (writes : loop.writeBuffers.get fd = some left)
      (whole : ¬ShutDown connection loop.kernel.log) :
      Corresponds loop connection
        (.answering received (delivered connection loop.kernel.log) left)
  /-- A descriptor can stay open after the other side has closed; nothing is kept for it. -/
  | ended {received left : Bytes} (old : connection < loop.kernel.accepted)
      (early : received <+: loop.kernel.received connection)
      (whole : ShutDown connection loop.kernel.log → left = [])
      (idle : loop.phase ≠ .stopped → ∀ fd, loop.kernel.owner fd = some connection →
        Idle loop fd ∧ left = []) :
      Corresponds loop connection (.ended received (delivered connection loop.kernel.log) left)

/-- Each connection makes steps of its exchange, or none. -/
def Simulates (gives : Nat → Bytes → Bytes → Prop) (before after : Loop) : Prop :=
  ∀ connection exchange, Corresponds before connection exchange →
    ∃ exchange', Exchange.Run (gives connection) exchange exchange' ∧
      Corresponds after connection exchange'

section
variable {gives : Nat → Bytes → Bytes → Prop} {loop before after : Loop} {fd : Fd}
  {connection : Nat}

instance (gives : Nat → Bytes → Bytes → Prop) : Std.Refl (Simulates gives) :=
  ⟨fun _ _ exchange corresponds => ⟨exchange, .refl, corresponds⟩⟩

instance (gives : Nat → Bytes → Bytes → Prop) : IsTrans Loop (Simulates gives) where
  trans _ _ _ early late := by
    intro connection exchange corresponds
    obtain ⟨exchange', run, corresponds'⟩ := early connection exchange corresponds
    obtain ⟨exchange'', run', corresponds''⟩ := late connection exchange' corresponds'
    exact ⟨exchange'', run.trans run', corresponds''⟩

structure Aside (connection : Nat) (before after : Loop) : Prop where
  owner : ∀ fd, after.kernel.owner fd = some connection ↔
    before.kernel.owner fd = some connection
  reads : ∀ fd, before.kernel.owner fd = some connection →
    after.readBuffers.get fd = before.readBuffers.get fd
  writes : ∀ fd, before.kernel.owner fd = some connection →
    after.writeBuffers.get fd = before.writeBuffers.get fd
  received : after.kernel.received connection = before.kernel.received connection
  wire : Untouched connection before.kernel.log after.kernel.log
  accepted : connection < after.kernel.accepted ↔ connection < before.kernel.accepted
  running : after.phase ≠ .stopped → before.phase ≠ .stopped

theorem Aside.corresponds {exchange : Exchange UInt8} (aside : Aside connection before after)
    (corresponds : Corresponds before connection exchange) :
    Corresponds after connection exchange := by
  have sent := aside.wire.delivered
  cases corresponds with
  | unopened new none whole =>
    refine .unopened ?_ (sent.trans none) fun shut => whole (aside.wire.shutDown shut)
    exact Nat.le_of_not_lt fun old => absurd (aside.accepted.mp old) (Nat.not_lt_of_le new)
  | @listening fd named reads writes none whole =>
    rw [← aside.received]
    refine .listening ((aside.owner fd).mpr named) ?_ ?_ (sent.trans none)
      fun shut => whole (aside.wire.shutDown shut)
    · rw [aside.reads fd named, reads, aside.received]
    · rw [aside.writes fd named, writes]
  | @answering fd received left named early writes whole =>
    rw [← sent]
    refine .answering ((aside.owner fd).mpr named) ?_ ?_
      fun shut => whole (aside.wire.shutDown shut)
    · rwa [aside.received]
    · rw [aside.writes fd named, writes]
  | @ended received left old early whole idle =>
    rw [← sent]
    refine .ended (aside.accepted.mpr old) ?_ (fun shut => whole (aside.wire.shutDown shut)) ?_
    · rwa [aside.received]
    · intro running fd named
      have named := (aside.owner fd).mp named
      obtain ⟨unused, complete⟩ := idle (aside.running running) fd named
      refine ⟨⟨?_, ?_⟩, complete⟩
      · rw [aside.reads fd named, unused.reads]
      · rw [aside.writes fd named, unused.writes]

/-- What is done on a descriptor leaves the connections aside that are not open on it. -/
theorem aside_served (other : before.kernel.owner fd ≠ some connection)
    (apart : Apart fd before after) (beside : Beside fd before after)
    (running : after.phase ≠ .stopped → before.phase ≠ .stopped) :
    Aside connection before after := by
  have different : ∀ g, before.kernel.owner g = some connection → g ≠ fd := by
    intro g named same
    rw [same] at named
    exact other named
  refine ⟨?_, ?_, ?_, beside.received connection other, beside.wire connection other, ?_, running⟩
  · intro g
    by_cases same : g = fd
    · subst same
      exact ⟨beside.owner connection, fun named => absurd named other⟩
    · rw [apart.owner g same]
  · exact fun g named => apart.reads g (different g named)
  · exact fun g named => apart.writes g (different g named)
  · rw [apart.accepted]

theorem simulates_of_same (kernel : after.kernel = before.kernel)
    (reads : after.readBuffers = before.readBuffers)
    (writes : after.writeBuffers = before.writeBuffers)
    (running : after.phase ≠ .stopped → before.phase ≠ .stopped) :
    Simulates gives before after := by
  intro connection exchange corresponds
  have aside : Aside connection before after := by
    refine ⟨?_, ?_, ?_, ?_, ?_, ?_, running⟩
    · exact fun fd => by rw [kernel]
    · exact fun fd _ => by rw [reads]
    · exact fun fd _ => by rw [writes]
    · rw [kernel]
    · rw [kernel]
      exact .refl _
    · rw [kernel]
  exact ⟨exchange, .refl, aside.corresponds corresponds⟩

/-- What is done on a descriptor is right if it is right for the connection open on it. -/
theorem simulates_served (apart : Apart fd before after) (beside : Beside fd before after)
    (running : after.phase ≠ .stopped → before.phase ≠ .stopped)
    (served : ∀ connection exchange, before.kernel.owner fd = some connection →
      Corresponds before connection exchange →
      ∃ exchange', Exchange.Run (gives connection) exchange exchange' ∧
        Corresponds after connection exchange') : Simulates gives before after := by
  intro connection exchange corresponds
  by_cases named : before.kernel.owner fd = some connection
  · exact served connection exchange named corresponds
  · exact ⟨exchange, .refl, (aside_served named apart beside running).corresponds corresponds⟩

theorem named_served (named : before.kernel.owner fd = some connection)
    (apart : Apart fd before after) {g : Fd} (later : after.kernel.owner g = some connection) :
    g = fd := by
  by_contra different
  rw [apart.owner g different] at later
  exact different (before.kernel.single g fd connection later named)

end

section
variable {gives : Nat → Bytes → Bytes → Prop} {platform : Platform} {server : Server}
  {clock : Clock} {loop after : Loop} {fd : Fd}
  {connection : Nat} {results : List ReadResult}

theorem served_queued {received bytes : Bytes} {reply : Reply}
    (named : loop.kernel.owner fd = some connection)
    (none : delivered connection loop.kernel.log = [])
    (whole : ¬ShutDown connection loop.kernel.log)
    (here : received = loop.kernel.received connection)
    (receives : Receives connection bytes loop after)
    (given : gives connection (received ++ bytes) reply.response.serializeResponse)
    (queued : Queued fd reply.response.serializeResponse loop after) :
    ∃ exchange, Exchange.Run (gives connection) (.listening received) exchange ∧
      Corresponds after connection exchange := by
  have sent : delivered connection after.kernel.log = [] := receives.wire.delivered.trans none
  refine ⟨.answering (received ++ bytes) [] reply.response.serializeResponse,
    (Exchange.run_receive received bytes).tail (.answer given), ?_⟩
  rw [← sent]
  refine .answering (queued.owner.trans named) ?_ queued.writes
    fun shut => whole (receives.wire.shutDown shut)
  rw [receives.received, here]

theorem served_hungUp {received bytes : Bytes} (named : loop.kernel.owner fd = some connection)
    (none : delivered connection loop.kernel.log = [])
    (here : received = loop.kernel.received connection)
    (receives : Receives connection bytes loop after) (apart : Apart fd loop after)
    (idle : after.kernel.owner fd = some connection → Idle after fd) :
    ∃ exchange, Exchange.Run (gives connection) (.listening received) exchange ∧
      Corresponds after connection exchange := by
  have sent : delivered connection after.kernel.log = [] := receives.wire.delivered.trans none
  have ended : Corresponds after connection
      (.ended (received ++ bytes) (delivered connection after.kernel.log) []) := by
    refine .ended ?_ ?_ (fun _ => rfl) ?_
    · rw [apart.accepted]
      exact loop.kernel.numbered fd connection named
    · rw [receives.received, here]
    · intro running g later
      have same := named_served named apart later
      subst same
      exact ⟨idle later, rfl⟩
  rw [sent] at ended
  exact ⟨_, (Exchange.run_receive received bytes).tail .hangUp, ended⟩

theorem served_idle {received left bytes : Bytes} (old : connection < loop.kernel.accepted)
    (early : received <+: loop.kernel.received connection)
    (whole : ShutDown connection loop.kernel.log → left = []) (complete : left = [])
    (named : loop.kernel.owner fd = some connection)
    (receives : Receives connection bytes loop after) (apart : Apart fd loop after)
    (idle : after.kernel.owner fd = some connection → Idle after fd) :
    Corresponds after connection
      (.ended received (delivered connection loop.kernel.log) left) := by
  rw [← receives.wire.delivered]
  refine .ended ?_ ?_ (fun shut => whole (receives.wire.shutDown shut)) ?_
  · rwa [apart.accepted]
  · rw [receives.received]
    exact early.trans (List.prefix_append _ _)
  · intro running g later
    have same := named_served named apart later
    subst same
    exact ⟨idle later, complete⟩

theorem simulates_handleRead (running : loop.phase ≠ .stopped)
    (answered : loop.writeBuffers.get fd = none)
    (gave : ∀ connection received reply,
      (handleRead platform server clock fd results loop).1 = true →
      loop.kernel.owner fd = some connection →
      (handleRead platform server clock fd results loop).2.kernel.received connection = received →
      respond platform server clock received loop.world = .ok reply →
      (handleRead platform server clock fd results loop).2.writeBuffers.get fd =
        some reply.response.serializeResponse →
      gives connection received reply.response.serializeResponse) :
    Simulates gives loop (handleRead platform server clock fd results loop).2 := by
  have apart : Apart fd loop (handleRead platform server clock fd results loop).2 :=
    apart_operations.handleRead platform server clock results loop
  have beside := (beside_operations fd).handleRead platform server clock results loop
  apply simulates_served apart beside (fun _ => running)
  intro connection exchange named corresponds
  have receives := receives_handleRead platform server clock results named
  have ends := read_ends platform server clock fd results loop
  generalize handleRead platform server clock fd results loop = both at *
  obtain ⟨goesOn, after⟩ := both
  cases corresponds with
  | unopened new => exact absurd (loop.kernel.numbered fd connection named) (Nat.not_lt_of_le new)
  | @answering g received left elsewhere early writes whole =>
    rw [loop.kernel.single g fd connection elsewhere named, answered] at writes
    cases writes
  | @listening g elsewhere reads writes none whole =>
    rw [loop.kernel.single g fd connection elsewhere named] at reads
    cases ends with
    | gone ends reads' writes' interest world =>
      exact served_hungUp named none rfl receives apart fun _ => ⟨reads', writes'⟩
    | ignored ends unread => cases unread.symm.trans reads
    | refused ends found computed kept queued world =>
      cases found.symm.trans reads
      have given := gave connection _ _ rfl named receives.received computed queued.writes
      exact served_queued named none whole rfl receives given queued
    | answered ends found computed released queued =>
      cases found.symm.trans reads
      have given := gave connection _ _ rfl named receives.received computed queued.writes
      exact served_queued named none whole rfl receives given queued
    | panicked ends found computed closed world =>
      apply served_hungUp named none rfl receives apart
      intro later
      cases closed.symm.trans later
  | @ended received left old early whole idle =>
    obtain ⟨unused, complete⟩ := idle running fd named
    refine ⟨_, .refl, served_idle old early whole complete named receives apart fun later => ?_⟩
    cases ends with
    | gone ends reads writes => exact ⟨reads, writes⟩
    | ignored ends unread reads writes => exact ⟨reads, writes.trans unused.writes⟩
    | refused ends found | answered ends found | panicked ends found =>
      cases found.symm.trans unused.reads

end

section
variable {gives : Nat → Bytes → Bytes → Prop} {loop : Loop} {fd : Fd}

theorem simulates_handleWrite (running : loop.phase ≠ .stopped) (results : List WriteResult) :
    Simulates gives loop (handleWrite fd results loop).2 := by
  have apart : Apart fd loop (handleWrite fd results loop).2 :=
    apart_operations.handleWrite results loop
  have beside := (beside_operations fd).handleWrite results loop
  apply simulates_served apart beside (fun _ => running)
  intro connection exchange named corresponds
  have ends := end_handleWrite results named
  generalize (handleWrite fd results loop).2 = after at *
  have old : connection < after.kernel.accepted := by
    rw [apart.accepted]
    exact loop.kernel.numbered fd connection named
  have closed : ∀ received left, received <+: loop.kernel.received connection →
      after.kernel.owner fd = none → after.kernel.received = loop.kernel.received →
      (ShutDown connection after.kernel.log → left = []) →
      Corresponds after connection
        (.ended received (delivered connection after.kernel.log) left) := by
    intro received left early gone same whole
    refine .ended old (by rwa [same]) whole ?_
    intro running g later
    rw [named_served named apart later, gone] at later
    cases later
  cases corresponds with
  | unopened new => exact absurd (loop.kernel.numbered fd connection named) (Nat.not_lt_of_le new)
  | @listening g elsewhere reads writes none whole =>
    rw [loop.kernel.single g fd connection elsewhere named] at writes
    rw [writes, Option.getD_none] at ends
    cases ends with
    | closed taken rest split sends gone interest released shut =>
      obtain ⟨nothing, complete⟩ := List.append_eq_nil_iff.mp split.symm
      have sent : delivered connection after.kernel.log = [] := by
        rw [sends.delivered, none, nothing, List.append_nil]
      have ended := closed (loop.kernel.received connection) [] (List.prefix_refl _) gone
        sends.received fun _ => rfl
      rw [sent] at ended
      exact ⟨_, .single .hangUp, ended⟩
    | waiting taken rest split remains =>
      exact absurd (List.append_eq_nil_iff.mp split.symm).2 remains
  | @answering g received left elsewhere early writes whole =>
    rw [loop.kernel.single g fd connection elsewhere named] at writes
    rw [writes, Option.getD_some] at ends
    cases ends with
    | closed taken rest split sends gone interest released shut =>
      refine ⟨.ended received (delivered connection loop.kernel.log ++ taken) rest,
        (Exchange.run_send taken split).tail .close, ?_⟩
      rw [← sends.delivered]
      exact closed _ _ early gone sends.received fun later => (shut later).resolve_left whole
    | waiting taken rest split remains sends owner interest writes shut =>
      refine ⟨.answering received (delivered connection loop.kernel.log ++ taken) rest,
        Exchange.run_send taken split, ?_⟩
      rw [← sends.delivered]
      refine .answering (owner.trans named) ?_ writes fun later => whole (shut later)
      rwa [sends.received]
  | @ended received left older early whole idle =>
    obtain ⟨unused, complete⟩ := idle running fd named
    rw [unused.writes, Option.getD_none] at ends
    cases ends with
    | closed taken rest split sends gone interest released shut =>
      have same : delivered connection after.kernel.log = delivered connection loop.kernel.log := by
        rw [sends.delivered, (List.append_eq_nil_iff.mp split.symm).1, List.append_nil]
      refine ⟨_, .refl, ?_⟩
      rw [← same]
      exact closed _ _ early gone sends.received fun _ => complete
    | waiting taken rest split remains =>
      exact absurd (List.append_eq_nil_iff.mp split.symm).2 remains

end

section
variable {gives : Nat → Bytes → Bytes → Prop} {loop : Loop} {fd : Fd} {connection : Nat}

theorem corresponds_ended {after : Loop} {exchange : Exchange UInt8}
    (corresponds : Corresponds loop connection exchange)
    (opened : connection < loop.kernel.accepted) (silent : Silent connection loop after)
    (accepted : after.kernel.accepted = loop.kernel.accepted)
    (gone : after.phase ≠ .stopped → ∀ g, after.kernel.owner g ≠ some connection) :
    ∃ exchange', Exchange.Run (gives connection) exchange exchange' ∧
      Corresponds after connection exchange' := by
  have received := silent.received
  rw [List.append_nil] at received
  have ended : ∀ bytes left, bytes <+: loop.kernel.received connection →
      (ShutDown connection loop.kernel.log → left = []) →
      Corresponds after connection (.ended bytes (delivered connection loop.kernel.log) left) := by
    intro bytes left early whole
    rw [← silent.wire.delivered]
    refine .ended (by rwa [accepted]) (by rwa [received])
      (fun shut => whole (silent.wire.shutDown shut)) ?_
    exact fun running g named => absurd named (gone running g)
  cases corresponds with
  | unopened new => exact absurd opened (Nat.not_lt_of_le new)
  | listening named reads writes none whole =>
    have ends := ended (loop.kernel.received connection) [] (List.prefix_refl _)
      fun shut => absurd shut whole
    rw [none] at ends
    exact ⟨_, .single .hangUp, ends⟩
  | @answering g received left named early writes whole =>
    exact ⟨_, .single .close, ended received left early fun shut => absurd shut whole⟩
  | @ended received left old early whole idle => exact ⟨_, .refl, ended received left early whole⟩

theorem simulates_closeOne (fd : Fd) (loop : Loop) :
    Simulates gives loop (closeOne fd loop) := by
  have apart := apart_closeOne fd loop
  apply simulates_served apart (beside_closeOne fd loop) id
  intro connection exchange named corresponds
  apply corresponds_ended corresponds (loop.kernel.numbered fd connection named)
    (silent_closeOne fd loop) apart.accepted
  intro running g later
  rw [named_served named apart later, owner_closeOne] at later
  cases later

theorem simulates_leave (loop : Loop) : Simulates gives loop loop.leave := by
  intro connection exchange corresponds
  by_cases opened : connection < loop.kernel.accepted
  · have silent : Silent connection loop loop.leave := silent_of_kernel rfl
    exact corresponds_ended corresponds opened silent rfl fun running => absurd rfl running
  · cases corresponds with
    | unopened new none whole => exact ⟨_, .refl, .unopened new none whole⟩
    | listening named | answering named =>
      exact absurd (loop.kernel.numbered _ connection named) opened
    | ended old => exact absurd old opened

/-! The accepts -/

theorem unopened_next {exchange : Exchange UInt8}
    (corresponds : Corresponds loop loop.kernel.accepted exchange) : exchange = .unopened := by
  cases corresponds with
  | unopened => rfl
  | listening named | answering named =>
    exact absurd (loop.kernel.numbered _ _ named) (Nat.lt_irrefl _)
  | ended old => exact absurd old (Nat.lt_irrefl _)

/-- A connection that is accepted and kept or dropped leaves those before it aside. -/
theorem aside_accepted {after : Loop} (unused : loop.kernel.owner fd = none)
    (other : connection ≠ loop.kernel.accepted)
    (owner : ∀ g, g ≠ fd → after.kernel.owner g = loop.kernel.owner g)
    (named : after.kernel.owner fd ≠ some connection)
    (reads : ∀ g, g ≠ fd → after.readBuffers.get g = loop.readBuffers.get g)
    (writes : after.writeBuffers = loop.writeBuffers)
    (received : after.kernel.received =
      Function.update loop.kernel.received loop.kernel.accepted [])
    (wire : Untouched connection loop.kernel.log after.kernel.log)
    (accepted : after.kernel.accepted = loop.kernel.accepted + 1)
    (phase : after.phase = loop.phase) : Aside connection loop after := by
  have different : ∀ g, loop.kernel.owner g = some connection → g ≠ fd := by
    intro g named same
    rw [same, unused] at named
    cases named
  refine ⟨?_, ?_, ?_, ?_, wire, ?_, by rw [phase]; exact id⟩
  · intro g
    by_cases same : g = fd
    · subst same
      exact ⟨fun later => absurd later named, fun early => absurd rfl (different g early)⟩
    · rw [owner g same]
  · exact fun g early => reads g (different g early)
  · exact fun g _ => by rw [writes]
  · rw [received, Function.update_of_ne other]
  · rw [accepted]
    omega

theorem simulates_opened (time : Nat) (unused : loop.kernel.owner fd = none)
    (released : loop.writeBuffers.get fd = none) :
    Simulates gives loop (opened fd time loop) := by
  intro connection exchange corresponds
  have wire : ∀ connection, Untouched connection loop.kernel.log
      (opened fd time loop).kernel.log := by
    intro connection
    have first : Untouched connection loop.kernel.log (loop.kernel.issue (.accept fd)).log :=
      untouched_cons loop.kernel.log (Or.inr trivial)
    exact first.trans (untouched_cons _ (Or.inr trivial))
  have named : (opened fd time loop).kernel.owner fd = some loop.kernel.accepted := by
    rw [owner_opened, if_pos rfl]
  by_cases next : connection = loop.kernel.accepted
  · subst next
    have isNew := unopened_next corresponds
    subst isNew
    cases corresponds with
    | unopened new none whole =>
      have received : (opened fd time loop).kernel.received loop.kernel.accepted = [] :=
        Function.update_self _ _ _
      have reads : (opened fd time loop).readBuffers.get fd = some [] :=
        HashMap.get_insert_self _ _ _
      have listens : Corresponds (opened fd time loop) loop.kernel.accepted
          (.listening ((opened fd time loop).kernel.received loop.kernel.accepted)) := by
        refine .listening named ?_ released ((wire _).delivered.trans none)
          fun shut => whole ((wire _).shutDown shut)
        rw [reads, received]
      rw [received] at listens
      exact ⟨_, .single .accept, listens⟩
  · have others : ∀ g, g ≠ fd →
        (opened fd time loop).kernel.owner g = loop.kernel.owner g := by
      intro g different
      rw [owner_opened, if_neg different]
    have another : (opened fd time loop).kernel.owner fd ≠ some connection := by
      rw [named]
      exact fun same => next (Option.some.inj same).symm
    have reads : ∀ g, g ≠ fd →
        (opened fd time loop).readBuffers.get g = loop.readBuffers.get g :=
      fun g different => HashMap.get_insert_of_ne _ _ _ _ different
    have aside : Aside connection loop (opened fd time loop) :=
      aside_accepted unused next others another reads rfl rfl (wire connection) rfl rfl
    exact ⟨exchange, .refl, aside.corresponds corresponds⟩

theorem simulates_dropped (unused : loop.kernel.owner fd = none) :
    Simulates gives loop (dropped fd loop) := by
  intro connection exchange corresponds
  have wire : ∀ connection, Untouched connection loop.kernel.log (dropped fd loop).kernel.log := by
    intro connection
    have first : Untouched connection loop.kernel.log (loop.kernel.issue (.accept fd)).log :=
      untouched_cons loop.kernel.log (Or.inr trivial)
    exact first.trans (untouched_cons _ (Or.inr trivial))
  have closed : (dropped fd loop).kernel.owner fd = none := by rw [owner_dropped, if_pos rfl]
  have others : ∀ g, g ≠ fd → (dropped fd loop).kernel.owner g = loop.kernel.owner g := by
    intro g different
    rw [owner_dropped, if_neg different]
  by_cases next : connection = loop.kernel.accepted
  · subst next
    have isNew := unopened_next corresponds
    subst isNew
    cases corresponds with
    | unopened new none whole =>
      have ended : Corresponds (dropped fd loop) loop.kernel.accepted
          (.ended [] (delivered loop.kernel.accepted (dropped fd loop).kernel.log) []) := by
        refine .ended (Nat.lt_succ_self _) List.nil_prefix (fun _ => rfl) ?_
        intro running g named
        by_cases same : g = fd
        · rw [same, closed] at named
          cases named
        · rw [others g same] at named
          exact absurd (loop.kernel.numbered g _ named) (Nat.lt_irrefl _)
      rw [(wire _).delivered, none] at ended
      exact ⟨_, (Relation.ReflTransGen.single .accept).tail .hangUp, ended⟩
  · have another : (dropped fd loop).kernel.owner fd ≠ some connection := by
      rw [closed]
      nofun
    have aside : Aside connection loop (dropped fd loop) :=
      aside_accepted unused next others another (fun _ _ => rfl) rfl rfl (wire connection) rfl rfl
    exact ⟨exchange, .refl, aside.corresponds corresponds⟩

theorem simulates_acceptConnections (results : List AcceptResult)
    (distinct : (acceptedFds results).Nodup)
    (unused : ∀ g ∈ acceptedFds results, loop.kernel.owner g = none)
    (released : ∀ g ∈ acceptedFds results, loop.writeBuffers.get g = none) :
    Simulates gives loop (acceptConnections results loop).2 := by
  induction results generalizing loop with
  | nil => exact Std.Refl.refl loop
  | cons result results ih =>
    cases result with
    | failed => exact Std.Refl.refl loop
    | connected fd time ready =>
      have here := unused fd List.mem_cons_self
      cases ready with
      | false => exact simulates_dropped here
      | true =>
        obtain ⟨fresh, distinct⟩ := List.nodup_cons.mp distinct
        have still : ∀ g ∈ acceptedFds results, (opened fd time loop).kernel.owner g = none := by
          intro g member
          have different : g ≠ fd := by
            intro same
            rw [same] at member
            exact fresh member
          rw [owner_opened, if_neg different]
          exact unused g (List.mem_cons_of_mem _ member)
        have rest := ih distinct still fun g member => released g (List.mem_cons_of_mem _ member)
        exact IsTrans.trans _ _ _
          (simulates_opened time here (released fd List.mem_cons_self)) rest

end

/-- A descriptor that is watched for writing is reported as writable, also when the other side
has gone. -/
def ReportsWritable (loop : Loop) : Label → Prop
  | .wait _ events _ => ∀ event ∈ events,
      loop.kernel.interest.get event.fd = some .writable → event.writable = true
  | _ => True

def Ordinary (loop : Loop) (label : Label) : Prop :=
  ClosedFails loop label ∧ ReportsWritable loop label

structure Clear (listener : Fd) (events : List Event) (loop : Loop) : Prop where
  distinct : (events.map Event.fd).Nodup
  answered : ∀ event ∈ events, event.fd ≠ listener → event.writable = false →
    loop.writeBuffers.get event.fd = none

def Released (before after : Loop) : Prop :=
  ∀ fd, before.writeBuffers.get fd = none → after.writeBuffers.get fd = none

instance : Std.Refl Released := ⟨fun _ _ => id⟩

instance : IsTrans Loop Released where
  trans _ _ _ early late := fun fd none => late fd (early fd none)

theorem released_closeTimedOut (timedOut : List Fd) : Keeps Released (closeTimedOut timedOut) := by
  apply keeps_closeTimedOut
  intro served loop fd none
  by_cases same : fd = served
  · subst same
    exact HashMap.get_remove_self _ _
  · rwa [(apart_closeOne served loop).writes fd same]

theorem released_acceptConnections (results : List AcceptResult) :
    Keeps Released (acceptConnections results) :=
  keeps_acceptConnections (fun _ _ _ _ => id) (fun _ _ _ => id) results

section
variable {listener : Fd} {before after : Loop}

theorem clear_reported {events : List Event} (armed : ∀ fd, Armed before fd)
    (distinct : (events.map Event.fd).Nodup)
    (reports : ∀ event ∈ events,
      before.kernel.interest.get event.fd = some .writable → event.writable = true) :
    Clear listener events before := by
  refine ⟨distinct, ?_⟩
  intro event member isClient readable
  cases waits : before.writeBuffers.get event.fd with
  | none => rfl
  | some reply =>
    have watched : before.kernel.interest.get event.fd = some .writable := by
      rw [(armed event.fd).interest, needed_waiting waits]
    cases readable.symm.trans (reports event member watched)

theorem clear_released {events : List Event} (clear : Clear listener events before)
    (released : Released before after) : Clear listener events after :=
  ⟨clear.distinct, fun event member isClient readable =>
    released event.fd (clear.answered event member isClient readable)⟩

theorem clear_tail {event : Event} {rest : List Event}
    (clear : Clear listener (event :: rest) before) : Clear listener rest before :=
  ⟨(List.nodup_cons.mp clear.distinct).2, fun other member =>
    clear.answered other (List.mem_cons_of_mem _ member)⟩

theorem clear_apart {event : Event} {rest : List Event}
    (clear : Clear listener (event :: rest) before) (apart : Apart event.fd before after) :
    Clear listener rest after := by
  obtain ⟨fresh, distinct⟩ := List.nodup_cons.mp clear.distinct
  refine ⟨distinct, ?_⟩
  intro other member isClient readable
  have different : other.fd ≠ event.fd := by
    intro same
    exact fresh (same ▸ List.mem_map_of_mem member)
  rw [apart.writes _ different]
  exact clear.answered other (List.mem_cons_of_mem _ member) isClient readable

structure Served (listener : Fd) (loop : Loop) : Prop where
  armed : loop.phase ≠ .stopped → ∀ fd, Armed loop fd
  batch : ∀ events, loop.phase = .dispatching events → Clear listener events loop

theorem clear_continueWith {goesOn : Bool} {rest : List Event}
    (clear : goesOn = true → Clear listener rest after) :
    ∀ events, (continueWith goesOn rest after).phase = .dispatching events →
      Clear listener events (continueWith goesOn rest after) := by
  intro events dispatching
  cases goesOn with
  | false => cases dispatching
  | true =>
    cases dispatching
    exact ⟨(clear rfl).distinct, (clear rfl).answered⟩

end

def SamePhase (before after : Loop) : Prop := after.phase = before.phase

instance : Std.Refl SamePhase := ⟨fun _ => rfl⟩

instance : IsTrans Loop SamePhase where
  trans _ _ _ early late := Eq.trans late early

theorem samePhase_operations (fd : Fd) : Operations fd SamePhase where
  issue := fun _ _ _ _ => rfl
  removeRead := fun _ => rfl
  removeWrite := fun _ => rfl
  setWrite := fun _ _ => rfl
  extendRead := by
    intro segment loop
    unfold extendRead
    cases loop.readBuffers.get fd with
    | none => exact Std.Refl.refl loop
    | some data => exact rfl
  world := fun _ _ => rfl

/-! The loop -/

section
variable {gives : Nat → Bytes → Bytes → Prop} {platform : Platform} {server : Server} {listener : Fd}

theorem step_served {before after : Loop} {label : Label} (served : Served listener before)
    (ordinary : Ordinary before label)
    (step : Step platform server listener before label after) : Served listener after := by
  refine ⟨step_armed served.armed ordinary.1 step, ?_⟩
  cases step with
  | @wait now events timedOut phase reported distinct bounded each expired =>
    intro events' dispatching
    cases dispatching
    have armed := served.armed (by rw [phase]; nofun)
    have reported : Clear listener events before := clear_reported armed distinct ordinary.2
    have clear := clear_released reported (released_closeTimedOut timedOut before)
    exact ⟨clear.distinct, clear.answered⟩
  | waitFailed phase => nofun
  | @accept event rest results phase isListener fresh =>
    apply clear_continueWith
    exact fun _ => clear_released (clear_tail (served.batch _ phase))
      (released_acceptConnections results before)
  | @write event rest results phase isClient writable =>
    apply clear_continueWith
    exact fun _ => clear_apart (served.batch _ phase) (apart_write event results before)
  | @read event rest results clock phase isClient readable =>
    apply clear_continueWith
    exact fun _ => clear_apart (served.batch _ phase)
      (apart_read platform server clock event results before)
  | again phase => nofun
  | other =>
    intro events dispatching
    have clear := served.batch events dispatching
    exact ⟨clear.distinct, clear.answered⟩

theorem simulates_continueWith (goesOn : Bool) (rest : List Event) {loop : Loop}
    (running : loop.phase ≠ .stopped) :
    Simulates gives loop (continueWith goesOn rest loop) := by
  cases goesOn with
  | true => exact simulates_of_same rfl rfl rfl fun _ => running
  | false => exact simulates_leave loop

theorem simulates_dispatched (event : Event) {loop : Loop} (running : loop.phase ≠ .stopped) :
    Simulates gives loop (dispatched event loop) := by
  intro connection exchange corresponds
  have wire : Untouched connection loop.kernel.log (dispatched event loop).kernel.log :=
    untouched_cons loop.kernel.log (Or.inr trivial)
  have aside : Aside connection loop (dispatched event loop) :=
    ⟨fun _ => Iff.rfl, fun _ _ => rfl, fun _ _ => rfl, rfl, wire, Iff.rfl, fun _ => running⟩
  exact ⟨exchange, .refl, aside.corresponds corresponds⟩

theorem simulates_wait {before : Loop} (timedOut : List Fd) (events : List Event)
    (phase : before.phase = .waiting) :
    Simulates gives before
      { (closeTimedOut timedOut before).2 with phase := .dispatching events } := by
  have closes : Keeps (Simulates gives) (closeTimedOut timedOut) :=
    keeps_closeTimedOut simulates_closeOne timedOut
  have samePhase : Keeps SamePhase (closeTimedOut timedOut) :=
    keeps_closeTimedOut (fun _ _ => rfl) timedOut
  have waiting : (closeTimedOut timedOut before).2.phase ≠ .stopped := by
    rw [samePhase before, phase]
    nofun
  have dispatches : Simulates gives (closeTimedOut timedOut before).2
      { (closeTimedOut timedOut before).2 with phase := .dispatching events } :=
    simulates_of_same rfl rfl rfl fun _ => waiting
  exact IsTrans.trans _ _ _ (closes before) dispatches

theorem simulates_accept {before : Loop} {results : List AcceptResult} (rest : List Event)
    (running : before.phase ≠ .stopped) (armed : ∀ fd, Armed before fd)
    (fresh : before.Fresh listener results) :
    Simulates gives before
      (continueWith (acceptConnections results before).1 rest
        (acceptConnections results before).2) := by
  have samePhase : Keeps SamePhase (acceptConnections results) :=
    keeps_acceptConnections (fun _ _ _ => rfl) (fun _ _ => rfl) results
  have released : ∀ g ∈ acceptedFds results, before.writeBuffers.get g = none :=
    fun g member => (armed g).opened (fresh.unused g member).2
  have accepts : Simulates gives before (acceptConnections results before).2 :=
    simulates_acceptConnections results fresh.distinct
      (fun g member => (fresh.unused g member).2) released
  have still : (acceptConnections results before).2.phase ≠ .stopped := by rwa [samePhase before]
  exact IsTrans.trans _ _ _ accepts (simulates_continueWith _ rest still)

theorem simulates_write {before : Loop} (event : Event) (rest : List Event)
    (results : List WriteResult) (running : before.phase ≠ .stopped) :
    Simulates gives before
      (continueWith true rest
        (removeTime event.fd (handleWrite event.fd results (dispatched event before)).2).2) := by
  let written := (handleWrite event.fd results (dispatched event before)).2
  have samePhase : written.phase = before.phase :=
    (samePhase_operations event.fd).handleWrite results (dispatched event before)
  have notes : Simulates gives before (dispatched event before) :=
    simulates_dispatched event running
  have noted : (dispatched event before).phase ≠ .stopped := running
  have writes : Simulates gives (dispatched event before) written :=
    simulates_handleWrite noted results
  have forgets : Simulates gives written
      (continueWith true rest (removeTime event.fd written).2) :=
    simulates_of_same rfl rfl rfl fun _ => by rwa [samePhase]
  exact IsTrans.trans _ _ _ (IsTrans.trans _ _ _ notes writes) forgets

theorem simulates_read {before : Loop} {clock : Clock} (event : Event) (rest : List Event)
    (results : List ReadResult) (running : before.phase ≠ .stopped)
    (answered : before.writeBuffers.get event.fd = none)
    (gave : ∀ connection received reply,
      Gives platform server connection received reply (before, .read clock event results,
        continueWith
          (handleRead platform server clock event.fd results (dispatched event before)).1 rest
          (handleRead platform server clock event.fd results (dispatched event before)).2) →
      gives connection received reply.response.serializeResponse) :
    Simulates gives before
      (continueWith (handleRead platform server clock event.fd results (dispatched event before)).1
        rest (handleRead platform server clock event.fd results (dispatched event before)).2) := by
  have samePhase := (samePhase_operations event.fd).handleRead platform server clock results
    (dispatched event before)
  have notes : Simulates gives before (dispatched event before) :=
    simulates_dispatched event running
  have noted : (dispatched event before).phase ≠ .stopped := running
  have reads : Simulates gives (dispatched event before)
      (handleRead platform server clock event.fd results (dispatched event before)).2 :=
    simulates_handleRead noted answered <| by
      intro connection received reply goesOn named whole computed queued
      rw [goesOn] at gave
      exact gave connection received reply (.read named whole computed queued)
  have still : (handleRead platform server clock event.fd results
      (dispatched event before)).2.phase ≠ .stopped := by
    rw [samePhase]
    exact running
  exact IsTrans.trans _ _ _ (IsTrans.trans _ _ _ notes reads) (simulates_continueWith _ rest still)

/-- A step of the loop is, for every connection, some steps of its exchange, or none. -/
theorem step_simulates {before after : Loop} {label : Label} (served : Served listener before)
    (gave : ∀ connection received reply,
      Gives platform server connection received reply (before, label, after) →
        gives connection received reply.response.serializeResponse)
    (step : Step platform server listener before label after) :
    Simulates gives before after := by
  have running : ∀ {events}, before.phase = .dispatching events → before.phase ≠ .stopped := by
    intro events phase
    rw [phase]
    nofun
  cases step with
  | @wait now events timedOut phase reported distinct bounded each expired =>
    exact simulates_wait timedOut events phase
  | waitFailed phase => exact simulates_leave before
  | @accept event rest results phase isListener fresh =>
    exact simulates_accept rest (running phase) (served.armed (running phase)) fresh
  | @write event rest results phase isClient writable =>
    exact simulates_write event rest results (running phase)
  | @read event rest results clock phase isClient readable =>
    exact simulates_read event rest results (running phase)
      ((served.batch _ phase).answered event List.mem_cons_self isClient readable) gave
  | again phase => exact simulates_of_same rfl rfl rfl fun _ => running phase
  | other => exact simulates_of_same rfl rfl rfl id

theorem served_initial {loop : Loop} (initial : Initial loop) : Served listener loop := by
  refine ⟨fun _ => armed_initial initial, ?_⟩
  intro events dispatching
  rw [initial.phase] at dispatching
  cases dispatching

theorem run_served {loop : Loop}
    (reached : Reaches (Step platform server listener) Ordinary Initial loop) :
    Served listener loop :=
  reached.invariant (fun _ initial => served_initial initial)
    (fun _ _ _ served ordinary step => step_served served ordinary step)

theorem walk_simulates {first later : Loop} {steps : List (Loop × Label × Loop)}
    (served : Served listener first)
    (walk : Walk (Step platform server listener) Ordinary (· = first) steps later) :
    Served listener later ∧ Simulates (Gave platform server steps) first later := by
  induction walk with
  | start same =>
    subst same
    exact ⟨served, Std.Refl.refl _⟩
  | @step steps before after label walk ordinary step ih =>
    obtain ⟨servedNow, simulates⟩ := ih
    refine ⟨step_served servedNow ordinary step, ?_⟩
    intro connection exchange corresponds
    obtain ⟨exchange', run, corresponds'⟩ := simulates connection exchange corresponds
    have now : Simulates (Gave platform server (steps ++ [(before, label, after)])) before after := by
      refine step_simulates servedNow ?_ step
      intro connection received reply gives
      exact ⟨_, List.mem_append_right _ List.mem_cons_self, reply, gives, rfl⟩
    obtain ⟨exchange'', run', corresponds''⟩ := now connection exchange' corresponds'
    have grown := run.mono fun received reply gave => gave.later [(before, label, after)]
    exact ⟨exchange'', grown.trans run', corresponds''⟩

theorem corresponds_initial {loop : Loop} (initial : Initial loop) (connection : Nat) :
    Corresponds loop connection .unopened := by
  refine .unopened ?_ ?_ ?_ <;> rw [initial.kernel]
  · exact Nat.zero_le connection
  · rfl
  · intro shut
    obtain ⟨entry, member, -⟩ := shut
    cases member

theorem walk_corresponds {loop : Loop} {steps : List (Loop × Label × Loop)}
    (walk : Walk (Step platform server listener) Ordinary Initial steps loop) (connection : Nat) :
    ∃ exchange, Exchange.Run (Gave platform server steps connection) .unopened exchange ∧
      Corresponds loop connection exchange := by
  obtain ⟨first, initial, fromFirst⟩ := walk.origin
  exact (walk_simulates (served_initial initial) fromFirst).2 connection .unopened
    (corresponds_initial initial connection)

/-- A reply that was given is still the reply later, and what was sent stays sent. -/
theorem reply_lasts {loop later : Loop} {connection : Nat} {exchange : Exchange UInt8}
    (reached : Reaches (Step platform server listener) Ordinary Initial loop)
    (corresponds : Corresponds loop connection exchange) (given : exchange.reply ≠ [])
    (run : Reaches (Step platform server listener) Ordinary (· = loop) later) :
    ∃ exchange', Corresponds later connection exchange' ∧ exchange.sent <+: exchange'.sent ∧
      exchange'.reply = exchange.reply := by
  obtain ⟨steps, walk⟩ := run.walk
  obtain ⟨exchange', run', corresponds'⟩ :=
    (walk_simulates (run_served reached) walk).2 connection exchange corresponds
  exact ⟨exchange', corresponds', run'.extends.sent, run'.extends.reply.resolve_left given⟩

/-! What an exchange tells about the wire -/

section
variable {loop : Loop} {connection : Nat} {exchange : Exchange UInt8}

theorem Corresponds.sent (corresponds : Corresponds loop connection exchange) :
    delivered connection loop.kernel.log = exchange.sent := by
  cases corresponds with
  | unopened new none | listening named reads writes none => exact none
  | answering | ended => rfl

theorem Corresponds.received (corresponds : Corresponds loop connection exchange) :
    exchange.received <+: loop.kernel.received connection := by
  cases corresponds with
  | unopened => exact List.nil_prefix
  | listening => exact List.prefix_refl _
  | answering named early | ended old early => exact early

theorem Corresponds.whole (corresponds : Corresponds loop connection exchange)
    (shut : ShutDown connection loop.kernel.log) : exchange.left = [] := by
  cases corresponds with
  | unopened new none whole => exact absurd shut whole
  | listening named reads writes none whole => exact absurd shut whole
  | answering named early writes whole => exact absurd shut whole
  | ended old early whole => exact whole shut

theorem Corresponds.waiting (corresponds : Corresponds loop connection exchange)
    (running : loop.phase ≠ .stopped) {fd : Fd} {left : Bytes}
    (named : loop.kernel.owner fd = some connection)
    (waits : loop.writeBuffers.get fd = some left) : exchange.left = left := by
  cases corresponds with
  | unopened new => exact absurd (loop.kernel.numbered fd connection named) (Nat.not_lt_of_le new)
  | @listening g named' reads writes =>
    rw [loop.kernel.single g fd connection named' named, waits] at writes
    cases writes
  | @answering g received left named' early writes =>
    rw [loop.kernel.single g fd connection named' named, waits] at writes
    cases writes
    rfl
  | ended old early whole idle =>
    have unused := (idle running fd named).1.writes
    rw [waits] at unused
    cases unused

end

end

/-- Whatever the connections, the other threads and the sockets do, each connection is served as
an exchange of its own, whose reply is the one that a step of the run has given it, and goes on as
the exchange does. -/
theorem connections_are_exchanges (platform : Platform) (server : Server) (listener : Fd)
    (loop : Loop) (steps : List (Loop × Label × Loop))
    (walk : Walk (Step platform server listener) Ordinary Initial steps loop) (connection : Nat) :
    ∃ exchange, Exchange.Run (Gave platform server steps connection) .unopened exchange ∧
      Corresponds loop connection exchange ∧
      ∀ more later, Walk (Step platform server listener) Ordinary (· = loop) more later →
        ∃ exchange', Exchange.Run (Gave platform server more connection) exchange exchange' ∧
          Corresponds later connection exchange' := by
  obtain ⟨exchange, run, corresponds⟩ := walk_corresponds walk connection
  exact ⟨exchange, run, corresponds, fun more later goesOn =>
    (walk_simulates (run_served walk.reaches) goesOn).2 connection exchange corresponds⟩

theorem reaches_webReady :
    Reaches (Step Handler.quietPlatform webServer 3) Ordinary Initial webReady := by
  have waits : Step Handler.quietPlatform webServer 3 webStart (.wait 0 [listenerReady] [])
      webListening :=
    step_wait_early rfl (by simpa using ⟨Or.inl rfl⟩) (by decide) (by decide) (Nat.zero_le _)
  have accepts : Step Handler.quietPlatform webServer 3 webListening (.accept [.connected 7 0 true])
      { webConnected with phase := .dispatching [] } :=
    .accept rfl rfl ⟨by decide, by decide +kernel⟩
  have again : Step Handler.quietPlatform webServer 3 { webConnected with phase := .dispatching [] }
      .again webConnected := .again rfl
  have first : ∀ event ∈ [listenerReady],
      webStart.kernel.interest.get event.fd = some .writable → event.writable = true := by
    decide +kernel
  have connected : Reaches (Step Handler.quietPlatform webServer 3) Ordinary Initial webConnected :=
    (((Reaches.start initial_webStart).step (by exact ⟨trivial, first⟩) waits).step
      (by exact ⟨trivial, trivial⟩) accepts).step (by exact ⟨trivial, trivial⟩) again
  have waits' : Step Handler.quietPlatform webServer 3 webConnected (.wait 0 [requestReady] [])
      webReady :=
    step_wait_early rfl (by simpa using ⟨Or.inr (by decide +kernel)⟩) (by decide) (by decide)
      (Nat.zero_le _)
  have second : ∀ event ∈ [requestReady],
      webConnected.kernel.interest.get event.fd = some .writable → event.writable = true := by
    decide +kernel
  exact connected.step (by exact ⟨trivial, second⟩) waits'

theorem step_webAnswered : Step Handler.quietPlatform webServer 3 webReady
    (.read ⟨0, 0, 0⟩ requestReady requestReads) webAnswered := by
  unfold webAnswered webRead
  exact .read rfl (by decide) rfl

theorem ordinary_webReady : Ordinary webReady (.read ⟨0, 0, 0⟩ requestReady requestReads) := by
  have opened : webReady.kernel.owner 7 ≠ none := by decide +kernel
  exact ⟨fun closed => absurd closed opened, trivial⟩

theorem reaches_webSending :
    Reaches (Step Handler.quietPlatform webServer 3) Ordinary Initial Timeouts.webSending := by
  have again : Step Handler.quietPlatform webServer 3 webAnswered .again Timeouts.webWaiting :=
    .again (by decide +kernel)
  have named : Timeouts.webWaiting.kernel.owner 7 = some 0 := by decide +kernel
  have watched : Timeouts.webWaiting.kernel.interest.get 7 = some .writable := by decide +kernel
  have answered := (reaches_webReady.step ordinary_webReady step_webAnswered).step
    (by exact ⟨trivial, trivial⟩) again
  have reported : ∀ event ∈ [Timeouts.writeReady], Timeouts.webWaiting.Reported 3 event := by
    intro event member
    rw [List.mem_singleton] at member
    subst member
    exact ⟨Or.inr ⟨named, .writable, watched, fun _ => rfl⟩⟩
  have waits : Step Handler.quietPlatform webServer 3 Timeouts.webWaiting
      (.wait 0 [Timeouts.writeReady] []) Timeouts.webSending :=
    step_wait_early rfl reported (by decide) (by decide) (Nat.zero_le _)
  have writable : ∀ event ∈ [Timeouts.writeReady],
      Timeouts.webWaiting.kernel.interest.get event.fd = some .writable →
      event.writable = true := by decide +kernel
  exact answered.step (by exact ⟨trivial, writable⟩) waits

theorem step_webWritten : Step Handler.quietPlatform webServer 3 Timeouts.webSending
    (.write Timeouts.writeReady [.wrote 5, .wouldBlock]) Timeouts.webWritten := by
  unfold Timeouts.webWritten
  exact .write rfl (by decide) rfl

theorem ordinary_webSending :
    Ordinary Timeouts.webSending (.write Timeouts.writeReady [.wrote 5, .wouldBlock]) := by
  have opened : Timeouts.webSending.kernel.owner 7 ≠ none := by decide +kernel
  exact ⟨fun closed => absurd closed opened, trivial⟩

theorem reaches_webWritten :
    Reaches (Step Handler.quietPlatform webServer 3) Ordinary Initial Timeouts.webWritten :=
  reaches_webSending.step ordinary_webSending step_webWritten

theorem connections_are_exchanges_webWritten : ∃ steps exchange,
    Exchange.Run (Gave Handler.quietPlatform webServer steps 0) .unopened exchange ∧
      Corresponds Timeouts.webWritten 0 exchange ∧
      ∀ more later, Walk (Step Handler.quietPlatform webServer 3) Ordinary
          (· = Timeouts.webWritten) more later →
        ∃ exchange', Exchange.Run (Gave Handler.quietPlatform webServer more 0) exchange exchange' ∧
          Corresponds later 0 exchange' := by
  obtain ⟨steps, walk⟩ := reaches_webWritten.walk
  exact ⟨steps, connections_are_exchanges Handler.quietPlatform webServer 3 Timeouts.webWritten steps
    walk 0⟩

/-- A connection is sent one reply at most, the one that a step of the run has computed from all
that had been read on it by then: what its socket took is the beginning of that reply, what waits is
the rest, all of it was taken if the connection was shut down, and from the step that queues the
reply nothing else is ever sent. -/
theorem one_reply_each (platform : Platform) (server : Server) (listener : Fd) (loop : Loop)
    (steps : List (Loop × Label × Loop))
    (walk : Walk (Step platform server listener) Ordinary Initial steps loop) (connection : Nat) :
    ∃ received reply, received <+: loop.kernel.received connection ∧
      (reply = [] ∨ Gave platform server steps connection received reply) ∧
      delivered connection loop.kernel.log <+: reply ∧
      (ShutDown connection loop.kernel.log → delivered connection loop.kernel.log = reply) ∧
      (loop.phase ≠ .stopped → ∀ fd left, loop.kernel.owner fd = some connection →
        loop.writeBuffers.get fd = some left →
        delivered connection loop.kernel.log ++ left = reply) ∧
      (reply ≠ [] →
        ∀ later, Reaches (Step platform server listener) Ordinary (· = loop) later →
          delivered connection later.kernel.log <+: reply) := by
  obtain ⟨exchange, run, corresponds⟩ := walk_corresponds walk connection
  have sound : exchange.Sound (Gave platform server steps connection) := run.sound (Or.inl rfl)
  refine ⟨exchange.received, exchange.reply, corresponds.received, sound, ?_, ?_, ?_, ?_⟩
  · rw [corresponds.sent]
    exact List.prefix_append _ _
  · intro shut
    rw [corresponds.sent, Exchange.reply, corresponds.whole shut, List.append_nil]
  · intro running fd left named waits
    rw [corresponds.sent, Exchange.reply, corresponds.waiting running named waits]
  · intro given later goesOn
    obtain ⟨exchange', corresponds', -, same⟩ := reply_lasts walk.reaches corresponds given goesOn
    rw [corresponds'.sent, ← same]
    exact List.prefix_append _ _

theorem one_reply_each_webWritten :
    delivered 0 Timeouts.webWritten.kernel.log = utf8 "HTTP/" ∧
      ∃ steps received reply, received <+: Timeouts.webWritten.kernel.received 0 ∧
        (reply = [] ∨ Gave Handler.quietPlatform webServer steps 0 received reply) ∧
        delivered 0 Timeouts.webWritten.kernel.log <+: reply := by
  obtain ⟨steps, walk⟩ := reaches_webWritten.walk
  obtain ⟨received, reply, early, isReply, begun, -⟩ := one_reply_each Handler.quietPlatform
    webServer 3 Timeouts.webWritten steps walk 0
  exact ⟨by decide +kernel, steps, received, reply, early, isReply, begun⟩

end LocalServer.Exchanges
