import LocalServer.Footprint
import LocalServer.Library.Wire

/-! What one event does: to its own descriptor, case by case, and to every connection that is
not open on it. -/

namespace LocalServer.Handling
open Library Action Utf8 Server Loop Footprint

structure Beside (fd : Fd) (before after : Loop) : Prop where
  owner : ∀ connection, after.kernel.owner fd = some connection →
    before.kernel.owner fd = some connection
  received : ∀ connection, before.kernel.owner fd ≠ some connection →
    after.kernel.received connection = before.kernel.received connection
  wire : ∀ connection, before.kernel.owner fd ≠ some connection →
    Untouched connection before.kernel.log after.kernel.log

instance (fd : Fd) : Std.Refl (Beside fd) :=
  ⟨fun _ => ⟨fun _ => id, fun _ _ => rfl, fun _ _ => .refl _⟩⟩

instance (fd : Fd) : IsTrans Loop (Beside fd) where
  trans before middle after early late := by
    have apart : ∀ connection, before.kernel.owner fd ≠ some connection →
        middle.kernel.owner fd ≠ some connection :=
      fun connection other named => other (early.owner connection named)
    refine ⟨?_, ?_, ?_⟩
    · exact fun connection named => early.owner connection (late.owner connection named)
    · intro connection other
      rw [late.received connection (apart connection other), early.received connection other]
    · exact fun connection other =>
        (early.wire connection other).trans (late.wire connection (apart connection other))

section
variable {fd : Fd} {loop before after : Loop}

theorem beside_of_kernel (same : after.kernel = before.kernel) : Beside fd before after := by
  refine ⟨?_, ?_, ?_⟩ <;> rw [same]
  · exact fun _ => id
  · exact fun _ _ => rfl
  · exact fun _ _ => .refl _

/-- Only an `accept` opens a connection. -/
theorem owner_of_issue {call : Call} (notAccept : ∀ g, call ≠ .accept g) {other : Fd}
    {connection : Nat} (named : (loop.kernel.issue call).owner other = some connection) :
    loop.kernel.owner other = some connection := by
  cases call with
  | accept g => exact absurd rfl (notAccept g)
  | close g =>
    rw [Kernel.owner_close] at named
    split_ifs at named
    exact named
  | read g result => rwa [Kernel.owner_read] at named
  | _ => exact named

theorem beside_issue {call : Call} (on : call.fd = fd) (notAccept : ∀ g, call ≠ .accept g) :
    Keeps (Beside fd) (issue call) := by
  subst on
  intro loop
  have owner : ∀ connection, (loop.kernel.issue call).owner call.fd = some connection →
      loop.kernel.owner call.fd = some connection := fun _ => owner_of_issue notAccept
  refine ⟨owner, ?_, fun connection other => untouched_cons _ (Or.inl other)⟩
  intro connection other
  cases call with
  | accept g => exact absurd rfl (notAccept g)
  | read g result =>
    cases result with
    | received segment =>
      cases named : loop.kernel.owner g with
      | none => simp [issue, Kernel.issue, Kernel.effect, named]
      | some open' =>
        have different : connection ≠ open' := by
          intro same
          subst same
          exact other named
        exact (loop.kernel.received_read named segment connection).trans (if_neg different)
    | _ => rfl
  | _ => rfl

theorem beside_extendRead (segment : Bytes) : Keeps (Beside fd) (extendRead fd segment) := by
  intro loop
  unfold extendRead
  cases loop.readBuffers.get fd with
  | none => exact Std.Refl.refl loop
  | some data => exact beside_of_kernel rfl

theorem beside_operations (fd : Fd) : Operations fd (Beside fd) where
  issue := fun _ on notAccept => beside_issue on notAccept
  removeRead := fun _ => beside_of_kernel rfl
  removeWrite := fun _ => beside_of_kernel rfl
  setWrite := fun _ _ => beside_of_kernel rfl
  extendRead := beside_extendRead
  world := fun _ _ => beside_of_kernel rfl

theorem beside_closeOne (fd : Fd) (loop : Loop) : Beside fd loop (closeOne fd loop) := by
  have unregisters : Keeps (Beside fd) (issue (.unregister fd)) := beside_issue rfl nofun
  have closes : Keeps (Beside fd) (issue (.close fd)) := beside_issue rfl nofun
  have released : Beside fd (issue (.unregister fd) loop).2
      (removeTime fd (removeWrite fd (removeRead fd (issue (.unregister fd) loop).2).2).2).2 :=
    beside_of_kernel rfl
  exact IsTrans.trans _ _ _ (IsTrans.trans _ _ _ (unregisters loop) released) (closes _)

end

theorem world_drain (fd : Fd) (results : List ReadResult) (loop : Loop) :
    (drain fd results loop).2.world = loop.world := by
  let SameWorld (before after : Loop) : Prop := after.world = before.world
  have reflexive : Std.Refl SameWorld := ⟨fun _ => rfl⟩
  have transitive : IsTrans Loop SameWorld := ⟨fun _ _ _ early late => late.trans early⟩
  have draining : Draining fd SameWorld := by
    refine ⟨fun _ _ _ _ => rfl, fun _ => rfl, fun _ => rfl, fun segment loop => ?_⟩
    unfold extendRead
    cases loop.readBuffers.get fd <;> rfl
  exact draining.drain results loop

theorem world_writeLoop (fd : Fd) (data : Bytes) (results : List WriteResult) (loop : Loop) :
    (writeLoop fd data results loop).2.world = loop.world := by
  induction results generalizing data loop with
  | nil =>
    unfold writeLoop
    split_ifs <;> rfl
  | cons result results ih =>
    unfold writeLoop
    split_ifs
    · rfl
    · cases result with
      | wrote count =>
        dsimp only
        rw [bind_apply]
        split_ifs
        · rfl
        · rw [bind_apply, ih]
          rfl
      | failed => rfl
      | wouldBlock => rfl

theorem world_handleWrite (fd : Fd) (results : List WriteResult) (loop : Loop) :
    (handleWrite fd results loop).2.world = loop.world := by
  unfold handleWrite
  cases loop.writeBuffers.get fd with
  | none => rfl
  | some data => exact world_writeLoop fd data results loop

structure Queued (fd : Fd) (reply : Bytes) (before after : Loop) : Prop where
  owner : after.kernel.owner fd = before.kernel.owner fd
  interest : after.kernel.interest.get fd = (before.kernel.interest.get fd).map fun _ => .writable
  writes : after.writeBuffers.get fd = some reply

section
variable (platform : Platform) (server : Server) (clock : Clock) (fd : Fd)
  (results : List ReadResult)

inductive ReadEnd (before : Loop) : Bool × Loop → Prop where
  /-- The other side has closed, or the read failed: nothing is kept. -/
  | gone {after : Loop} (ends : ending results ≠ .wouldBlock)
      (reads : after.readBuffers.get fd = none) (writes : after.writeBuffers.get fd = none)
      (interest : after.kernel.interest.get fd = none) (world : after.world = before.world) :
      ReadEnd before (true, after)
  /-- There is no buffer for what was read. -/
  | ignored {after : Loop} (ends : ending results = .wouldBlock)
      (unread : before.readBuffers.get fd = none)
      (reads : after.readBuffers.get fd = none)
      (writes : after.writeBuffers.get fd = before.writeBuffers.get fd)
      (owner : after.kernel.owner fd = before.kernel.owner fd)
      (interest : after.kernel.interest.get fd = before.kernel.interest.get fd)
      (world : after.world = before.world) : ReadEnd before (true, after)
  | refused {after : Loop} {data : Bytes} (ends : ending results = .wouldBlock)
      (found : before.readBuffers.get fd = some data)
      (computed : respond platform server clock (data ++ receivedBytes results) before.world =
        .ok .tooLarge)
      (reads : after.readBuffers.get fd = some (data ++ receivedBytes results))
      (queued : Queued fd (Response.error .contentTooLarge).serializeResponse before after)
      (world : after.world = before.world) : ReadEnd before (true, after)
  | answered {after : Loop} {data : Bytes} {response : Response}
      (ends : ending results = .wouldBlock) (found : before.readBuffers.get fd = some data)
      (computed : respond platform server clock (data ++ receivedBytes results) before.world =
        .ok (.answered response after.world))
      (reads : after.readBuffers.get fd = none)
      (queued : Queued fd response.serializeResponse before after) : ReadEnd before (true, after)
  | panicked {after : Loop} {data : Bytes} {panic : Machine.Panic}
      (ends : ending results = .wouldBlock) (found : before.readBuffers.get fd = some data)
      (computed : respond platform server clock (data ++ receivedBytes results) before.world =
        .error panic)
      (owner : after.kernel.owner fd = none) (world : after.world = before.world) :
      ReadEnd before (false, after)

theorem queued_queue (response : Response) (loop : Loop) :
    Queued fd response.serializeResponse loop (queue fd response loop).2 := by
  refine ⟨rfl, ?_, HashMap.get_insert_self _ _ _⟩
  exact (loop.kernel.interest_watchWrite fd fd).trans (if_pos rfl)

theorem read_ends (loop : Loop) : ReadEnd platform server clock fd results loop
    (handleRead platform server clock fd results loop) := by
  obtain ⟨middle, filled, drained⟩ := drain_filled fd results loop
  have world : middle.world = loop.world := by
    rw [← world_drain fd [ending results] middle, ← drained, world_drain]
  unfold handleRead
  rw [bind_apply, drained]
  cases ends : ending results with
  | received segment => exact absurd ends (ending_ne_received results segment)
  | closed =>
    exact .gone (by rw [ends]; nofun) (HashMap.get_remove_self _ _) (HashMap.get_remove_self _ _)
      (HashMap.get_remove_self _ _) world
  | failed =>
    exact .gone (by rw [ends]; nofun) (HashMap.get_remove_self _ _) (HashMap.get_remove_self _ _)
      (HashMap.get_remove_self _ _) world
  | wouldBlock =>
    let full := (issue (.read fd .wouldBlock) middle).2
    show ReadEnd platform server clock fd results loop (answer platform server clock fd full)
    have writes : full.writeBuffers.get fd = loop.writeBuffers.get fd :=
      congrArg (HashMap.get · fd) filled.writes
    have owner : full.kernel.owner fd = loop.kernel.owner fd := filled.owner fd
    have interest : full.kernel.interest.get fd = loop.kernel.interest.get fd :=
      congrArg (HashMap.get · fd) filled.interest
    cases found : loop.readBuffers.get fd with
    | none =>
      have none : full.readBuffers.get fd = none := by
        rw [show full.readBuffers.get fd = _ from filled.reads, found, Option.map_none]
      rw [answer_no_buffer none]
      exact .ignored ends found (HashMap.get_remove_self _ _) writes owner interest world
    | some data =>
      have whole : full.readBuffers.get fd = some (data ++ receivedBytes results) := by
        rw [show full.readBuffers.get fd = _ from filled.reads, found, Option.map_some]
      have moved : ∀ {reply : Bytes} {after : Loop}, Queued fd reply full after →
          Queued fd reply loop after := by
        intro reply after queued
        exact ⟨queued.owner.trans owner, by rw [queued.interest, interest], queued.writes⟩
      cases computed : respond platform server clock (data ++ receivedBytes results) full.world with
      | error panic =>
        rw [answer_panics whole computed]
        rw [show full.world = loop.world from world] at computed
        have closed : (issue (.close fd) full).2.kernel.owner fd = none :=
          (full.kernel.owner_close fd fd).trans (if_pos rfl)
        exact .panicked ends found computed closed world
      | ok reply =>
        have same := computed
        rw [show full.world = loop.world from world] at same
        cases reply with
        | tooLarge =>
          rw [answer_tooLarge whole computed]
          exact .refused ends found same whole (moved (queued_queue fd _ full)) world
        | answered response world =>
          rw [answer_answered whole computed]
          have queued := queued_queue fd response { full with world }
          refine .answered ends found same (HashMap.get_remove_self _ _) (moved ?_)
          exact ⟨queued.owner, queued.interest, queued.writes⟩

end

/-! What reading moves -/

structure Receives (connection : Nat) (bytes : Bytes) (before after : Loop) : Prop where
  received : after.kernel.received connection = before.kernel.received connection ++ bytes
  wire : Untouched connection before.kernel.log after.kernel.log

theorem Receives.trans {connection : Nat} {early late : Bytes} {before middle after : Loop}
    (first : Receives connection early before middle)
    (second : Receives connection late middle after) :
    Receives connection (early ++ late) before after := by
  refine ⟨?_, first.wire.trans second.wire⟩
  rw [second.received, first.received, List.append_assoc]

abbrev Silent (connection : Nat) : Loop → Loop → Prop := Receives connection []

instance (connection : Nat) : Std.Refl (Silent connection) :=
  ⟨fun _ => ⟨(List.append_nil _).symm, .refl _⟩⟩

instance (connection : Nat) : IsTrans Loop (Silent connection) where
  trans _ _ _ first second := first.trans second

section
variable {fd : Fd} {connection : Nat}

theorem silent_of_kernel {before after : Loop} (same : after.kernel = before.kernel) :
    Silent connection before after := by
  refine ⟨?_, ?_⟩ <;> rw [same]
  · exact (List.append_nil _).symm
  · exact .refl _

theorem silent_issue {call : Call} (inward : call.Inward)
    (notRead : ∀ g segment, call ≠ .read g (.received segment)) (notAccept : ∀ g, call ≠ .accept g) :
    Keeps (Silent connection) (issue call) := by
  intro loop
  have wire : Untouched connection loop.kernel.log (issue call loop).2.kernel.log :=
    untouched_cons loop.kernel.log (Or.inr inward)
  refine ⟨Eq.trans ?_ (List.append_nil _).symm, wire⟩
  cases call with
  | accept g => exact absurd rfl (notAccept g)
  | read g result =>
    cases result with
    | received segment => exact absurd rfl (notRead g segment)
    | _ => rfl
  | _ => rfl

theorem silent_unregister : Keeps (Silent connection) (issue (.unregister fd)) :=
  silent_issue trivial nofun nofun

theorem silent_close : Keeps (Silent connection) (issue (.close fd)) :=
  silent_issue trivial nofun nofun

theorem silent_removeRead : Keeps (Silent connection) (removeRead fd) := fun _ => silent_of_kernel rfl

theorem silent_removeWrite : Keeps (Silent connection) (removeWrite fd) :=
  fun _ => silent_of_kernel rfl

theorem silent_closeOne (fd : Fd) (loop : Loop) : Silent connection loop (closeOne fd loop) := by
  have released : Silent connection (issue (.unregister fd) loop).2
      (removeTime fd (removeWrite fd (removeRead fd (issue (.unregister fd) loop).2).2).2).2 :=
    silent_of_kernel rfl
  exact ((silent_unregister loop).trans released).trans (silent_close _)

theorem silent_queue (response : Response) : Keeps (Silent connection) (queue fd response) := by
  have watches : Keeps (Silent connection) (issue (.watchWrite fd)) :=
    silent_issue trivial nofun nofun
  have sets : Keeps (Silent connection) (setWrite fd response.serializeResponse) :=
    fun _ => silent_of_kernel rfl
  exact sets.bind fun _ => watches

theorem silent_answer (platform : Platform) (server : Server) (clock : Clock) :
    Keeps (Silent connection) (answer platform server clock fd) := by
  intro loop
  cases found : loop.readBuffers.get fd with
  | none =>
    rw [answer_no_buffer found]
    exact silent_removeRead loop
  | some data =>
    cases computed : respond platform server clock data loop.world with
    | error panic =>
      rw [answer_panics found computed]
      exact silent_close loop
    | ok reply =>
      cases reply with
      | tooLarge =>
        rw [answer_tooLarge found computed]
        exact silent_queue _ loop
      | answered response world =>
        rw [answer_answered found computed]
        have changes : Silent connection loop { loop with world } := silent_of_kernel rfl
        have queues : Keeps (Silent connection) (queue fd response) := silent_queue response
        exact (changes.trans (queues _)).trans (silent_removeRead _)

theorem receives_segment {loop : Loop} (named : loop.kernel.owner fd = some connection)
    (segment : Bytes) :
    Receives connection segment loop
      (extendRead fd segment (issue (.read fd (.received segment)) loop).2).2 := by
  have wire : Untouched connection loop.kernel.log
      (issue (.read fd (.received segment)) loop).2.kernel.log :=
    untouched_cons loop.kernel.log (Or.inr trivial)
  have reads : Receives connection segment loop (issue (.read fd (.received segment)) loop).2 :=
    ⟨(loop.kernel.received_read named segment connection).trans (if_pos rfl), wire⟩
  have extends' : Silent connection (issue (.read fd (.received segment)) loop).2
      (extendRead fd segment (issue (.read fd (.received segment)) loop).2).2 := by
    apply silent_of_kernel
    unfold extendRead
    split <;> rfl
  have both := reads.trans extends'
  rwa [List.append_nil] at both

theorem receives_drain (results : List ReadResult) {loop : Loop}
    (named : loop.kernel.owner fd = some connection) :
    Receives connection (receivedBytes results) loop (drain fd results loop).2 := by
  induction results generalizing loop with
  | nil =>
    have blocks : Keeps (Silent connection) (issue (.read fd .wouldBlock)) :=
      silent_issue trivial nofun nofun
    exact blocks loop
  | cons result results ih =>
    cases result with
    | received segment =>
      have still : (extendRead fd segment
          (issue (.read fd (.received segment)) loop).2).2.kernel.owner fd = some connection :=
        ((filled_received fd segment loop).owner fd).trans named
      exact (receives_segment named segment).trans (ih still)
    | closed =>
      have reads : Keeps (Silent connection) (issue (.read fd .closed)) :=
        silent_issue trivial nofun nofun
      exact ((((reads loop).trans (silent_unregister _)).trans (silent_removeRead _)).trans
        (silent_removeWrite _))
    | failed =>
      have reads : Keeps (Silent connection) (issue (.read fd .failed)) :=
        silent_issue trivial nofun nofun
      exact (((((reads loop).trans (silent_unregister _)).trans (silent_removeRead _)).trans
        (silent_removeWrite _)).trans (silent_close _))
    | wouldBlock =>
      have blocks : Keeps (Silent connection) (issue (.read fd .wouldBlock)) :=
        silent_issue trivial nofun nofun
      exact blocks loop

theorem receives_handleRead (platform : Platform) (server : Server) (clock : Clock)
    (results : List ReadResult) {loop : Loop} (named : loop.kernel.owner fd = some connection) :
    Receives connection (receivedBytes results) loop
      (handleRead platform server clock fd results loop).2 := by
  have drains := receives_drain results named
  unfold handleRead
  rw [bind_apply]
  cases more : (drain fd results loop).1 with
  | true =>
    have answers : Silent connection (drain fd results loop).2
        (answer platform server clock fd (drain fd results loop).2).2 :=
      silent_answer platform server clock _
    have both := drains.trans answers
    rwa [List.append_nil] at both
  | false => exact drains

end

/-! Write events -/

structure Sends (connection : Nat) (bytes : Bytes) (before after : Loop) : Prop where
  received : after.kernel.received = before.kernel.received
  delivered : delivered connection after.kernel.log =
    delivered connection before.kernel.log ++ bytes
  reads : after.readBuffers = before.readBuffers
  world : after.world = before.world

theorem Sends.trans {connection : Nat} {early late : Bytes} {before middle after : Loop}
    (first : Sends connection early before middle) (second : Sends connection late middle after) :
    Sends connection (early ++ late) before after := by
  refine ⟨second.received.trans first.received, ?_, second.reads.trans first.reads,
    second.world.trans first.world⟩
  rw [second.delivered, first.delivered, List.append_assoc]

inductive SendEnd (fd : Fd) (connection : Nat) (left : Bytes) (before : Loop) : Loop → Prop where
  /-- The reply is complete or given up. -/
  | closed {after : Loop} (taken rest : Bytes) (split : left = taken ++ rest)
      (sends : Sends connection taken before after) (owner : after.kernel.owner fd = none)
      (interest : after.kernel.interest.get fd = none)
      (writes : after.writeBuffers.get fd = none)
      (shut : ShutDown connection after.kernel.log →
        ShutDown connection before.kernel.log ∨ rest = []) : SendEnd fd connection left before after
  | waiting {after : Loop} (taken rest : Bytes) (split : left = taken ++ rest) (remains : rest ≠ [])
      (sends : Sends connection taken before after)
      (owner : after.kernel.owner fd = before.kernel.owner fd)
      (interest : after.kernel.interest = before.kernel.interest)
      (writes : after.writeBuffers.get fd = some rest)
      (shut : ShutDown connection after.kernel.log → ShutDown connection before.kernel.log) :
      SendEnd fd connection left before after

section
variable {fd : Fd} {connection : Nat}

theorem SendEnd.after_wrote {data left early : Bytes} {before middle after : Loop}
    (split : early ++ left = data) (first : Sends connection early before middle)
    (owner : middle.kernel.owner fd = before.kernel.owner fd)
    (interest : middle.kernel.interest = before.kernel.interest)
    (shut : ShutDown connection middle.kernel.log → ShutDown connection before.kernel.log)
    (ends : SendEnd fd connection left middle after) :
    SendEnd fd connection data before after := by
  cases ends with
  | closed taken rest split' sends owner' interest' writes shut' =>
    refine .closed (early ++ taken) rest ?_ (first.trans sends) owner' interest' writes ?_
    · rw [← split, split', List.append_assoc]
    · exact fun later => (shut' later).imp_left shut
  | waiting taken rest split' remains sends owner' interest' writes shut' =>
    refine .waiting (early ++ taken) rest ?_ remains (first.trans sends) (owner'.trans owner)
      (interest'.trans interest) writes fun later => shut (shut' later)
    rw [← split, split', List.append_assoc]

theorem end_finishWrite (loop : Loop) : SendEnd fd connection [] loop (finishWrite fd loop).2 := by
  have log : ∃ first second third, (finishWrite fd loop).2.kernel.log =
      ⟨.close fd, first⟩ :: ⟨.shutdown fd, second⟩ :: ⟨.unregister fd, third⟩ ::
        loop.kernel.log := ⟨_, _, _, rfl⟩
  obtain ⟨first, second, third, grown⟩ := log
  have sent : delivered connection (finishWrite fd loop).2.kernel.log =
      delivered connection loop.kernel.log ++ [] := by
    rw [grown]
    simp only [delivered, Entry.taken, ite_self, List.append_nil]
  exact .closed [] [] rfl ⟨rfl, sent, rfl, rfl⟩ (by simp [finishWrite, issue, removeWrite])
    (HashMap.get_remove_self _ _) (HashMap.get_remove_self _ _) fun _ => Or.inr rfl

theorem end_abandonWrite {result : WriteResult} (left : Bytes)
    (none : ∀ count, result = .wrote count → count = 0) (loop : Loop) :
    SendEnd fd connection left loop
      (abandonWrite fd (issue (.write fd left result) loop).2).2 := by
  let wrote := (issue (.write fd left result) loop).2
  have writes : Untouched connection loop.kernel.log wrote.kernel.log :=
    untouched_write loop.kernel.log none
  have unregisters : Untouched connection wrote.kernel.log
      (removeWrite fd (issue (.unregister fd) wrote).2).2.kernel.log :=
    untouched_cons wrote.kernel.log (Or.inr trivial)
  have closes : Untouched connection
      (removeWrite fd (issue (.unregister fd) wrote).2).2.kernel.log
      (abandonWrite fd wrote).2.kernel.log := untouched_cons _ (Or.inr trivial)
  have wire := (writes.trans unregisters).trans closes
  refine .closed [] left rfl ⟨rfl, by rw [wire.delivered, List.append_nil], rfl, rfl⟩
    (by simp [abandonWrite, issue, removeWrite]) (HashMap.get_remove_self _ _)
    (HashMap.get_remove_self _ _) ?_
  exact fun shut => Or.inl (wire.shutDown shut)

theorem end_blocked {left : Bytes} {loop : Loop} (remains : left ≠ [])
    (held : loop.writeBuffers.get fd = some left) :
    SendEnd fd connection left loop (issue (.write fd left .wouldBlock) loop).2 := by
  have wire : Untouched connection loop.kernel.log
      (issue (.write fd left .wouldBlock) loop).2.kernel.log :=
    untouched_write loop.kernel.log nofun
  exact .waiting [] left rfl remains ⟨rfl, by rw [wire.delivered, List.append_nil], rfl, rfl⟩ rfl
    rfl held wire.shutDown

theorem end_writeLoop (results : List WriteResult) {left : Bytes} {loop : Loop}
    (named : loop.kernel.owner fd = some connection)
    (held : loop.writeBuffers.get fd = some left) :
    SendEnd fd connection left loop (writeLoop fd left results loop).2 := by
  induction results generalizing left loop with
  | nil =>
    unfold writeLoop
    by_cases done : left = []
    · rw [if_pos done, done]
      exact end_finishWrite loop
    · rw [if_neg done]
      exact end_blocked done held
  | cons result results ih =>
    unfold writeLoop
    by_cases done : left = []
    · rw [if_pos done, done]
      exact end_finishWrite loop
    · rw [if_neg done]
      cases result with
      | wrote count =>
        dsimp only
        rw [bind_apply]
        by_cases nothing : count = 0
        · rw [if_pos nothing]
          apply end_abandonWrite left
          intro other same
          cases same
          exact nothing
        · rw [if_neg nothing, bind_apply]
          let wrote := (issue (.write fd left (.wrote count)) loop).2
          have log : wrote.kernel.log =
              ⟨.write fd left (.wrote count), some connection⟩ :: loop.kernel.log := by
            rw [← named]
            rfl
          have sends : Sends connection (left.take count) loop
              (setWrite fd (left.drop count) wrote).2 := by
            refine ⟨rfl, ?_, rfl, rfl⟩
            rw [← delivered_wrote fd left count loop.kernel.log, ← log]
            rfl
          have shut : ShutDown connection wrote.kernel.log →
              ShutDown connection loop.kernel.log := by
            rw [log]
            intro later
            obtain ⟨entry, member, owned, other, isShutdown⟩ := later
            rcases List.mem_cons.mp member with same | older
            · subst same
              cases isShutdown
            · exact ⟨entry, older, owned, other, isShutdown⟩
          have rest : SendEnd fd connection (left.drop count)
              (setWrite fd (left.drop count) wrote).2
              (writeLoop fd (left.drop count) results (setWrite fd (left.drop count) wrote).2).2 :=
            ih named (HashMap.get_insert_self _ _ _)
          exact SendEnd.after_wrote (List.take_append_drop count left) sends rfl rfl shut rest
      | failed =>
        have none : ∀ count, WriteResult.failed = .wrote count → count = 0 := by
          intro count same
          cases same
        exact end_abandonWrite left none loop
      | wouldBlock => exact end_blocked done held

theorem end_handleWrite (results : List WriteResult) {loop : Loop}
    (named : loop.kernel.owner fd = some connection) :
    SendEnd fd connection ((loop.writeBuffers.get fd).getD []) loop (handleWrite fd results loop).2 := by
  unfold handleWrite
  cases held : loop.writeBuffers.get fd with
  | none => exact end_finishWrite loop
  | some left => exact end_writeLoop results named held

end

end LocalServer.Handling
