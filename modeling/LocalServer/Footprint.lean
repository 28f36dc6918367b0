import LocalServer.Server

/-! What the handlers of an event do as far as the single operations on its descriptor tell:
relations that these keep, and how draining ends. Other descriptors are left alone. -/

namespace LocalServer.Footprint
open Library Action Utf8 Server Loop

variable {fd : Fd}

/-! Relations that single operations on a descriptor keep, its handlers keep -/

structure Draining (fd : Fd) (relation : Loop → Loop → Prop) : Prop where
  issue : ∀ call, call.fd = fd → (∀ g, call ≠ .accept g) → Keeps relation (issue call)
  removeRead : Keeps relation (removeRead fd)
  removeWrite : Keeps relation (removeWrite fd)
  extendRead : ∀ segment, Keeps relation (extendRead fd segment)

structure Operations (fd : Fd) (relation : Loop → Loop → Prop) : Prop extends
    Draining fd relation where
  setWrite : ∀ data, Keeps relation (setWrite fd data)
  world : ∀ loop world, relation loop { loop with world }

section
variable {relation : Loop → Loop → Prop} (draining : Draining fd relation)
include draining

theorem Draining.read (result : ReadResult) : Keeps relation (Loop.issue (.read fd result)) :=
  draining.issue _ rfl nofun

theorem Draining.unregister : Keeps relation (Loop.issue (.unregister fd)) :=
  draining.issue _ rfl nofun

theorem Draining.close : Keeps relation (Loop.issue (.close fd)) := draining.issue _ rfl nofun

theorem Draining.drain [Std.Refl relation] [IsTrans Loop relation] (results : List ReadResult) :
    Keeps relation (drain fd results) := by
  induction results with
  | nil => exact (draining.read _).bind fun _ => keeps_pure _ _
  | cons result results ih =>
    cases result with
    | received segment =>
      exact (draining.read _).bind fun _ => (draining.extendRead segment).bind fun _ => ih
    | closed =>
      exact (draining.read _).bind fun _ => draining.unregister.bind fun _ =>
        draining.removeRead.bind fun _ => draining.removeWrite.bind fun _ => keeps_pure _ _
    | failed =>
      exact (draining.read _).bind fun _ => draining.unregister.bind fun _ =>
        draining.removeRead.bind fun _ => draining.removeWrite.bind fun _ =>
        draining.close.bind fun _ => keeps_pure _ _
    | wouldBlock => exact (draining.read _).bind fun _ => keeps_pure _ _

end

section
variable {relation : Loop → Loop → Prop} (operations : Operations fd relation)
include operations

theorem Operations.write (data : Bytes) (result : WriteResult) :
    Keeps relation (Loop.issue (.write fd data result)) := operations.issue _ rfl nofun

variable [IsTrans Loop relation]

theorem Operations.queue (response : Response) : Keeps relation (queue fd response) :=
  (operations.setWrite _).bind fun _ => operations.issue _ rfl nofun

theorem Operations.answer (platform : Platform) (server : Server) (clock : Clock) :
    Keeps relation (answer platform server clock fd) := by
  intro loop
  cases found : loop.readBuffers.get fd with
  | none =>
    rw [answer_no_buffer found]
    exact operations.removeRead loop
  | some data =>
    cases computed : respond platform server clock data loop.world with
    | error panic =>
      rw [answer_panics found computed]
      exact operations.close loop
    | ok reply =>
      cases reply with
      | tooLarge =>
        rw [answer_tooLarge found computed]
        exact operations.queue _ loop
      | answered response world =>
        rw [answer_answered found computed]
        have queues := operations.queue response { loop with world }
        exact IsTrans.trans _ _ _ (IsTrans.trans _ _ _ (operations.world loop world) queues)
          (operations.removeRead _)

theorem Operations.finishWrite : Keeps relation (finishWrite fd) :=
  operations.unregister.bind fun _ => operations.removeWrite.bind fun _ =>
    Keeps.bind (operations.issue _ rfl nofun) fun _ => operations.close

theorem Operations.abandonWrite : Keeps relation (abandonWrite fd) :=
  operations.unregister.bind fun _ => operations.removeWrite.bind fun _ => operations.close

theorem Operations.writeLoop (data : Bytes) (results : List WriteResult) :
    Keeps relation (writeLoop fd data results) := by
  induction results generalizing data with
  | nil =>
    unfold Server.writeLoop
    split_ifs
    · exact operations.finishWrite
    · exact operations.write data _
  | cons result results ih =>
    unfold Server.writeLoop
    split_ifs
    · exact operations.finishWrite
    · cases result with
      | wrote count =>
        apply (operations.write data _).bind
        intro written
        split_ifs
        · exact operations.abandonWrite
        · exact (operations.setWrite _).bind fun _ => ih _
      | failed => exact (operations.write data _).bind fun _ => operations.abandonWrite
      | wouldBlock => exact operations.write data _

theorem Operations.handleWrite (results : List WriteResult) :
    Keeps relation (handleWrite fd results) := by
  intro loop
  unfold Server.handleWrite
  cases loop.writeBuffers.get fd with
  | none => exact operations.finishWrite loop
  | some data => exact operations.writeLoop data results loop

theorem Operations.handleRead [Std.Refl relation] (platform : Platform) (server : Server)
    (clock : Clock) (results : List ReadResult) : Keeps relation (handleRead platform server clock fd results) := by
  apply (operations.drain results).bind
  intro more
  cases more with
  | true => exact operations.answer platform server clock
  | false => exact keeps_pure _ _

end

/-- Whatever is kept for other descriptors is as before. -/
structure Apart (fd : Fd) (before after : Loop) : Prop where
  owner : ∀ other, other ≠ fd → after.kernel.owner other = before.kernel.owner other
  interest : ∀ other, other ≠ fd →
    after.kernel.interest.get other = before.kernel.interest.get other
  reads : ∀ other, other ≠ fd → after.readBuffers.get other = before.readBuffers.get other
  writes : ∀ other, other ≠ fd → after.writeBuffers.get other = before.writeBuffers.get other
  times : ∀ other, other ≠ fd → after.connectTimes.get other = before.connectTimes.get other
  accepted : after.kernel.accepted = before.kernel.accepted

instance (fd : Fd) : Std.Refl (Apart fd) :=
  ⟨fun _ => ⟨fun _ _ => rfl, fun _ _ => rfl, fun _ _ => rfl, fun _ _ => rfl, fun _ _ => rfl, rfl⟩⟩

instance (fd : Fd) : IsTrans Loop (Apart fd) where
  trans _ _ _ early late := by
    refine ⟨?_, ?_, ?_, ?_, ?_, late.accepted.trans early.accepted⟩
    · exact fun other apart => (late.owner other apart).trans (early.owner other apart)
    · exact fun other apart => (late.interest other apart).trans (early.interest other apart)
    · exact fun other apart => (late.reads other apart).trans (early.reads other apart)
    · exact fun other apart => (late.writes other apart).trans (early.writes other apart)
    · exact fun other apart => (late.times other apart).trans (early.times other apart)

theorem Apart.trans {before middle after : Loop} (early : Apart fd before middle)
    (late : Apart fd middle after) : Apart fd before after := IsTrans.trans _ _ _ early late

theorem apart_issue {call : Call} (on : call.fd = fd) (notAccept : ∀ g, call ≠ .accept g) :
    Keeps (Apart fd) (issue call) := by
  subst on
  intro loop
  refine ⟨?_, ?_, fun _ _ => rfl, fun _ _ => rfl, fun _ _ => rfl, ?_⟩
  · intro other apart
    cases call with
    | accept g => exact absurd rfl (notAccept g)
    | close g => exact (loop.kernel.owner_close g other).trans (if_neg apart)
    | read g result => exact loop.kernel.owner_read g other result
    | _ => rfl
  · intro other apart
    cases call with
    | accept g => exact absurd rfl (notAccept g)
    | register g => exact HashMap.get_insert_of_ne _ _ _ _ apart
    | unregister g => exact HashMap.get_remove_of_ne _ _ _ apart
    | close g => exact HashMap.get_remove_of_ne _ _ _ apart
    | watchWrite g => exact (loop.kernel.interest_watchWrite g other).trans (if_neg apart)
    | read g result =>
      exact congrArg (fun interest => HashMap.get interest other)
        (loop.kernel.interest_read g result)
    | _ => rfl
  · cases call with
    | accept g => exact absurd rfl (notAccept g)
    | read g result => exact loop.kernel.accepted_read g result
    | _ => rfl

theorem apart_unregister : Keeps (Apart fd) (issue (.unregister fd)) := apart_issue rfl nofun

theorem apart_close : Keeps (Apart fd) (issue (.close fd)) := apart_issue rfl nofun

theorem apart_removeRead : Keeps (Apart fd) (removeRead fd) := fun loop =>
  ⟨fun _ _ => rfl, fun _ _ => rfl, fun other => HashMap.get_remove_of_ne loop.readBuffers fd other,
    fun _ _ => rfl, fun _ _ => rfl, rfl⟩

theorem apart_removeWrite : Keeps (Apart fd) (removeWrite fd) := fun loop =>
  ⟨fun _ _ => rfl, fun _ _ => rfl, fun _ _ => rfl,
    fun other => HashMap.get_remove_of_ne loop.writeBuffers fd other, fun _ _ => rfl, rfl⟩

theorem apart_removeTime : Keeps (Apart fd) (removeTime fd) := fun loop =>
  ⟨fun _ _ => rfl, fun _ _ => rfl, fun _ _ => rfl, fun _ _ => rfl,
    fun other => HashMap.get_remove_of_ne loop.connectTimes fd other, rfl⟩

theorem apart_setWrite (data : Bytes) : Keeps (Apart fd) (setWrite fd data) := fun loop =>
  ⟨fun _ _ => rfl, fun _ _ => rfl, fun _ _ => rfl,
    fun other => HashMap.get_insert_of_ne loop.writeBuffers fd other data, fun _ _ => rfl, rfl⟩

theorem apart_extendRead (segment : Bytes) : Keeps (Apart fd) (extendRead fd segment) := by
  intro loop
  unfold extendRead
  cases loop.readBuffers.get fd with
  | none => exact Std.Refl.refl loop
  | some data =>
    exact ⟨fun _ _ => rfl, fun _ _ => rfl,
      fun other => HashMap.get_insert_of_ne loop.readBuffers fd other _, fun _ _ => rfl,
      fun _ _ => rfl, rfl⟩

/-! The handlers -/

theorem apart_operations : Operations fd (Apart fd) where
  issue := fun _ on notAccept => apart_issue on notAccept
  removeRead := apart_removeRead
  removeWrite := apart_removeWrite
  setWrite := apart_setWrite
  extendRead := apart_extendRead
  world := fun _ _ =>
    ⟨fun _ _ => rfl, fun _ _ => rfl, fun _ _ => rfl, fun _ _ => rfl, fun _ _ => rfl, rfl⟩

theorem apart_dispatched (event : Event) (loop : Loop) :
    Apart event.fd loop (dispatched event loop) := by
  have dispatches : Keeps (Apart event.fd) (issue (.dispatch event.fd event.connection)) :=
    apart_issue rfl nofun
  exact dispatches loop

/-- All the state of a read event of the loop that is kept for other descriptors. -/
theorem apart_read (platform : Platform) (server : Server) (clock : Clock) (event : Event)
    (results : List ReadResult) (loop : Loop) :
    Apart event.fd loop
      (handleRead platform server clock event.fd results (dispatched event loop)).2 :=
  (apart_dispatched event loop).trans
    (apart_operations.handleRead platform server clock results _)

/-- All the state of a write event of the loop that is kept for other descriptors. -/
theorem apart_write (event : Event) (results : List WriteResult) (loop : Loop) :
    Apart event.fd loop
      (removeTime event.fd (handleWrite event.fd results (dispatched event loop)).2).2 :=
  ((apart_dispatched event loop).trans (apart_operations.handleWrite results _)).trans
    (apart_removeTime _)

def closeOne (fd : Fd) (loop : Loop) : Loop :=
  (issue (.close fd) (removeTime fd (removeWrite fd (removeRead fd
    (issue (.unregister fd) loop).2).2).2).2).2

theorem apart_closeOne (fd : Fd) (loop : Loop) : Apart fd loop (closeOne fd loop) :=
  ((((apart_unregister loop).trans (apart_removeRead _)).trans (apart_removeWrite _)).trans
    (apart_removeTime _)).trans (apart_close _)

theorem owner_closeOne (fd : Fd) (loop : Loop) : (closeOne fd loop).kernel.owner fd = none := by
  simp [closeOne, issue]

def opened (fd : Fd) (time : Nat) (loop : Loop) : Loop :=
  (track fd time (issue (.register fd) (issue (.accept fd) loop).2).2).2

theorem owner_opened (time : Nat) (loop : Loop) (other : Fd) :
    (opened fd time loop).kernel.owner other =
      if other = fd then some loop.kernel.accepted else loop.kernel.owner other :=
  loop.kernel.owner_accept fd other

def dropped (fd : Fd) (loop : Loop) : Loop := (issue (.close fd) (issue (.accept fd) loop).2).2

theorem owner_dropped (loop : Loop) (other : Fd) :
    (dropped fd loop).kernel.owner other =
      if other = fd then none else loop.kernel.owner other := by
  have closes : (dropped fd loop).kernel.owner other =
      if other = fd then none else (loop.kernel.issue (.accept fd)).owner other :=
    (loop.kernel.issue (.accept fd)).owner_close fd other
  rw [closes, Kernel.owner_accept]
  by_cases same : other = fd
  · rw [if_pos same, if_pos same]
  · rw [if_neg same, if_neg same, if_neg same]

section
variable {relation : Loop → Loop → Prop} [Std.Refl relation] [IsTrans Loop relation]

theorem keeps_closeTimedOut (closes : ∀ fd loop, relation loop (closeOne fd loop))
    (timedOut : List Fd) : Keeps relation (closeTimedOut timedOut) := by
  intro loop
  induction timedOut generalizing loop with
  | nil => exact Std.Refl.refl loop
  | cons fd rest ih => exact IsTrans.trans _ _ _ (closes fd loop) (ih _)

theorem keeps_acceptConnections (opens : ∀ fd time loop, relation loop (opened fd time loop))
    (drops : ∀ fd loop, relation loop (dropped fd loop)) (results : List AcceptResult) :
    Keeps relation (acceptConnections results) := by
  intro loop
  induction results generalizing loop with
  | nil => exact Std.Refl.refl loop
  | cons result results ih =>
    cases result with
    | failed => exact Std.Refl.refl loop
    | connected fd time ready =>
      cases ready with
      | false => exact drops fd loop
      | true => exact IsTrans.trans _ _ _ (opens fd time loop) (ih _)

end

def receivedBytes : List ReadResult → Bytes
  | .received segment :: rest => segment ++ receivedBytes rest
  | _ => []

def ending : List ReadResult → ReadResult
  | .received _ :: rest => ending rest
  | result :: _ => result
  | [] => .wouldBlock

theorem ending_ne_received (results : List ReadResult) (segment : Bytes) :
    ending results ≠ .received segment := by
  induction results with
  | nil => nofun
  | cons result results ih =>
    cases result with
    | received other => exact ih
    | _ => nofun

structure Filled (fd : Fd) (bytes : Bytes) (before after : Loop) : Prop where
  owner : ∀ other, after.kernel.owner other = before.kernel.owner other
  interest : after.kernel.interest = before.kernel.interest
  reads : after.readBuffers.get fd = (before.readBuffers.get fd).map (· ++ bytes)
  writes : after.writeBuffers = before.writeBuffers
  times : after.connectTimes = before.connectTimes
  log : ∃ calls, after.kernel.log = calls ++ before.kernel.log

theorem filled_nil (fd : Fd) (loop : Loop) : Filled fd [] loop loop := by
  refine ⟨fun _ => rfl, rfl, ?_, rfl, rfl, [], rfl⟩
  cases loop.readBuffers.get fd with
  | none => rfl
  | some data => rw [Option.map_some, List.append_nil]

theorem filled_received (fd : Fd) (segment : Bytes) (loop : Loop) :
    Filled fd segment loop
      (extendRead fd segment (issue (.read fd (.received segment)) loop).2).2 := by
  let middle := (issue (.read fd (.received segment)) loop).2
  have owner (other : Fd) : middle.kernel.owner other = loop.kernel.owner other :=
    loop.kernel.owner_read fd other (.received segment)
  have interest : middle.kernel.interest = loop.kernel.interest :=
    loop.kernel.interest_read fd (.received segment)
  cases found : loop.readBuffers.get fd with
  | none =>
    have same : (extendRead fd segment middle).2 = middle := by
      rw [extendRead, show middle.readBuffers.get fd = none from found]
    rw [same]
    refine ⟨owner, interest, ?_, rfl, rfl, [_], rfl⟩
    rw [show middle.readBuffers.get fd = none from found, found, Option.map_none]
  | some data =>
    have extended : (extendRead fd segment middle).2 =
        { middle with readBuffers := middle.readBuffers.insert fd (data ++ segment) } := by
      rw [extendRead, show middle.readBuffers.get fd = some data from found]
    rw [extended]
    refine ⟨owner, interest, ?_, rfl, rfl, [_], rfl⟩
    rw [found, Option.map_some]
    exact HashMap.get_insert_self _ _ _

/-- The segments are appended, and the last result decides. -/
theorem drain_filled (fd : Fd) (results : List ReadResult) (loop : Loop) :
    ∃ middle, Filled fd (receivedBytes results) loop middle ∧
      drain fd results loop = drain fd [ending results] middle := by
  induction results generalizing loop with
  | nil => exact ⟨loop, filled_nil fd loop, rfl⟩
  | cons result results ih =>
    cases result with
    | received segment =>
      let read := (extendRead fd segment (issue (.read fd (.received segment)) loop).2).2
      have first : Filled fd segment loop read := filled_received fd segment loop
      obtain ⟨middle, filled, rest⟩ := ih read
      refine ⟨middle, ?_, rest⟩
      obtain ⟨early, grown⟩ := first.log
      obtain ⟨late, grown'⟩ := filled.log
      refine ⟨?_, filled.interest.trans first.interest, ?_, filled.writes.trans first.writes,
        filled.times.trans first.times, late ++ early, by rw [grown', grown, List.append_assoc]⟩
      · exact fun other => (filled.owner other).trans (first.owner other)
      · rw [filled.reads, first.reads, Option.map_map]
        congr 1
        funext data
        exact List.append_assoc _ _ _
    | _ => exact ⟨loop, filled_nil fd loop, rfl⟩

def stalls (data : Bytes) : List WriteResult → Bool
  | .wrote count :: rest => data ≠ [] && count ≠ 0 && stalls (data.drop count) rest
  | .failed :: _ => false
  | .wouldBlock :: _ | [] => data ≠ []

structure Wrote (before after : Loop) : Prop where
  owner : ∀ fd, after.kernel.owner fd = before.kernel.owner fd
  reads : after.readBuffers = before.readBuffers
  log : ∃ calls, after.kernel.log = calls ++ before.kernel.log

inductive WriteEnd (fd : Fd) (stalled : Bool) (loop : Loop) : Loop → Prop where
  | finished : WriteEnd fd stalled loop (finishWrite fd loop).2
  | abandoned : WriteEnd fd stalled loop (abandonWrite fd loop).2
  | blocked (data : Bytes) (stays : stalled = true) :
      WriteEnd fd stalled loop (issue (.write fd data .wouldBlock) loop).2

theorem wrote_refl (loop : Loop) : Wrote loop loop := ⟨fun _ => rfl, rfl, [], rfl⟩

theorem wrote_issue (fd : Fd) (data : Bytes) (result : WriteResult) (loop : Loop) :
    Wrote loop (issue (.write fd data result) loop).2 := ⟨fun _ => rfl, rfl, [_], rfl⟩

theorem Wrote.trans {before middle after : Loop} (early : Wrote before middle)
    (late : Wrote middle after) : Wrote before after := by
  obtain ⟨first, grown⟩ := early.log
  obtain ⟨second, grown'⟩ := late.log
  refine ⟨?_, late.reads.trans early.reads, second ++ first, ?_⟩
  · exact fun fd => (late.owner fd).trans (early.owner fd)
  · rw [grown', grown, List.append_assoc]

/-- Some writes are made, and then the response is complete, given up or kept. -/
theorem writeLoop_ends (fd : Fd) (data : Bytes) (results : List WriteResult) (loop : Loop) :
    ∃ middle, Wrote loop middle ∧
      WriteEnd fd (stalls data results) middle (writeLoop fd data results loop).2 := by
  induction results generalizing data loop with
  | nil =>
    unfold writeLoop
    by_cases empty : data = []
    · rw [if_pos empty]
      exact ⟨loop, wrote_refl loop, .finished⟩
    · rw [if_neg empty]
      exact ⟨loop, wrote_refl loop, .blocked data (decide_eq_true empty)⟩
  | cons result results ih =>
    unfold writeLoop
    by_cases empty : data = []
    · rw [if_pos empty]
      exact ⟨loop, wrote_refl loop, .finished⟩
    · rw [if_neg empty]
      cases result with
      | wrote count =>
        dsimp only
        rw [bind_apply]
        have first := wrote_issue fd data (.wrote count) loop
        by_cases none : count = 0
        · rw [if_pos none]
          exact ⟨_, first, .abandoned⟩
        · rw [if_neg none, bind_apply]
          have same : stalls data (.wrote count :: results) =
              stalls (data.drop count) results := by
            rw [stalls, decide_eq_true empty, decide_eq_true none, Bool.true_and, Bool.true_and]
          obtain ⟨middle, later, ends⟩ := ih (data.drop count)
            (setWrite fd (data.drop count) (issue (.write fd data (.wrote count)) loop).2).2
          rw [same]
          exact ⟨middle, first.trans ⟨later.owner, later.reads, later.log⟩, ends⟩
      | failed => exact ⟨_, wrote_issue fd data .failed loop, .abandoned⟩
      | wouldBlock => exact ⟨loop, wrote_refl loop, .blocked data (decide_eq_true empty)⟩

end LocalServer.Footprint
