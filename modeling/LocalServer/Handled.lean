import LocalServer.Exchanges
import LocalServer.Bookkeeping

/-! When requests are handled. Files and sessions change in no other step of the loop, and no
connection has a second request handled. -/

namespace LocalServer.Handled
open Library Action Utf8 Server Loop Footprint Handling Isolation Watching Exchanges Bookkeeping

/-- In this step the response to what the connection has sent is computed. -/
def Handles (platform : Platform) (server : Server) (loop : Loop) (connection : Nat) : Label → Prop
  | .read clock event results => loop.kernel.owner event.fd = some connection ∧
      ending results = .wouldBlock ∧ ∃ data response world,
        loop.readBuffers.get event.fd = some data ∧
        respond platform server clock (data ++ receivedBytes results) loop.world =
          .ok (.answered response world)
  | _ => False

/-- Nothing will be read on the connection any more. -/
structure Finished (connection : Nat) (loop : Loop) : Prop where
  old : connection < loop.kernel.accepted
  released : ∀ fd, loop.kernel.owner fd = some connection → loop.readBuffers.get fd = none

def Foreign : Label → Prop
  | .other _ => True
  | _ => False

section
variable {before after : Loop}

theorem settled_of_watched (watched : Timeouts.Watched before after)
    (reads : ∀ fd, before.readBuffers.get fd = none → after.readBuffers.get fd = none) :
    Settled before after := by
  refine ⟨?_, watched.accepted⟩
  intro fd connection named old
  rcases watched.opened fd connection named with ⟨still, -⟩ | ⟨new, -⟩
  · exact ⟨still, reads fd⟩
  · omega

theorem settled_operations (fd : Fd) : Operations fd Settled where
  issue := fun call _ notAccept loop =>
    settled_of_watched (Timeouts.watched_issue notAccept loop) fun _ => id
  removeRead := by
    intro loop
    refine settled_of_watched (Timeouts.watched_of_kernel rfl rfl) ?_
    intro other none
    rw [removeRead, HashMap.get_remove]
    split_ifs
    · rfl
    · exact none
  removeWrite := fun _ => settled_of_watched (Timeouts.watched_of_kernel rfl rfl) fun _ => id
  extendRead := by
    intro segment loop
    apply settled_of_watched (Timeouts.watched_extendRead segment loop)
    intro other none
    unfold extendRead
    cases found : loop.readBuffers.get fd with
    | none => exact none
    | some data =>
      have different : other ≠ fd := by
        intro same
        rw [same, found] at none
        cases none
      exact (HashMap.get_insert_of_ne _ _ _ _ different).trans none
  setWrite := fun _ _ => settled_of_watched (Timeouts.watched_of_kernel rfl rfl) fun _ => id
  world := fun _ _ => settled_of_watched (Timeouts.watched_of_kernel rfl rfl) fun _ => id

theorem settled_continueWith {goesOn : Bool} {rest : List Event} (settled : Settled before after) :
    Settled before (continueWith goesOn rest after) := by
  cases goesOn with
  | true => exact ⟨settled.reads, settled.accepted⟩
  | false =>
    refine ⟨?_, settled.accepted⟩
    intro fd connection named old
    exact ⟨(settled.reads fd connection named old).1, fun _ => HashMap.get_empty fd⟩

variable {platform : Platform} {server : Server} {listener : Fd}

theorem step_settled {label : Label} (step : Step platform server listener before label after) :
    Settled before after := by
  have same : Settled before before := Std.Refl.refl before
  have dispatches : ∀ event, Settled before (dispatched event before) :=
    fun event => (settled_operations event.fd).issue (.dispatch event.fd event.connection) rfl
      nofun before
  cases step with
  | @wait now events timedOut phase reported distinct bounded each expired =>
    have closes := settled_closeTimedOut timedOut before
    exact ⟨closes.reads, closes.accepted⟩
  | waitFailed phase =>
    have leaves : Settled before (continueWith false [] before) := settled_continueWith same
    exact leaves
  | @accept event rest results phase isListener fresh =>
    exact settled_continueWith (settled_acceptConnections results before)
  | @write event rest results phase isClient writable =>
    have writes := (settled_operations event.fd).handleWrite results (dispatched event before)
    have forgets : Settled before
        (removeTime event.fd (handleWrite event.fd results (dispatched event before)).2).2 := by
      have both := IsTrans.trans _ _ _ (dispatches event) writes
      exact ⟨both.reads, both.accepted⟩
    exact settled_continueWith forgets
  | @read event rest results clock phase isClient readable =>
    have reads := (settled_operations event.fd).handleRead platform server clock results
      (dispatched event before)
    exact settled_continueWith (IsTrans.trans _ _ _ (dispatches event) reads)
  | again phase => exact ⟨same.reads, same.accepted⟩
  | other => exact ⟨same.reads, same.accepted⟩

theorem finished_settled {connection : Nat} (finished : Finished connection before)
    (settled : Settled before after) : Finished connection after := by
  refine ⟨Nat.lt_of_lt_of_le finished.old settled.accepted, ?_⟩
  intro fd named
  obtain ⟨still, kept⟩ := settled.reads fd connection named finished.old
  exact kept (finished.released fd still)

theorem run_finished {guard : Loop → Label → Prop} {connection : Nat}
    (finished : Finished connection before)
    (run : Reaches (Step platform server listener) guard (· = before) after) :
    Finished connection after := by
  apply run.invariant
  · intro state same
    subst same
    exact finished
  · exact fun state label next finished _ step => finished_settled finished (step_settled step)

theorem not_handles {connection : Nat} {label : Label} (finished : Finished connection before) :
    ¬Handles platform server before connection label := by
  intro handles
  cases label with
  | read clock event results =>
    obtain ⟨named, -, data, -, -, found, -⟩ := handles
    rw [finished.released event.fd named] at found
    cases found
  | _ => exact handles

end

/-! The step in which a request is handled -/

section
variable {platform : Platform} {server : Server} {listener : Fd} {before after : Loop}

/-- The step that handles a request answers all the bytes of the connection, and is the last to
handle any of them. -/
structure Handling (platform : Platform) (server : Server) (before : Loop) (label : Label)
    (after : Loop) (connection : Nat) : Prop where
  gives : ∃ response, Gives platform server connection (after.kernel.received connection)
    (.answered response after.world) (before, label, after)
  finished : Finished connection after

theorem handling_of_handles {gives : Nat → Bytes → Bytes → Prop} (isolated : Isolated gives before)
    {connection : Nat} {event : Event} {rest : List Event} {results : List ReadResult} {clock : Clock}
    (handles : Handles platform server before connection (.read clock event results)) :
    Handling platform server before (.read clock event results)
      (continueWith
        (handleRead platform server clock event.fd results (dispatched event before)).1 rest
        (handleRead platform server clock event.fd results (dispatched event before)).2)
      connection := by
  obtain ⟨named, drained, data, response, world, found, computed⟩ := handles
  have apart := apart_read platform server clock event results before
  have receives : Receives connection (receivedBytes results) (dispatched event before)
      (handleRead platform server clock event.fd results (dispatched event before)).2 :=
    receives_handleRead platform server clock results named
  have ends := read_ends platform server clock event.fd results (dispatched event before)
  have whole : data = (dispatched event before).kernel.received connection :=
    isolated.reads event.fd connection data named found
  generalize handleRead platform server clock event.fd results (dispatched event before) = both
    at apart receives ends ⊢
  obtain ⟨goesOn, loop⟩ := both
  cases ends with
  | gone ends => exact absurd drained ends
  | ignored ends unread => cases unread.symm.trans found
  | refused ends found' refuses =>
    cases found'.symm.trans found
    cases refuses.symm.trans computed
  | panicked ends found' panics =>
    cases found'.symm.trans found
    cases panics.symm.trans computed
  | answered ends found' answers reads queued =>
    cases found'.symm.trans found
    refine ⟨⟨_, .read named rfl ?_ queued.writes⟩, ?_, ?_⟩
    · show respond platform server clock (loop.kernel.received connection) before.world = _
      rw [receives.received, ← whole]
      exact answers
    · show connection < loop.kernel.accepted
      rw [apart.accepted]
      exact before.kernel.numbered event.fd connection named
    · intro fd later
      rw [named_served named apart later]
      exact reads

/-- A read event leaves the files and sessions alone, or handles a request. -/
theorem world_read {clock : Clock} {event : Event} {rest : List Event} {results : List ReadResult}
    (closedFails : ClosedFails before (.read clock event results)) :
    (continueWith
      (handleRead platform server clock event.fd results (dispatched event before)).1 rest
      (handleRead platform server clock event.fd results (dispatched event before)).2).world =
        before.world ∨
      ∃ connection, Handles platform server before connection (.read clock event results) := by
  have ends := read_ends platform server clock event.fd results (dispatched event before)
  generalize handleRead platform server clock event.fd results (dispatched event before) = both
    at ends ⊢
  obtain ⟨goesOn, loop⟩ := both
  cases ends with
  | gone ends reads writes interest world => exact Or.inl world
  | ignored ends unread reads writes owner interest world => exact Or.inl world
  | refused ends found computed reads queued world => exact Or.inl world
  | panicked ends found computed owner world => exact Or.inl world
  | answered ends found computed reads queued =>
    obtain ⟨connection, named⟩ :=
      Option.ne_none_iff_exists'.mp (opened_of_drained closedFails ends)
    exact Or.inr ⟨connection, named, ends, _, _, _, found, computed⟩

/-- Of the loop's own steps only a read event changes files or sessions. -/
theorem world_step {label : Label} (own : ¬Foreign label)
    (notRead : ∀ clock event results, label ≠ .read clock event results)
    (step : Step platform server listener before label after) : after.world = before.world := by
  let SameWorld (before after : Loop) : Prop := after.world = before.world
  have reflexive : Std.Refl SameWorld := ⟨fun _ => rfl⟩
  have transitive : IsTrans Loop SameWorld := ⟨fun _ _ _ early late => Eq.trans late early⟩
  cases step with
  | @wait now events timedOut phase reported distinct bounded each expired =>
    have closes : Keeps SameWorld (closeTimedOut timedOut) :=
      keeps_closeTimedOut (fun _ _ => rfl) timedOut
    exact closes before
  | waitFailed phase => rfl
  | @accept event rest results phase isListener fresh =>
    have accepts : Keeps SameWorld (acceptConnections results) :=
      keeps_acceptConnections (fun _ _ _ => rfl) (fun _ _ => rfl) results
    cases goesOn : (acceptConnections results before).1 <;> exact accepts before
  | @write event rest results phase isClient writable =>
    exact world_handleWrite event.fd results (dispatched event before)
  | @read event rest results clock phase isClient readable =>
    exact absurd rfl (notRead clock event results)
  | again phase => rfl
  | other => exact absurd trivial own

end

/-- A step that handles a request computes its answer from all that was read on the connection,
and queues it, and no later step of any run handles a request of that connection again. Files and
sessions change in no other step of the loop's own. -/
theorem requests_handled_once (platform : Platform) (server : Server) (listener : Fd)
    (before after : Loop) (label : Label)
    (reached : Reaches (Step platform server listener) ClosedFails Initial before)
    (closedFails : ClosedFails before label)
    (step : Step platform server listener before label after) :
    (∀ connection, Handles platform server before connection label →
      (∃ response, Gives platform server connection (after.kernel.received connection)
        (.answered response after.world) (before, label, after)) ∧
      ∀ later, Reaches (Step platform server listener) ClosedFails (· = after) later →
        ∀ label', ¬Handles platform server later connection label') ∧
    (¬Foreign label → after.world ≠ before.world →
      ∃ connection, Handles platform server before connection label) := by
  obtain ⟨steps, walk⟩ := reached.walk
  have isolated := walk_isolated walk
  constructor
  · intro connection handles
    have handling : Handling platform server before label after connection := by
      cases step with
      | read phase isClient readable => exact handling_of_handles isolated handles
      | _ => exact absurd handles id
    exact ⟨handling.gives, fun later run label' => not_handles (run_finished handling.finished run)⟩
  · intro own changed
    by_cases isRead : ∃ clock event results, label = .read clock event results
    · obtain ⟨clock, event, results, rfl⟩ := isRead
      cases step with
      | read phase isClient readable => exact (world_read closedFails).resolve_left changed
    · refine absurd (world_step own ?_ step) changed
      exact fun clock event results same => isRead ⟨clock, event, results, same⟩

theorem handles_webReady : Handles Handler.quietPlatform webServer webReady 0
    (.read ⟨0, 0, 0⟩ requestReady requestReads) := by
  have opened : webReady.kernel.owner requestReady.fd = some 0 := by decide +kernel
  have buffer : webReady.readBuffers.get requestReady.fd = some [] := by decide +kernel
  have status : (respond Handler.quietPlatform webServer ⟨0, 0, 0⟩
      ([] ++ receivedBytes requestReads) webReady.world).map
        (fun reply => decide (reply.response.status = .contentTooLarge)) = .ok false := by
    decide +kernel
  cases computed : respond Handler.quietPlatform webServer ⟨0, 0, 0⟩
      ([] ++ receivedBytes requestReads) webReady.world with
  | error panic =>
    rw [computed] at status
    cases status
  | ok reply =>
    rw [computed] at status
    cases reply with
    | tooLarge => cases status
    | answered response world => exact ⟨opened, rfl, [], response, world, buffer, computed⟩

theorem requests_handled_once_webReady :
    (∃ response, Gives Handler.quietPlatform webServer 0 (webAnswered.kernel.received 0)
      (.answered response webAnswered.world)
      (webReady, .read ⟨0, 0, 0⟩ requestReady requestReads, webAnswered)) ∧
      ∀ later, Reaches (Step Handler.quietPlatform webServer 3) ClosedFails (· = webAnswered) later →
        ∀ label', ¬Handles Handler.quietPlatform webServer later 0 label' := by
  have reached : Reaches (Step Handler.quietPlatform webServer 3) ClosedFails Initial webReady :=
    reaches_webReady.mono fun _ _ ordinary => ordinary.1
  exact (requests_handled_once Handler.quietPlatform webServer 3 webReady webAnswered _ reached
    ordinary_webReady.1 step_webAnswered).1 0 handles_webReady

end LocalServer.Handled
